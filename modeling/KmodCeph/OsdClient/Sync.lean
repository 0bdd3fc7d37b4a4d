import KmodCeph.Lib.Reached
import KmodCeph.OsdClient.Requests

namespace KmodCeph.OsdClient

open Lib

/-- Where `ceph_osdc_sync` is: at the head of its loop with the mutex held, or
waiting without it. -/
inductive SyncPhase where
  | idle
  | looking (lastTid nextTid : Nat)
  | waiting (lastTid nextTid : Nat) (req : ReqId)
  | returned

/-- The registered requests, what is known of every request and the call of
`ceph_osdc_sync`; `owed` are the writes that were registered when it began. -/
structure SyncWorld where
  requests : RequestTree
  lastTid : Nat
  write : ReqId → Bool
  safe : ReqId → Bool
  phase : SyncPhase
  owed : List ReqId

inductive RequestBug where
  | duplicateTid

def SyncWorld.init (write : ReqId → Bool) : SyncWorld where
  requests := .nil
  lastTid := 0
  write := write
  safe := fun _ => false
  phase := .idle
  owed := []

def SyncWorld.registerRequest (world : SyncWorld) (balancing : Balancing Registered) (req : ReqId) :
    Except RequestBug SyncWorld :=
  match insertRequest balancing { tid := world.lastTid + 1, req } world.requests with
  | none => throw .duplicateTid
  | some requests => return { world with requests := requests, lastTid := world.lastTid + 1 }

def SyncWorld.look (world : SyncWorld) (lastTid nextTid : Nat) : SyncPhase :=
  match lookupRequestGe nextTid world.requests with
  | none => .returned
  | some req =>
    if req.tid > lastTid then .returned
    else if world.write req.req = false then .looking lastTid (req.tid + 1)
    else .waiting lastTid (req.tid + 1) req.req

def SyncWorld.writes (world : SyncWorld) : List ReqId :=
  ((inorder world.requests).map (·.req)).filter world.write

/-- Requests, and `ceph_osdc_sync`, which waits for all earlier writes. -/
inductive SyncCall where
  | register (req : ReqId)
  | unregister (entry : Registered)
  | complete (req : ReqId)
  | start
  | look
  | wake

def SyncCall.run (balancing : Balancing Registered) : SyncCall → SyncWorld → Except RequestBug SyncWorld
  | .register req, world => world.registerRequest balancing req
  | .unregister entry, world => return { world with requests := balancing.erase world.requests entry }
  | .complete req, world => return { world with safe := Function.update world.safe req true }
  | .start, world => return { world with phase := .looking world.lastTid 0, owed := world.writes }
  | .look, world =>
    match world.phase with
    | .looking lastTid nextTid => return { world with phase := world.look lastTid nextTid }
    | _ => return world
  | .wake, world =>
    match world.phase with
    | .waiting lastTid nextTid _ => return { world with phase := .looking lastTid nextTid }
    | _ => return world

def SyncPhase.Unlocked : SyncPhase → Prop
  | .looking _ _ => False
  | _ => True

def SyncCall.Proper : SyncCall → SyncWorld → Prop
  | .register req, world => world.phase.Unlocked ∧ ∀ entry ∈ inorder world.requests, entry.req ≠ req
  | .unregister entry, world => world.phase.Unlocked ∧ entry ∈ inorder world.requests
  | .complete _, _ => True
  | .start, world => world.phase = .idle
  | .look, world => ∃ lastTid nextTid, world.phase = .looking lastTid nextTid
  | .wake, world => ∃ lastTid nextTid req, world.phase = .waiting lastTid nextTid req ∧ world.safe req

/-- The next request is not shadowed in the tree, and no write that is waited for
is given a new tid. -/
def SyncCall.Clear : SyncCall → SyncWorld → Prop
  | .register req, world => req ∈ world.owed → world.safe req
  | .look, world => ∀ lastTid nextTid, world.phase = .looking lastTid nextTid → Unshadowed nextTid world.requests
  | _, _ => True

def SyncPhase.Awaits (phase : SyncPhase) (entry : Registered) : Prop :=
  match phase with
  | .idle => False
  | .looking lastTid nextTid => entry.tid ≤ lastTid ∧ nextTid ≤ entry.tid
  | .waiting lastTid nextTid req => entry.tid ≤ lastTid ∧ (nextTid ≤ entry.tid ∨ entry.req = req)
  | .returned => False

structure Ordered (world : SyncWorld) : Prop where
  sorted : Sorted Registered.tid world.requests
  below : ∀ entry ∈ inorder world.requests, entry.tid ≤ world.lastTid

structure Awaiting (world : SyncWorld) : Prop where
  ordered : Ordered world
  writes : ∀ req ∈ world.owed, world.write req
  idle : world.phase = .idle → world.owed = []
  awaits : ∀ entry ∈ inorder world.requests, entry.req ∈ world.owed → world.safe entry.req ∨ world.phase.Awaits entry

section

variable {balancing : Balancing Registered} {world : SyncWorld} {write : ReqId → Bool}

theorem registerRequest_ok (balancing : Balancing Registered) (ordered : Ordered world) (req : ReqId) :
    ∃ requests, world.registerRequest balancing req =
        .ok { world with requests := requests, lastTid := world.lastTid + 1 } ∧
      Sorted Registered.tid requests ∧
      ∀ entry, entry ∈ inorder requests ↔ entry = { tid := world.lastTid + 1, req } ∨ entry ∈ inorder world.requests := by
  have absent : ∀ entry ∈ inorder world.requests,
      entry.tid ≠ ({ tid := world.lastTid + 1, req } : Registered).tid := by
    intro entry member
    have below := ordered.below entry member
    simp only
    omega
  obtain ⟨linked, link⟩ := Option.isSome_iff_exists.mp (linkValue_isSome absent)
  refine ⟨balancing.balance linked, ?_, balancing.sorted_balance (sorted_linkValue ordered.sorted link), ?_⟩
  · simp only [SyncWorld.registerRequest, insertRequest, link, Option.map_some]
    rfl
  · intro entry
    rw [balancing.inorder_balance, mem_linkValue link]

theorem ordered_keeps : Keeps (SyncCall.run balancing) SyncCall.Proper Ordered := by
  intro call world proper ordered
  cases call with
  | register req =>
    obtain ⟨requests, ran, sorted, mem⟩ := registerRequest_ok balancing ordered req
    refine ⟨_, ran, sorted, ?_⟩
    intro entry member
    rcases (mem entry).mp member with rfl | old
    · exact le_rfl
    · exact (ordered.below entry old).trans (Nat.le_succ _)
  | unregister entry =>
    refine .pure ⟨balancing.sorted_erase ordered.sorted entry, ?_⟩
    intro other member
    rw [balancing.inorder_erase] at member
    exact ordered.below other (List.mem_of_mem_erase member)
  | complete req => exact .pure ⟨ordered.sorted, ordered.below⟩
  | start => exact .pure ⟨ordered.sorted, ordered.below⟩
  | look =>
    obtain ⟨lastTid, nextTid, looking⟩ := proper
    rw [SyncCall.run, looking]
    exact .pure ⟨ordered.sorted, ordered.below⟩
  | wake =>
    obtain ⟨lastTid, nextTid, req, waiting, _⟩ := proper
    rw [SyncCall.run, waiting]
    exact .pure ⟨ordered.sorted, ordered.below⟩

/-- A pass of the loop leaves nothing behind that is to be waited for. -/
theorem look_awaits (awaiting : Awaiting world) {lastTid nextTid : Nat} (looking : world.phase = .looking lastTid nextTid)
    (clear : Unshadowed nextTid world.requests) {entry : Registered} (member : entry ∈ inorder world.requests)
    (owed : entry.req ∈ world.owed) :
    world.safe entry.req ∨ (world.look lastTid nextTid).Awaits entry := by
  rcases awaiting.awaits entry member owed with safe | awaits
  · exact .inl safe
  · rw [looking] at awaits
    obtain ⟨early, ahead⟩ := awaits
    have finds := (finds_lookupRequestGe_iff awaiting.ordered.sorted).mpr clear
    unfold SyncWorld.look
    cases found : lookupRequestGe nextTid world.requests with
    | none =>
      rw [found] at finds
      exact absurd ahead (finds entry member).not_ge
    | some first =>
      rw [found] at finds
      have behind := finds.least entry member ahead
      have same : entry.tid = first.tid → entry = first := by
        intro tids
        have ofEntry := findKey_of_mem awaiting.ordered.sorted member
        have ofFirst := findKey_of_mem awaiting.ordered.sorted finds.registered
        rw [tids, ofFirst] at ofEntry
        exact (Option.some.inj ofEntry).symm
      simp only
      split
      · exact absurd early (by omega)
      · split
        · rename_i reads
          have other : entry.tid ≠ first.tid := by
            intro tids
            have write := awaiting.writes entry.req owed
            rw [same tids, reads] at write
            cases write
          exact .inr ⟨early, by omega⟩
        · refine .inr ⟨early, ?_⟩
          by_cases tids : entry.tid = first.tid
          · exact .inr (by rw [same tids])
          · exact .inl (by omega)

theorem start_awaiting (awaiting : Awaiting world) :
    Awaiting { world with phase := .looking world.lastTid 0, owed := world.writes } where
  ordered := ⟨awaiting.ordered.sorted, awaiting.ordered.below⟩
  writes req member := (List.mem_filter.mp member).2
  idle := by simp
  awaits entry member _ := .inr ⟨awaiting.ordered.below entry member, Nat.zero_le _⟩

theorem register_awaiting (awaiting : Awaiting world) {req : ReqId} (fresh : req ∈ world.owed → world.safe req) :
    Returns (world.registerRequest balancing req) Awaiting := by
  obtain ⟨requests, ran, sorted, mem⟩ := registerRequest_ok balancing awaiting.ordered req
  refine ⟨_, ran, ⟨sorted, ?_⟩, awaiting.writes, awaiting.idle, ?_⟩
  · intro entry member
    rcases (mem entry).mp member with rfl | old
    · exact le_rfl
    · exact (awaiting.ordered.below entry old).trans (Nat.le_succ _)
  · intro entry member owed
    rcases (mem entry).mp member with rfl | old
    · exact .inl (fresh owed)
    · exact awaiting.awaits entry old owed

theorem awaiting_keeps :
    Keeps (SyncCall.run balancing) (fun call world => call.Proper world ∧ call.Clear world) Awaiting := by
  rintro call world ⟨proper, clear⟩ awaiting
  obtain ⟨after, ran, ordered⟩ := ordered_keeps call world proper awaiting.ordered
  cases call with
  | register req => exact register_awaiting awaiting clear
  | unregister entry =>
    cases ran
    refine .pure ⟨ordered, awaiting.writes, awaiting.idle, ?_⟩
    intro other member
    rw [balancing.inorder_erase] at member
    exact awaiting.awaits other (List.mem_of_mem_erase member)
  | complete req =>
    cases ran
    refine .pure ⟨ordered, awaiting.writes, awaiting.idle, ?_⟩
    intro entry member owed
    rcases awaiting.awaits entry member owed with safe | awaits
    · refine .inl ?_
      by_cases same : entry.req = req
      · simp [same]
      · simpa [Function.update, same] using safe
    · exact .inr awaits
  | start => exact .pure (start_awaiting awaiting)
  | look =>
    obtain ⟨lastTid, nextTid, looking⟩ := proper
    simp only [SyncCall.run, looking]
    refine .pure ⟨⟨awaiting.ordered.sorted, awaiting.ordered.below⟩, awaiting.writes, ?_, ?_⟩
    · intro idle
      unfold SyncWorld.look at idle
      split at idle
      · cases idle
      · split at idle
        · cases idle
        · split at idle <;> cases idle
    · exact fun entry member owed => look_awaits awaiting looking (clear lastTid nextTid looking) member owed
  | wake =>
    obtain ⟨lastTid, nextTid, req, waiting, safe⟩ := proper
    simp only [SyncCall.run, waiting]
    refine .pure ⟨⟨awaiting.ordered.sorted, awaiting.ordered.below⟩, awaiting.writes, by simp, ?_⟩
    intro entry member owed
    rcases awaiting.awaits entry member owed with done | awaits
    · exact .inl done
    · rw [waiting] at awaits
      obtain ⟨early, ahead | same⟩ := awaits
      · exact .inr ⟨early, ahead⟩
      · exact .inl (same ▸ safe)

theorem init_awaiting : Awaiting (SyncWorld.init write) where
  ordered := ⟨sorted_nil, by simp [SyncWorld.init, inorder]⟩
  writes := by simp [SyncWorld.init]
  idle _ := rfl
  awaits := by simp [SyncWorld.init, inorder]

/-- The search for the next request is right in exactly the trees where that
request is not shadowed, and if this is so whenever it looks, `ceph_osdc_sync`
returns with no earlier write registered and not safe. -/
theorem cephOsdcSync_waits (balancing : Balancing Registered) (write : ReqId → Bool) :
    (∀ world tid, Reached (SyncCall.run balancing) SyncCall.Proper (.init write) world →
      (Finds tid (inorder world.requests) (lookupRequestGe tid world.requests) ↔ Unshadowed tid world.requests)) ∧
    ∀ world, Reached (SyncCall.run balancing) (fun call world => call.Proper world ∧ call.Clear world) (.init write) world →
      world.phase = .returned → ∀ entry ∈ inorder world.requests, entry.req ∈ world.owed → world.safe entry.req := by
  constructor
  · intro world tid reached
    have ordered := reached.holds ordered_keeps init_awaiting.ordered
    exact finds_lookupRequestGe_iff ordered.sorted
  · intro world reached returned entry member owed
    have awaiting := reached.holds awaiting_keeps init_awaiting
    rcases awaiting.awaits entry member owed with safe | awaits
    · exact safe
    · rw [returned] at awaits
      exact awaits.elim

end

def SyncWorld.holding (write : ReqId → Bool) (requests : RequestTree) (lastTid : Nat) : SyncWorld :=
  { SyncWorld.init write with requests := requests, lastTid := lastTid }

def leafOf (tid : Nat) : RequestTree := .node { tid := tid, req := tid } .nil .nil

def readsThenWrite (write : ReqId → Bool) : SyncWorld :=
  .holding write (.node { tid := 3, req := 3 } (leafOf 1) .nil) 3

theorem reached_readsThenWrite (write : ReqId → Bool) :
    Reached (SyncCall.run (Balancing.small Registered)) SyncCall.Proper (.init write) (readsThenWrite write) := by
  have first : Reached (SyncCall.run (Balancing.small Registered)) SyncCall.Proper (.init write)
      (.holding write (leafOf 1) 1) :=
    .next .start (.register 1) ⟨trivial, nofun⟩ rfl
  have second : Reached (SyncCall.run (Balancing.small Registered)) SyncCall.Proper (.init write)
      (.holding write (.node { tid := 1, req := 1 } .nil (leafOf 2)) 2) :=
    first.next (.register 2) ⟨trivial, (by decide : ∀ entry ∈ inorder (leafOf 1), entry.req ≠ 2)⟩ rfl
  have third : Reached (SyncCall.run (Balancing.small Registered)) SyncCall.Proper (.init write)
      (.holding write (.node { tid := 2, req := 2 } (leafOf 1) (leafOf 3)) 3) :=
    second.next (.register 3) ⟨trivial, (by decide :
      ∀ entry ∈ inorder (.node { tid := 1, req := 1 } .nil (leafOf 2)), entry.req ≠ 3)⟩ rfl
  exact third.next (.unregister { tid := 2, req := 2 }) ⟨trivial, (by decide :
    { tid := 2, req := 2 } ∈ inorder (.node { tid := 2, req := 2 } (leafOf 1) (leafOf 3)))⟩ rfl

theorem unshadowed_leafOf (wanted tid : Nat) : Unshadowed wanted (leafOf tid) := by
  intro req left right within _
  simp only [leafOf, Subtree, BinaryTree.node.injEq, reduceCtorEq, or_false, or_self] at within
  exact .inr within.2.1

/-- A write is registered, waited for and safe before the call returns. -/
theorem cephOsdcSync_waits_write :
    ∃ world : SyncWorld, world.phase = .returned ∧ { tid := 1, req := 1 } ∈ inorder world.requests ∧ 1 ∈ world.owed ∧
      world.safe 1 := by
  have registered : Reached (SyncCall.run (Balancing.small Registered))
      (fun call world => call.Proper world ∧ call.Clear world) (.init fun _ => true) (.holding (fun _ => true) (leafOf 1) 1) :=
    .next .start (.register 1) ⟨⟨trivial, by simp [SyncWorld.init, inorder]⟩, by simp [SyncCall.Clear, SyncWorld.init]⟩ rfl
  have begun := registered.next .start ⟨rfl, trivial⟩ rfl
  have waiting := begun.next .look ⟨⟨1, 0, rfl⟩, fun _ nextTid _ => unshadowed_leafOf nextTid 1⟩ rfl
  have committed := waiting.next (.complete 1) ⟨trivial, trivial⟩ rfl
  have woken := committed.next .wake ⟨⟨1, 2, 1, rfl, rfl⟩, trivial⟩ rfl
  have returned := woken.next .look ⟨⟨1, 2, rfl⟩, fun _ nextTid _ => unshadowed_leafOf nextTid 1⟩ rfl
  have still : { tid := 1, req := 1 } ∈ inorder (leafOf 1) := by decide
  have waits := (cephOsdcSync_waits (Balancing.small Registered) fun _ => true).2 _ returned rfl _ still (by decide)
  exact ⟨_, rfl, still, by decide, waits⟩

/-- The first request from tid 2 on is 3, but below it is 1: the search misses it,
and `ceph_osdc_sync` does not wait for that write. -/
theorem cephOsdcSync_misses :
    (¬ ∀ write world tid, Reached (SyncCall.run (Balancing.small Registered)) SyncCall.Proper (.init write) world →
      Finds tid (inorder world.requests) (lookupRequestGe tid world.requests)) ∧
    ¬ ∀ write world, Reached (SyncCall.run (Balancing.small Registered)) SyncCall.Proper (.init write) world →
      world.phase = .returned → ∀ entry ∈ inorder world.requests, entry.req ∈ world.owed → world.safe entry.req := by
  have reached : Reached (SyncCall.run (Balancing.small Registered)) SyncCall.Proper (.init fun req => req = 3)
      (readsThenWrite fun req => req = 3) := reached_readsThenWrite _
  constructor
  · intro finds
    have missed := finds _ _ 2 reached { tid := 3, req := 3 } (by decide)
    simp at missed
  · intro waits
    have begun := reached.next .start rfl rfl
    have looked := begun.next .look ⟨3, 0, rfl⟩ rfl
    have returned := looked.next .look ⟨3, 2, rfl⟩ rfl
    have safe := waits _ _ returned rfl { tid := 3, req := 3 } (by decide) (by decide)
    cases safe

end KmodCeph.OsdClient
