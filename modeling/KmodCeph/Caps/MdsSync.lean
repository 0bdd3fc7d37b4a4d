import KmodCeph.Caps.Flush
import Mathlib.Data.List.TakeWhile

namespace KmodCeph.Caps

open Lib Function List Nat

structure MdsRequest where
  tid : Nat
  write : Bool
deriving DecidableEq

/-- Where `ceph_mdsc_sync` is: flushing, waiting for a request with the next one in hand, or about to look
at the flushing list of a session; after a forced unmount it skips all this. -/
inductive SyncPhase where
  | idle
  | flushing (wantTid wantFlush : Nat)
  | waiting (wantTid wantFlush tid : Nat) (next : Option Nat)
  | checking (wantFlush mds : Nat)
  | returned (wantFlush : Nat)
  | skipped

/-- The inodes, the sessions and the registered requests, oldest first. `owedCaps` and `owedTids` are the
capabilities that were dirty or flushing and the writes that were registered when `ceph_mdsc_sync` was
called, until they are acked and safe. -/
structure SyncWorld where
  inodes : InodeId → CephInode
  lists : CapLists
  maxSessions : Nat
  lastTid : Nat
  requests : List MdsRequest
  shutdown : Bool
  phase : SyncPhase
  owedCaps : InodeId → CapMask
  owedTids : List Nat

def SyncWorld.init (contexts : InodeId → SnapContext) : SyncWorld where
  inodes := (CapWorld.init contexts).inodes
  lists := (CapWorld.init contexts).lists
  maxSessions := 0
  lastTid := 0
  requests := []
  shutdown := false
  phase := .idle
  owedCaps _ := 0
  owedTids := []

/-- The loop of `wait_unsafe_requests` from a request on: the write it waits for, and the request after. -/
def waitFrom (wantTid : Nat) : List MdsRequest → Option (Nat × Option Nat)
  | [] => none
  | req :: rest =>
    if req.tid ≤ wantTid then
      if req.write then some (req.tid, rest.head?.map MdsRequest.tid) else waitFrom wantTid rest
    else none

/-- What follows a wait. If the next request is gone the loop begins again. -/
def waitAfter (wantTid : Nat) (requests : List MdsRequest) : Option Nat → Option (Nat × Option Nat)
  | none => none
  | some next =>
    if next ∈ requests.map MdsRequest.tid then
      waitFrom wantTid (requests.dropWhile fun req => req.tid < next)
    else waitFrom wantTid requests

def SyncPhase.ofWait (wantTid wantFlush : Nat) : Option (Nat × Option Nat) → SyncPhase
  | none => .checking wantFlush 0
  | some (tid, next) => .waiting wantTid wantFlush tid next

def CapLists.firstFlushing (lists : CapLists) (session : Session) : Option InodeId :=
  (lists.capFlushing.find? fun item => item.1 = session).map (·.2)

def CapLists.moveFlushing (self : InodeId) (session : Session) (lists : CapLists) : CapLists :=
  { lists with capFlushing := lists.unlinkFlushing self ++ [(session, self)] }

namespace SyncWorld

/-- One session in the loop of `check_cap_flush`; after a session that is still flushing it is called again. -/
def checkCapFlush (world : SyncWorld) (wantFlush mds : Nat) : SyncPhase :=
  if mds < world.maxSessions then
    match world.lists.firstFlushing mds with
    | none => .checking wantFlush (mds + 1)
    | some self => if (world.inodes self).capFlushSeq ≤ wantFlush then .checking wantFlush 0 else .checking wantFlush (mds + 1)
  else .returned wantFlush

def setInode (world : SyncWorld) (self : InodeId) (ci : CephInode) (lists : CapLists) : SyncWorld :=
  { world with
    inodes := Function.update world.inodes self ci
    lists := lists }

end SyncWorld

/-- The steps of `ceph_mdsc_sync` and of the rest of the client. An inode is flushed by `ceph_check_caps`
or `try_flush_caps`, and moved by `handle_cap_export` or `kick_flushing_inode_caps`. -/
inductive SyncCall where
  | markDirty (self : InodeId) (mask : CapMask)
  | flush (self : InodeId) (session : Session)
  | flushAck (self : InodeId) (flushTid : Nat) (dirty : CapMask)
  | capExport (self : InodeId) (session : Session)
  | kickFlushing (self : InodeId) (session : Session)
  | openSession (mds : Session)
  | register (write : Bool)
  | safeReply (tid : Nat)
  | unregister (tid : Nat)
  | umountBegin
  | sync
  | flushed
  | wake
  | check

namespace SyncWorld

def flush (self : InodeId) (session : Session) (world : SyncWorld) : Except InodeBug SyncWorld := do
  let (flushing, ci, lists) ← markCapsFlushing self session (world.inodes self) world.lists
  return world.setInode self (assignFlushTid flushing ci) lists

def flushAck (self : InodeId) (flushTid : Nat) (dirty : CapMask) (world : SyncWorld) : Except InodeBug SyncWorld := do
  let (ci, lists) ← handleCapFlushAck self flushTid dirty (world.inodes self) world.lists
  let owed := world.owedCaps self &&& ~~~cleanedBits (world.inodes self) flushTid dirty
  return { world.setInode self ci lists with owedCaps := Function.update world.owedCaps self owed }

/-- The end of `handle_cap_export` with a target that has a cap. -/
def capExport (self : InodeId) (session : Session) (world : SyncWorld) : SyncWorld :=
  if (world.inodes self).flushingCaps = 0 then world
  else { world with lists := world.lists.moveFlushing self session }

def kickFlushingInodeCaps (self : InodeId) (session : Session) (world : SyncWorld) : SyncWorld :=
  if (world.inodes self).flushingCaps = 0 then world
  else world.setInode self (assignFlushTid (world.inodes self).flushingCaps (world.inodes self)) (world.lists.moveFlushing self session)

def unregisterRequest (tid : Nat) (world : SyncWorld) : SyncWorld :=
  { world with requests := world.requests.filter fun req => req.tid ≠ tid }

end SyncWorld

def SyncCall.run : SyncCall → SyncWorld → Except InodeBug SyncWorld
  | .markDirty self mask, world => do
    let (ci, lists) ← cephMarkDirtyCaps self mask (world.inodes self) world.lists
    return world.setInode self ci lists
  | .flush self session, world => world.flush self session
  | .flushAck self flushTid dirty, world => world.flushAck self flushTid dirty
  | .capExport self session, world => return world.capExport self session
  | .kickFlushing self session, world => return world.kickFlushingInodeCaps self session
  | .openSession mds, world => return { world with maxSessions := max world.maxSessions (mds + 1) }
  | .register write, world => return { world with
      lastTid := world.lastTid + 1
      requests := world.requests ++ [⟨world.lastTid + 1, write⟩] }
  | .safeReply tid, world => return { world.unregisterRequest tid with owedTids := world.owedTids.erase tid }
  | .unregister tid, world => return world.unregisterRequest tid
  | .umountBegin, world => return { world with shutdown := true }
  | .sync, world => return { world with
      phase := if world.shutdown then .skipped else .flushing world.lastTid world.lists.capFlushSeq
      owedCaps := fun self => cephCapsDirty (world.inodes self)
      owedTids := (world.requests.filter MdsRequest.write).map MdsRequest.tid }
  | .flushed, world =>
    match world.phase with
    | .flushing wantTid wantFlush => return { world with phase := .ofWait wantTid wantFlush (waitFrom wantTid world.requests) }
    | _ => return world
  | .wake, world =>
    match world.phase with
    | .waiting wantTid wantFlush _ next => return { world with
        phase := .ofWait wantTid wantFlush (waitAfter wantTid world.requests next) }
    | _ => return world
  | .check, world =>
    match world.phase with
    | .checking wantFlush mds => return { world with phase := world.checkCapFlush wantFlush mds }
    | _ => return world

/-- Which steps there are: what is flushed is dirty, and on a session that is there; `ceph_flush_dirty_caps`
ends with nothing dirty, and a wait when the request is no longer registered. -/
def SyncCall.Proper : SyncCall → SyncWorld → Prop
  | .markDirty _ mask, _ => mask ≠ 0
  | .flush self session, world => (world.inodes self).dirtyCaps ≠ 0 ∧ session < world.maxSessions
  | .capExport _ session, world => session < world.maxSessions
  | .kickFlushing _ session, world => session < world.maxSessions
  | .sync, world => world.phase = .idle ∨ world.phase = .skipped ∨ ∃ wantFlush, world.phase = .returned wantFlush
  | .flushed, world => world.lists.capDirty = []
  | .wake, world => ∀ wantTid wantFlush tid next, world.phase = .waiting wantTid wantFlush tid next →
      tid ∉ world.requests.map MdsRequest.tid
  | _, _ => True

/-- A flushing inode that is moved goes behind earlier ones only, and not to a session that
`check_cap_flush` has seen, if it is one to wait for. -/
def SyncWorld.Orderly (world : SyncWorld) (self : InodeId) (session : Session) : Prop :=
  (world.inodes self).flushingCaps ≠ 0 →
    (∀ item ∈ world.lists.capFlushing, item.1 = session → (world.inodes item.2).capFlushSeq ≤ (world.inodes self).capFlushSeq) ∧
    ∀ wantFlush mds, world.phase = .checking wantFlush mds → session < mds → wantFlush < (world.inodes self).capFlushSeq

/-- Nothing is dirty when `ceph_mdsc_sync` is called, and after a forced unmount nothing is flushing and no
write is registered; what it waits for is not flushed again, and moves in order; and the writes it waits for
are unregistered with their safe reply. -/
def SyncCall.Sound : SyncCall → SyncWorld → Prop
  | .flush self _, world => world.owedCaps self = 0
  | .capExport self session, world => world.Orderly self session
  | .kickFlushing self session, world => world.Orderly self session
  | .unregister tid, world => tid ∉ world.owedTids
  | .sync, world => world.lists.capDirty = [] ∧
      (world.shutdown → world.lists.capFlushing = [] ∧ ∀ req ∈ world.requests, req.write = false)
  | _, _ => True

def SyncPhase.Ended : SyncPhase → Prop
  | .returned _ | .skipped => True
  | _ => False

/-- What a sync is for: no inode that was to be waited for is left, and everything owed has come. -/
structure Synced (world : SyncWorld) : Prop where
  checked : ∀ wantFlush, world.phase = .returned wantFlush →
    ∀ self, (world.inodes self).flushingCaps ≠ 0 → wantFlush < (world.inodes self).capFlushSeq
  acked : world.phase.Ended → ∀ self, world.owedCaps self = 0
  safe : world.phase.Ended → world.owedTids = []

def SyncPhase.wantFlush : SyncPhase → Option Nat
  | .idle => none
  | .flushing _ wantFlush => some wantFlush
  | .waiting _ wantFlush _ _ => some wantFlush
  | .checking wantFlush _ => some wantFlush
  | .returned wantFlush => some wantFlush
  | .skipped => none

/-- The sessions that `check_cap_flush` has seen have nothing to wait for. -/
def SyncPhase.Seen (items : List (Session × InodeId)) (seq : InodeId → Nat) : SyncPhase → Prop
  | .checking wantFlush mds => ∀ item ∈ items, item.1 < mds → wantFlush < seq item.2
  | .returned wantFlush => ∀ item ∈ items, wantFlush < seq item.2
  | _ => True

def SyncPhase.Awaits (tid : Nat) : SyncPhase → Prop
  | .flushing wantTid _ => tid ≤ wantTid
  | .waiting wantTid _ waited next => tid ≤ wantTid ∧ (tid = waited ∨ ∃ after, next = some after ∧ after ≤ tid)
  | _ => False

structure FlushOrder (items : List (Session × InodeId)) (seq : InodeId → Nat) (top maxSessions : Nat) (phase : SyncPhase) :
    Prop where
  seqs : ∀ item ∈ items, seq item.2 ≤ top
  ordered : items.Pairwise fun first second => first.1 = second.1 → seq first.2 ≤ seq second.2
  sessions : ∀ item ∈ items, item.1 < maxSessions
  want : ∀ wantFlush, phase.wantFlush = some wantFlush → wantFlush ≤ top
  seen : phase.Seen items seq

structure SyncTracked (world : SyncWorld) : Prop where
  bookkept : Bookkept ⟨world.inodes, world.lists⟩
  order : FlushOrder world.lists.capFlushing (fun self => (world.inodes self).capFlushSeq) world.lists.capFlushSeq
    world.maxSessions world.phase
  tids : world.requests.Pairwise fun first second => first.tid < second.tid
  lastTid : ∀ req ∈ world.requests, req.tid ≤ world.lastTid
  owedCaps : ∀ self bit, (world.owedCaps self).getLsbD bit = true → (world.inodes self).flushingCaps.getLsbD bit = true
  owedSeq : ∀ self, world.owedCaps self ≠ 0 → ∃ wantFlush, world.phase.wantFlush = some wantFlush ∧
    (world.inodes self).capFlushSeq ≤ wantFlush
  owedTids : ∀ tid ∈ world.owedTids, ⟨tid, true⟩ ∈ world.requests ∧ world.phase.Awaits tid
  owedOnce : world.owedTids.Nodup

section

variable {items items' : List (Session × InodeId)} {seq seq' : InodeId → Nat} {top top' maxSessions : Nat} {phase : SyncPhase}
variable {self : InodeId} {session : Session} {wantTid : Nat} {requests : List MdsRequest}

theorem SyncPhase.Seen.of_subset (seen : phase.Seen items seq) (within : ∀ item ∈ items', item ∈ items ∧ seq' item.2 = seq item.2) :
    phase.Seen items' seq' := by
  cases phase with
  | checking wantFlush mds =>
    intro item member below
    obtain ⟨old, same⟩ := within item member
    rw [same]
    exact seen item old below
  | returned wantFlush =>
    intro item member
    obtain ⟨old, same⟩ := within item member
    rw [same]
    exact seen item old
  | _ => trivial

theorem FlushOrder.unlink (order : FlushOrder items seq top maxSessions phase) (self : InodeId) (later : top ≤ top')
    (seq' : InodeId → Nat) (same : ∀ other ≠ self, seq' other = seq other) :
    FlushOrder (items.filter fun item => item.2 ≠ self) seq' top' maxSessions phase := by
  have within : ∀ item ∈ items.filter fun item => item.2 ≠ self, item ∈ items ∧ seq' item.2 = seq item.2 := by
    intro item member
    obtain ⟨old, different⟩ := List.mem_filter.mp member
    exact ⟨old, same _ (of_decide_eq_true different)⟩
  refine ⟨?_, ?_, fun item member => order.sessions item (within item member).1,
    fun wantFlush want => (order.want wantFlush want).trans later, order.seen.of_subset within⟩
  · intro item member
    rw [(within item member).2]
    exact (order.seqs item (within item member).1).trans later
  · refine (order.ordered.filter _).imp_of_mem ?_
    intro first second member member' sorted equal
    rw [(within first member).2, (within second member').2]
    exact sorted equal

theorem FlushOrder.append (order : FlushOrder items seq top maxSessions phase) (present : session < maxSessions)
    (below : seq self ≤ top) (behind : ∀ item ∈ items, item.1 = session → seq item.2 ≤ seq self)
    (unseen : phase.Seen [(session, self)] seq) : FlushOrder (items ++ [(session, self)]) seq top maxSessions phase := by
  refine ⟨?_, ?_, ?_, order.want, ?_⟩
  · intro item member
    rcases List.mem_append.mp member with old | new
    · exact order.seqs item old
    · rw [List.mem_singleton.mp new]
      exact below
  · rw [pairwise_append]
    refine ⟨order.ordered, pairwise_singleton _ _, ?_⟩
    intro item member new single equal
    rw [List.mem_singleton.mp single] at equal ⊢
    exact behind item member equal
  · intro item member
    rcases List.mem_append.mp member with old | new
    · exact order.sessions item old
    · rw [List.mem_singleton.mp new]
      exact present
  · have seen := order.seen
    cases phase with
    | checking wantFlush mds =>
      intro item member
      rcases List.mem_append.mp member with old | new
      · exact seen item old
      · exact unseen item new
    | returned wantFlush =>
      intro item member
      rcases List.mem_append.mp member with old | new
      · exact seen item old
      · exact unseen item new
    | _ => trivial

variable {tid : Nat}

section

variable (sorted : requests.Pairwise fun first second => first.tid < second.tid)
variable (member : ⟨tid, true⟩ ∈ requests) (wanted : tid ≤ wantTid)
include sorted member wanted

theorem waitFrom_awaits : ∃ waited next, waitFrom wantTid requests = some (waited, next) ∧
      (tid = waited ∨ ∃ after, next = some after ∧ after ≤ tid) := by
  induction requests with
  | nil => cases member
  | cons first rest ih =>
    obtain ⟨later, sorted⟩ := List.pairwise_cons.mp sorted
    unfold waitFrom
    rcases List.mem_cons.mp member with rfl | within
    · rw [if_pos wanted, if_pos rfl]
      exact ⟨_, _, rfl, .inl rfl⟩
    · have early : first.tid ≤ wantTid := (later _ within).le.trans wanted
      rw [if_pos early]
      split
      · refine ⟨_, _, rfl, .inr ?_⟩
        cases rest with
        | nil => cases within
        | cons second others =>
          refine ⟨second.tid, rfl, ?_⟩
          rcases List.mem_cons.mp within with same | behind
          · rw [← same]
          · exact ((List.pairwise_cons.mp sorted).1 _ behind).le
      · exact ih sorted within

theorem waitAfter_awaits {waited : Nat} {next : Option Nat} (gone : waited ∉ requests.map MdsRequest.tid)
    (ahead : tid = waited ∨ ∃ after, next = some after ∧ after ≤ tid) :
    ∃ waited next', waitAfter wantTid requests next = some (waited, next') ∧
      (tid = waited ∨ ∃ after, next' = some after ∧ after ≤ tid) := by
  rcases ahead with rfl | ⟨after, rfl, reached⟩
  · exact absurd (mem_map_of_mem (f := MdsRequest.tid) member) gone
  · rw [waitAfter]
    split
    · refine waitFrom_awaits (sorted.sublist (dropWhile_sublist _)) ?_ wanted
      have parts := takeWhile_append_dropWhile (p := fun req : MdsRequest => decide (req.tid < after)) (l := requests)
      rw [← parts] at member
      rcases List.mem_append.mp member with passed | left
      · have smaller := mem_takeWhile_imp passed
        simp only [decide_eq_true_eq] at smaller
        omega
      · exact left
    · exact waitFrom_awaits sorted member wanted

end

end

section

variable {world after : SyncWorld} {self : InodeId} {session : Session} {ci : CephInode} {lists : CapLists}
variable {inodes : InodeId → CephInode} {flushing : CapMask}

theorem Bookkept.assign (bookkept : Bookkept ⟨update inodes self ci, lists⟩) :
    Bookkept ⟨update inodes self (assignFlushTid flushing ci), lists⟩ := by
  have here : ∀ {property : CephInode → Prop}, property ci → (∀ ci' : CephInode, ci' = { ci with
      capFlushLastTid := ci'.capFlushLastTid
      capFlushTid := ci'.capFlushTid } → property ci → property ci') → property (assignFlushTid flushing ci) := by
    intro property holds stays
    refine stays _ ?_ holds
    unfold assignFlushTid
    split <;> rfl
  refine ⟨bookkept.counted, fun other => ?_, fun other => ?_⟩
  · have listed := bookkept.listed other
    by_cases same : other = self
    · subst same
      simp only [update_self] at listed ⊢
      refine @here (Listed lists other) listed fun ci' equal holds => ?_
      rw [equal]
      exact ⟨holds.dirty, holds.flushing⟩
    · simpa only [update_of_ne same] using listed
  · have held := bookkept.held other
    by_cases same : other = self
    · subst same
      simp only [update_self] at held ⊢
      refine @here Held held fun ci' equal holds => ?_
      rw [equal]
      exact ⟨holds.refs, holds.head, holds.context, holds.counted, holds.pages, holds.dirtying⟩
    · simpa only [update_of_ne same] using held

theorem Bookkept.move (bookkept : Bookkept ⟨inodes, lists⟩) (flushing : (inodes self).flushingCaps ≠ 0) :
    Bookkept ⟨inodes, lists.moveFlushing self session⟩ := by
  have counted := bookkept.counted
  have here := flushing_iff_mem_map.mp ((bookkept.listed self).flushing.mpr flushing)
  refine ⟨⟨counted.dirty, ?_, ?_⟩, fun other => ⟨(bookkept.listed other).dirty, ?_⟩, bookkept.held⟩
  · rw [CapLists.moveFlushing, map_append, nodup_append]
    refine ⟨nodup_unlinkFlushing counted, by simp, ?_⟩
    intro other member self' same
    rw [map_singleton, mem_singleton] at same
    rw [same]
    exact (mem_map_unlinkFlushing.mp member).2
  · have length := length_unlinkFlushing counted here
    simp only [CapLists.moveFlushing, length_append, length_singleton, cast_add, length]
    omega
  · rw [← (bookkept.listed other).flushing]
    simp only [flushing_iff_mem_map, CapLists.moveFlushing, map_append, mem_append, mem_map_unlinkFlushing]
    by_cases same : other = self
    · subst same
      simp [here]
    · simp [same]

theorem SyncTracked.setInode (tracked : SyncTracked world) (bookkept : Bookkept ⟨update world.inodes self ci, lists⟩)
    (order : FlushOrder lists.capFlushing (fun other => (update world.inodes self ci other).capFlushSeq)
      lists.capFlushSeq world.maxSessions world.phase)
    (inFlight : ∀ bit, (world.owedCaps self).getLsbD bit = true → ci.flushingCaps.getLsbD bit = true)
    (same : world.owedCaps self ≠ 0 → ci.capFlushSeq = (world.inodes self).capFlushSeq) :
    SyncTracked (world.setInode self ci lists) := by
  refine ⟨bookkept, order, tracked.tids, tracked.lastTid, ?_, ?_, tracked.owedTids, tracked.owedOnce⟩
  · intro other bit owed
    by_cases equal : other = self
    · subst equal
      simpa only [SyncWorld.setInode, update_self] using inFlight bit owed
    · simpa only [SyncWorld.setInode, update_of_ne equal] using tracked.owedCaps other bit owed
  · intro other owed
    obtain ⟨wantFlush, want, reached⟩ := tracked.owedSeq other owed
    refine ⟨wantFlush, want, ?_⟩
    by_cases equal : other = self
    · subst equal
      simpa only [SyncWorld.setInode, update_self, same owed] using reached
    · simpa only [SyncWorld.setInode, update_of_ne equal] using reached

variable {items : List (Session × InodeId)} {top maxSessions wantFlush : Nat} {phase : SyncPhase}
variable {seq : InodeId → Nat}

theorem FlushOrder.update (order : FlushOrder items (fun other => (inodes other).capFlushSeq) top maxSessions phase)
    (same : ci.capFlushSeq = (inodes self).capFlushSeq) :
    FlushOrder items (fun other => (Function.update inodes self ci other).capFlushSeq) top maxSessions phase := by
  have seqs : (fun other => (Function.update inodes self ci other).capFlushSeq) = fun other => (inodes other).capFlushSeq := by
    funext other
    by_cases equal : other = self
    · subst equal
      rw [Function.update_self, same]
    · rw [Function.update_of_ne equal]
  rwa [seqs]

theorem assignFlushTid_capFlushSeq : (assignFlushTid flushing ci).capFlushSeq = ci.capFlushSeq := by
  unfold assignFlushTid
  split <;> rfl

theorem assignFlushTid_flushingCaps : (assignFlushTid flushing ci).flushingCaps = ci.flushingCaps := by
  unfold assignFlushTid
  split <;> rfl

theorem SyncTracked.markDirty (tracked : SyncTracked world) {mask : CapMask} (nonzero : mask ≠ 0)
    (ran : cephMarkDirtyCaps self mask (world.inodes self) world.lists = .ok (ci, lists)) :
    SyncTracked (world.setInode self ci lists) := by
  have bookkept := bookkept_keeps.preserves (self, .markDirty mask) ⟨world.inodes, world.lists⟩
    ⟨update world.inodes self ci, lists⟩ nonzero tracked.bookkept (by rw [CapWorld.run, DirtyCall.apply, ran]; rfl)
  obtain ⟨_, _, _, rfl, rfl, -⟩ := cephMarkDirtyCaps_changes ran
  exact tracked.setInode bookkept (tracked.order.update rfl) (tracked.owedCaps self) fun _ => rfl

theorem SyncTracked.flush (tracked : SyncTracked world) (dirty : (world.inodes self).dirtyCaps ≠ 0)
    (present : session < world.maxSessions) (free : world.owedCaps self = 0)
    (ran : markCapsFlushing self session (world.inodes self) world.lists = .ok (flushing, ci, lists)) :
    SyncTracked (world.setInode self (assignFlushTid flushing ci) lists) := by
  have bookkept := bookkept_keeps.preserves (self, .markFlushing session) ⟨world.inodes, world.lists⟩
    ⟨update world.inodes self ci, lists⟩ dirty tracked.bookkept (by rw [CapWorld.run, DirtyCall.apply, ran]; rfl)
  obtain ⟨-, marked, changed⟩ := markCapsFlushing_changes ran
  have seq : (assignFlushTid flushing ci).capFlushSeq = world.lists.capFlushSeq + 1 := by
    rw [assignFlushTid_capFlushSeq, marked]
  refine tracked.setInode bookkept.assign ?_ ?_ fun owed => absurd free owed
  · have unlinked := tracked.order.unlink self (le_succ world.lists.capFlushSeq)
      (fun other => (update world.inodes self (assignFlushTid flushing ci) other).capFlushSeq)
      fun other differs => by rw [update_of_ne differs]
    rw [changed]
    refine unlinked.append present ?_ ?_ ?_
    · simp only [update_self, seq]
      exact le_rfl
    · intro item member _
      simp only [update_self, seq]
      exact unlinked.seqs item member
    · have want := tracked.order.want
      cases phase : world.phase with
      | checking wantFlush mds =>
        rw [phase] at want
        intro item member _
        rw [List.mem_singleton.mp member]
        simp only [update_self, seq]
        exact lt_succ_of_le (want wantFlush rfl)
      | returned wantFlush =>
        rw [phase] at want
        intro item member
        rw [List.mem_singleton.mp member]
        simp only [update_self, seq]
        exact lt_succ_of_le (want wantFlush rfl)
      | _ => trivial
  · intro bit owed
    rw [free] at owed
    simp at owed

theorem SyncTracked.flushAck (tracked : SyncTracked world) {flushTid : Nat} {dirty : CapMask}
    (ran : handleCapFlushAck self flushTid dirty (world.inodes self) world.lists = .ok (ci, lists)) :
    SyncTracked { world.setInode self ci lists with
      owedCaps := update world.owedCaps self
        (world.owedCaps self &&& ~~~cleanedBits (world.inodes self) flushTid dirty) } := by
  have bookkept := bookkept_keeps.preserves (self, .flushAck flushTid dirty) ⟨world.inodes, world.lists⟩
    ⟨update world.inodes self ci, lists⟩ trivial tracked.bookkept (by rw [CapWorld.run, DirtyCall.apply, ran]; rfl)
  obtain ⟨_, _, acked, -, listed⟩ := handleCapFlushAck_changes ran
  have seq : ci.capFlushSeq = (world.inodes self).capFlushSeq := by rw [acked]
  have flushing : ci.flushingCaps = (world.inodes self).flushingCaps &&& ~~~cleanedBits (world.inodes self) flushTid dirty := by
    rw [acked]
  have order : FlushOrder lists.capFlushing (fun other => (update world.inodes self ci other).capFlushSeq)
      lists.capFlushSeq world.maxSessions world.phase := by
    rcases listed with rfl | rfl
    · exact tracked.order.update seq
    · exact (tracked.order.unlink _ le_rfl _ fun _ _ => rfl).update seq
  refine ⟨bookkept, order, tracked.tids, tracked.lastTid, ?_, ?_, tracked.owedTids, tracked.owedOnce⟩
  · intro other bit owed
    by_cases equal : other = self
    · subst equal
      simp only [update_self, SyncWorld.setInode, flushing, BitVec.getLsbD_and, Bool.and_eq_true] at owed ⊢
      exact ⟨tracked.owedCaps other bit owed.1, owed.2⟩
    · simp only [update_of_ne equal, SyncWorld.setInode] at owed ⊢
      exact tracked.owedCaps other bit owed
  · intro other owed
    by_cases equal : other = self
    · subst equal
      simp only [update_self, SyncWorld.setInode, seq] at owed ⊢
      refine tracked.owedSeq other fun none => owed ?_
      rw [none]
      exact BitVec.zero_and
    · simp only [update_of_ne equal, SyncWorld.setInode] at owed ⊢
      exact tracked.owedSeq other owed

theorem SyncTracked.moved (tracked : SyncTracked world) (present : session < world.maxSessions)
    (orderly : world.Orderly self session) (flushing : (world.inodes self).flushingCaps ≠ 0) :
    FlushOrder (world.lists.moveFlushing self session).capFlushing (fun other => (world.inodes other).capFlushSeq)
      world.lists.capFlushSeq world.maxSessions world.phase := by
  obtain ⟨listed, member⟩ := (tracked.bookkept.listed self).flushing.mpr flushing
  obtain ⟨behind, unseen⟩ := orderly flushing
  have unlinked := tracked.order.unlink self le_rfl _ fun _ _ => rfl
  refine unlinked.append present (tracked.order.seqs _ member) ?_ ?_
  · exact fun item within => behind item (List.mem_filter.mp within).1
  · have seen := tracked.order.seen
    cases phase : world.phase with
    | checking wantFlush mds =>
      intro item new below
      rw [List.mem_singleton.mp new] at below ⊢
      exact unseen wantFlush mds phase below
    | returned wantFlush =>
      rw [phase] at seen
      intro item new
      rw [List.mem_singleton.mp new]
      have here := seen (listed, self) member
      exact here
    | _ => trivial

theorem SyncTracked.capExport (tracked : SyncTracked world) (present : session < world.maxSessions)
    (orderly : world.Orderly self session) : SyncTracked (world.capExport self session) := by
  unfold SyncWorld.capExport
  split
  · exact tracked
  next flushing =>
    exact ⟨tracked.bookkept.move flushing, tracked.moved present orderly flushing, tracked.tids, tracked.lastTid, tracked.owedCaps,
      tracked.owedSeq, tracked.owedTids, tracked.owedOnce⟩

theorem SyncTracked.kickFlushingInodeCaps (tracked : SyncTracked world) (present : session < world.maxSessions)
    (orderly : world.Orderly self session) : SyncTracked (world.kickFlushingInodeCaps self session) := by
  unfold SyncWorld.kickFlushingInodeCaps
  split
  · exact tracked
  next flushing =>
    have moved : Bookkept ⟨update world.inodes self (world.inodes self), world.lists.moveFlushing self session⟩ := by
      rw [update_eq_self]
      exact tracked.bookkept.move flushing
    refine tracked.setInode moved.assign ((tracked.moved present orderly flushing).update assignFlushTid_capFlushSeq) ?_
      fun _ => assignFlushTid_capFlushSeq
    rw [assignFlushTid_flushingCaps]
    exact tracked.owedCaps self

theorem SyncTracked.setPhase (tracked : SyncTracked world)
    (order : FlushOrder world.lists.capFlushing (fun self => (world.inodes self).capFlushSeq) world.lists.capFlushSeq
      world.maxSessions phase)
    (want : ∀ wantFlush, world.phase.wantFlush = some wantFlush → phase.wantFlush = some wantFlush)
    (awaits : ∀ tid ∈ world.owedTids, phase.Awaits tid) : SyncTracked { world with phase := phase } := by
  refine ⟨tracked.bookkept, order, tracked.tids, tracked.lastTid, tracked.owedCaps, ?_, ?_, tracked.owedOnce⟩
  · intro self owed
    obtain ⟨wantFlush, wanted, reached⟩ := tracked.owedSeq self owed
    exact ⟨wantFlush, want wantFlush wanted, reached⟩
  · exact fun tid owed => ⟨(tracked.owedTids tid owed).1, awaits tid owed⟩

theorem SyncTracked.unregisterRequest (tracked : SyncTracked world) {tid : Nat} {owedTids : List Nat}
    (owed : owedTids.Sublist world.owedTids) (free : tid ∉ owedTids) :
    SyncTracked { world.unregisterRequest tid with owedTids := owedTids } := by
  refine ⟨tracked.bookkept, tracked.order, tracked.tids.filter _, fun req member => tracked.lastTid req (List.mem_filter.mp member).1,
    tracked.owedCaps, tracked.owedSeq, fun other member => ?_, tracked.owedOnce.sublist owed⟩
  obtain ⟨registered, awaits⟩ := tracked.owedTids other (owed.subset member)
  refine ⟨List.mem_filter.mpr ⟨registered, ?_⟩, awaits⟩
  have differs : other ≠ tid := fun same => free (same ▸ member)
  simpa using differs

theorem FlushOrder.setPhase {phase' : SyncPhase} (order : FlushOrder items seq top maxSessions phase)
    (want : ∀ wantFlush, phase'.wantFlush = some wantFlush → wantFlush ≤ top) (seen : phase'.Seen items seq) :
    FlushOrder items seq top maxSessions phase' :=
  ⟨order.seqs, order.ordered, order.sessions, want, seen⟩

theorem SyncTracked.ofWait (tracked : SyncTracked world) {wantTid : Nat} {waits : Option (Nat × Option Nat)}
    (want : world.phase.wantFlush = some wantFlush)
    (awaits : ∀ tid ∈ world.owedTids, tid ≤ wantTid ∧ ∃ waited next, waits = some (waited, next) ∧
      (tid = waited ∨ ∃ after, next = some after ∧ after ≤ tid)) :
    SyncTracked { world with phase := .ofWait wantTid wantFlush waits } := by
  have same : (SyncPhase.ofWait wantTid wantFlush waits).wantFlush = some wantFlush := by
    cases waits <;> rfl
  refine tracked.setPhase (tracked.order.setPhase ?_ ?_) ?_ ?_
  · intro other wanted
    rw [same] at wanted
    cases wanted
    exact tracked.order.want wantFlush want
  · cases waits with
    | none => exact fun item _ below => absurd below (not_lt_zero _)
    | some waited => trivial
  · intro other wanted
    rw [want] at wanted
    cases wanted
    exact same
  · intro tid owed
    obtain ⟨wanted, waited, next, rfl, ahead⟩ := awaits tid owed
    exact ⟨wanted, ahead⟩

theorem FlushOrder.firstFlushing {mds : Session} (order : FlushOrder lists.capFlushing seq top maxSessions phase)
    (later : ∀ first, lists.firstFlushing mds = some first → wantFlush < seq first) :
    ∀ item ∈ lists.capFlushing, item.1 = mds → wantFlush < seq item.2 := by
  have ordered := order.ordered
  unfold CapLists.firstFlushing at later
  generalize lists.capFlushing = items at ordered later
  intro item member here
  induction items with
  | nil => cases member
  | cons first rest ih =>
    obtain ⟨behind, ordered⟩ := List.pairwise_cons.mp ordered
    by_cases same : first.1 = mds
    · have least := later first.2 (by simp [same])
      rcases List.mem_cons.mp member with rfl | within
      · exact least
      · exact least.trans_le (behind item within (same.trans here.symm))
    · rcases List.mem_cons.mp member with rfl | within
      · exact absurd here same
      · exact ih ordered (fun other found => later other (by simpa [same] using found)) within

theorem SyncTracked.check (tracked : SyncTracked world) {mds : Nat} (checking : world.phase = .checking wantFlush mds) :
    SyncTracked { world with phase := world.checkCapFlush wantFlush mds } := by
  have want := tracked.order.want wantFlush (by rw [checking]; rfl)
  have seen := tracked.order.seen
  rw [checking] at seen
  have none : ∀ tid ∈ world.owedTids, False := by
    intro tid owed
    have awaits := (tracked.owedTids tid owed).2
    rw [checking] at awaits
    exact awaits
  have goes : ∀ phase : SyncPhase, phase.wantFlush = some wantFlush →
      phase.Seen world.lists.capFlushing (fun self => (world.inodes self).capFlushSeq) →
      SyncTracked { world with phase := phase } := by
    intro phase same seen
    refine tracked.setPhase (tracked.order.setPhase ?_ seen) ?_ fun tid owed => (none tid owed).elim
    · intro other wanted
      rw [same] at wanted
      cases wanted
      exact want
    · intro other wanted
      rw [checking] at wanted
      cases wanted
      exact same
  have next : (∀ first, world.lists.firstFlushing mds = some first → wantFlush < (world.inodes first).capFlushSeq) →
      SyncPhase.Seen world.lists.capFlushing (fun self => (world.inodes self).capFlushSeq) (.checking wantFlush (mds + 1)) := by
    intro later item member below
    rcases Nat.lt_succ_iff_lt_or_eq.mp below with passed | here
    · exact seen item member passed
    · exact tracked.order.firstFlushing later item member here
  unfold SyncWorld.checkCapFlush
  split
  next more =>
    split
    next empty => exact goes _ rfl (next fun first found => by rw [empty] at found; cases found)
    next first found =>
      split
      next still => exact goes _ rfl fun item _ below => absurd below (not_lt_zero _)
      next later =>
        refine goes _ rfl (next fun other same => ?_)
        rw [found] at same
        cases same
        exact Nat.lt_of_not_le later
  next all =>
    refine goes _ rfl fun item member => ?_
    exact seen item member ((tracked.order.sessions item member).trans_le (Nat.le_of_not_lt all))

/-- When nothing is dirty, what is owed is in flight with a sequence number that is waited for; after a
forced unmount nothing is owed. -/
theorem SyncTracked.sync (tracked : SyncTracked world) (clean : world.lists.capDirty = [])
    (idle : world.shutdown → world.lists.capFlushing = [] ∧ ∀ req ∈ world.requests, req.write = false) :
    SyncTracked { world with
      phase := if world.shutdown then .skipped else .flushing world.lastTid world.lists.capFlushSeq
      owedCaps := fun self => cephCapsDirty (world.inodes self)
      owedTids := (world.requests.filter MdsRequest.write).map MdsRequest.tid } := by
  have noDirty : ∀ self, (world.inodes self).dirtyCaps = 0 := by
    intro self
    have listed := (tracked.bookkept.listed self).dirty
    by_contra dirty
    have member : self ∈ world.lists.capDirty := listed.mpr dirty
    rw [clean] at member
    cases member
  have inFlight : ∀ self, cephCapsDirty (world.inodes self) = (world.inodes self).flushingCaps := by
    intro self
    rw [cephCapsDirty, noDirty self]
    exact BitVec.zero_or
  have listed : ∀ self, cephCapsDirty (world.inodes self) ≠ 0 → ∃ session, (session, self) ∈ world.lists.capFlushing := by
    intro self owed
    rw [inFlight] at owed
    exact (tracked.bookkept.listed self).flushing.mpr owed
  have owedOnce : ((world.requests.filter MdsRequest.write).map MdsRequest.tid).Nodup :=
    List.pairwise_map.mpr ((tracked.tids.filter _).imp fun less => less.ne)
  cases shutdown : world.shutdown with
  | true =>
    obtain ⟨unflushed, reads⟩ := idle shutdown
    have nothing : world.requests.filter MdsRequest.write = [] := by
      refine List.filter_eq_nil_iff.mpr fun req member => ?_
      rw [reads req member]
      decide
    refine ⟨tracked.bookkept, tracked.order.setPhase ?_ trivial, tracked.tids, tracked.lastTid, ?_, ?_, ?_, owedOnce⟩
    · intro wantFlush flushed
      cases flushed
    · exact fun self bit owed => inFlight self ▸ owed
    · intro self owed
      obtain ⟨session, member⟩ := listed self owed
      rw [unflushed] at member
      cases member
    · rw [nothing]
      intro tid owed
      cases owed
  | false =>
    refine ⟨tracked.bookkept, tracked.order.setPhase ?_ trivial, tracked.tids, tracked.lastTid, ?_, ?_, ?_, owedOnce⟩
    · rintro wantFlush ⟨⟩
      exact le_rfl
    · exact fun self bit owed => inFlight self ▸ owed
    · intro self owed
      obtain ⟨session, member⟩ := listed self owed
      exact ⟨_, rfl, tracked.order.seqs _ member⟩
    · intro tid owed
      obtain ⟨req, member, rfl⟩ := List.mem_map.mp owed
      obtain ⟨registered, write⟩ := List.mem_filter.mp member
      refine ⟨?_, tracked.lastTid req registered⟩
      rw [← write]
      exact registered

theorem SyncCall.tracked {call : SyncCall} (proper : call.Proper world) (sound : call.Sound world) (tracked : SyncTracked world)
    (ran : call.run world = .ok after) : SyncTracked after := by
  cases call with
  | markDirty self mask =>
    obtain ⟨⟨ci, lists⟩, marked, done⟩ := ok_of_bind ran
    cases done
    exact tracked.markDirty proper marked
  | flush self session =>
    obtain ⟨⟨flushing, ci, lists⟩, marked, done⟩ := ok_of_bind ran
    cases done
    exact tracked.flush proper.1 proper.2 sound marked
  | flushAck self flushTid dirty =>
    obtain ⟨⟨ci, lists⟩, acked, done⟩ := ok_of_bind ran
    cases done
    exact tracked.flushAck acked
  | capExport self session =>
    cases ran
    exact tracked.capExport proper sound
  | kickFlushing self session =>
    cases ran
    exact tracked.kickFlushingInodeCaps proper sound
  | openSession mds =>
    cases ran
    exact ⟨tracked.bookkept, ⟨tracked.order.seqs, tracked.order.ordered,
      fun item member => (tracked.order.sessions item member).trans_le (le_max_left _ _), tracked.order.want, tracked.order.seen⟩,
      tracked.tids, tracked.lastTid, tracked.owedCaps, tracked.owedSeq, tracked.owedTids, tracked.owedOnce⟩
  | register write =>
    cases ran
    refine ⟨tracked.bookkept, tracked.order, ?_, ?_, tracked.owedCaps, tracked.owedSeq, ?_, tracked.owedOnce⟩
    · rw [pairwise_append]
      refine ⟨tracked.tids, pairwise_singleton _ _, fun req member new single => ?_⟩
      rw [List.mem_singleton.mp single]
      exact lt_succ_of_le (tracked.lastTid req member)
    · intro req member
      rcases List.mem_append.mp member with old | new
      · exact (tracked.lastTid req old).trans (le_succ _)
      · rw [List.mem_singleton.mp new]
    · intro tid owed
      obtain ⟨registered, awaits⟩ := tracked.owedTids tid owed
      exact ⟨mem_append_left _ registered, awaits⟩
  | safeReply tid =>
    cases ran
    exact tracked.unregisterRequest erase_sublist tracked.owedOnce.not_mem_erase
  | unregister tid =>
    cases ran
    exact tracked.unregisterRequest (List.Sublist.refl _) sound
  | umountBegin =>
    cases ran
    exact ⟨tracked.bookkept, tracked.order, tracked.tids, tracked.lastTid, tracked.owedCaps, tracked.owedSeq,
      tracked.owedTids, tracked.owedOnce⟩
  | sync =>
    cases ran
    exact tracked.sync sound.1 sound.2
  | flushed =>
    simp only [SyncCall.run] at ran
    split at ran
    next wantTid wantFlush phase =>
      cases ran
      refine tracked.ofWait (by rw [phase]; rfl) fun tid owed => ?_
      obtain ⟨registered, awaits⟩ := tracked.owedTids tid owed
      rw [phase] at awaits
      exact ⟨awaits, waitFrom_awaits tracked.tids registered awaits⟩
    next =>
      cases ran
      exact tracked
  | wake =>
    simp only [SyncCall.run] at ran
    split at ran
    next wantTid wantFlush waited next' phase =>
      cases ran
      refine tracked.ofWait (by rw [phase]; rfl) fun tid owed => ?_
      obtain ⟨registered, awaits⟩ := tracked.owedTids tid owed
      rw [phase] at awaits
      exact ⟨awaits.1, waitAfter_awaits tracked.tids registered awaits.1 (proper _ _ _ _ phase) awaits.2⟩
    next =>
      cases ran
      exact tracked
  | check =>
    simp only [SyncCall.run] at ran
    split at ran
    next wantFlush mds phase =>
      cases ran
      exact tracked.check phase
    next =>
      cases ran
      exact tracked

theorem init_syncTracked (contexts : InodeId → SnapContext) : SyncTracked (.init contexts) where
  bookkept := init_bookkept contexts
  order := ⟨nofun, List.Pairwise.nil, nofun, nofun, trivial⟩
  tids := List.Pairwise.nil
  lastTid := nofun
  owedCaps := by simp [SyncWorld.init]
  owedSeq _ owed := absurd rfl owed
  owedTids := nofun
  owedOnce := nodup_nil

theorem SyncTracked.synced (tracked : SyncTracked world) : Synced world := by
  have checked : ∀ wantFlush, world.phase = .returned wantFlush →
      ∀ self, (world.inodes self).flushingCaps ≠ 0 → wantFlush < (world.inodes self).capFlushSeq := by
    intro wantFlush returned self flushing
    obtain ⟨listed, member⟩ := (tracked.bookkept.listed self).flushing.mpr flushing
    have seen := tracked.order.seen
    rw [returned] at seen
    exact seen _ member
  refine ⟨checked, ?_, ?_⟩
  · intro ended self
    by_contra owed
    obtain ⟨wantFlush, want, reached⟩ := tracked.owedSeq self owed
    have returned : world.phase = .returned wantFlush := by
      cases phase : world.phase with
      | returned other =>
        rw [phase] at want
        cases want
        rfl
      | skipped =>
        rw [phase] at want
        cases want
      | _ =>
        rw [phase] at ended
        exact ended.elim
    have flushing : (world.inodes self).flushingCaps ≠ 0 := by
      intro none
      apply owed
      apply BitVec.eq_of_getLsbD_eq
      intro bit _
      have inFlight := tracked.owedCaps self bit
      rw [none] at inFlight
      cases set : (world.owedCaps self).getLsbD bit with
      | false => simp
      | true => simpa using inFlight set
    exact (checked wantFlush returned self flushing).not_ge reached
  · intro ended
    refine List.eq_nil_iff_forall_not_mem.mpr fun tid owed => ?_
    have awaits := (tracked.owedTids tid owed).2
    cases phase : world.phase with
    | returned _ | skipped =>
      rw [phase] at awaits
      exact awaits
    | _ =>
      rw [phase] at ended
      exact ended

/-- A sync waits for everything before it as long as nothing is dirty when it is called, what it waits for
is not flushed again, flushing inodes move in order, and writes end with their safe reply. -/
theorem cephMdscSync_waits {contexts : InodeId → SnapContext} (reached : Reached SyncCall.run
    (fun call world => call.Proper world ∧ call.Sound world) (.init contexts) world) : Synced world := by
  have preserves : Preserves SyncCall.run (fun call world => call.Proper world ∧ call.Sound world) SyncTracked :=
    fun call before after meets tracked ran => SyncCall.tracked meets.1 meets.2 tracked ran
  exact (reached.preserved preserves (init_syncTracked contexts)).synced

end

/-- An inode that is flushing when the sync is called is acked while it waits. -/
theorem cephMdscSync_waits_acked : ∃ world : SyncWorld, world.phase = .returned 1 ∧ Synced world := by
  have opened : Reached SyncCall.run (fun call world => call.Proper world ∧ call.Sound world)
      (.init fun _ => { addr := 4096, seq := 1 }) _ := Reached.start.next (.openSession 0) ⟨trivial, trivial⟩ rfl
  have dirtied := opened.next (.markDirty 0 cephCapFileWr) ⟨(by decide : cephCapFileWr ≠ 0), trivial⟩ rfl
  have flushed := dirtied.next (.flush 0 0) ⟨⟨by decide, by decide⟩, rfl⟩ rfl
  have called := flushed.next .sync ⟨.inl rfl, rfl, nofun⟩ rfl
  have waiting := called.next .flushed ⟨rfl, trivial⟩ rfl
  have acked := waiting.next (.flushAck 0 1 cephCapFileWr) ⟨trivial, trivial⟩ rfl
  have checked := acked.next .check ⟨trivial, trivial⟩ rfl
  have returned := checked.next .check ⟨trivial, trivial⟩ rfl
  exact ⟨_, rfl, cephMdscSync_waits returned⟩

/-- What is dirty when the sync is called is flushed by it, and not waited for. -/
theorem cephMdscSync_misses : ∃ world : SyncWorld,
    Reached SyncCall.run SyncCall.Proper (.init fun _ => { addr := 4096, seq := 1 }) world ∧ world.phase = .returned 0 ∧
    world.owedCaps 0 = cephCapFileWr ∧ ¬ Synced world := by
  have opened : Reached SyncCall.run SyncCall.Proper (.init fun _ => { addr := 4096, seq := 1 }) _ :=
    Reached.start.next (.openSession 0) trivial rfl
  have dirtied := opened.next (.markDirty 0 cephCapFileWr) (by decide : cephCapFileWr ≠ 0) rfl
  have called := dirtied.next .sync (.inl rfl) rfl
  have flushed := called.next (.flush 0 0) ⟨by decide, by decide⟩ rfl
  have waiting := flushed.next .flushed rfl rfl
  have checked := waiting.next .check trivial rfl
  have returned := checked.next .check trivial rfl
  refine ⟨_, returned, rfl, rfl, fun synced => ?_⟩
  have acked := synced.acked trivial 0
  revert acked
  decide

end KmodCeph.Caps
