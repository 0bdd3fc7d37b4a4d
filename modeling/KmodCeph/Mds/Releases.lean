import KmodCeph.Lib.Reached
import Mathlib.Tactic.Ring

namespace KmodCeph.Mds

open Lib List

def pageCacheSize : Nat := 4096

def releaseHeadSize : Nat := 4

def releaseItemSize : Nat := 24

def capsPerRelease : Nat := (pageCacheSize - releaseHeadSize) / releaseItemSize

/-- `struct ceph_mds_cap_item`; `serial` tells the releases of a session apart. -/
structure CapItem where
  ino : BitVec 64
  capId : BitVec 64
  migrateSeq : BitVec 32
  seq : BitVec 32
  serial : Nat
deriving DecidableEq

/-- A cap release message: `num` of its head, the length of its front, and the items in it. -/
structure ReleaseMsg where
  id : Nat
  num : Nat
  iovLen : Nat
  items : List CapItem
deriving DecidableEq

namespace ReleaseMsg

def new (id : Nat) : ReleaseMsg where
  id := id
  num := 0
  iovLen := releaseHeadSize
  items := []

def store (msg : ReleaseMsg) (item : CapItem) : ReleaseMsg :=
  { msg with
    num := msg.num + 1
    iovLen := msg.iovLen + releaseItemSize
    items := msg.items.take ((msg.iovLen - releaseHeadSize) / releaseItemSize) ++ [item] }

def reset (msg : ReleaseMsg) : ReleaseMsg :=
  { msg with
    num := 0
    iovLen := releaseHeadSize
    items := [] }

end ReleaseMsg

/-- `s_cap_releases`, `s_cap_releases_done` and `s_num_cap_releases` of a session. `queued` are all the releases
that were queued, `sent` the messages that were sent and `discarded` the releases that were discarded. -/
structure ReleaseQueue where
  capReleases : List ReleaseMsg
  done : List ReleaseMsg
  numCapReleases : Int
  nextMsg : Nat
  queued : List CapItem
  sent : List ReleaseMsg
  discarded : List CapItem

inductive ReleaseBug where
  | noReleases
  | emptyList
  | pageBound
deriving DecidableEq

namespace ReleaseQueue

def init : ReleaseQueue where
  capReleases := []
  done := []
  numCapReleases := 0
  nextMsg := 0
  queued := []
  sent := []
  discarded := []

def queueCapRelease (ino capId : BitVec 64) (migrateSeq issueSeq : BitVec 32) (queue : ReleaseQueue) :
    Except ReleaseBug ReleaseQueue := do
  haltIf (queue.numCapReleases = 0) .noReleases
  match queue.capReleases with
  | [] => throw .emptyList
  | msg :: rest =>
    haltIf (pageCacheSize < msg.iovLen + releaseItemSize) .pageBound
    let item := { ino, capId, migrateSeq, seq := issueSeq, serial := queue.queued.length }
    let stored := msg.store item
    let queue := { queue with
      numCapReleases := queue.numCapReleases - 1
      queued := queue.queued ++ [item] }
    if stored.num = capsPerRelease then
      return { queue with
        capReleases := rest
        done := queue.done ++ [stored] }
    else return { queue with capReleases := stored :: rest }

def started (queue : ReleaseQueue) : Option ReleaseMsg :=
  match queue.capReleases with
  | [] => none
  | msg :: _ => if msg.num ≠ 0 then some msg else none

def addMsg (queue : ReleaseQueue) : ReleaseQueue :=
  { queue with
    capReleases := .new queue.nextMsg :: queue.capReleases
    numCapReleases := queue.numCapReleases + capsPerRelease
    nextMsg := queue.nextMsg + 1 }

def addMsgs (alloc : Nat → Bool) (wanted : Int) : Nat → ReleaseQueue → Bool × ReleaseQueue
  | 0, queue => (true, queue)
  | fuel + 1, queue =>
    if queue.numCapReleases < wanted then
      if alloc queue.nextMsg then addMsgs alloc wanted fuel queue.addMsg else (false, queue)
    else (true, queue)

/-- `list_move_tail` of a message that is started to the messages that are done. -/
def retire (msg : ReleaseMsg) (queue : ReleaseQueue) : ReleaseQueue :=
  { queue with
    capReleases := queue.capReleases.filter fun other => other.id ≠ msg.id
    done := queue.done ++ [msg]
    numCapReleases := queue.numCapReleases - (capsPerRelease - msg.num) }

/-- How many items are to fit: one for each cap, `extra` ones, and those that go with a message that is started. -/
def wanted (nrCaps : Nat) (safety : Int) (queue : ReleaseQueue) : Int :=
  match queue.started with
  | none => nrCaps + safety
  | some msg => nrCaps + (safety + (capsPerRelease - msg.num))

def addCapReleases (alloc : Nat → Bool) (nrCaps : Nat) (safety : Int) (queue : ReleaseQueue) : ReleaseQueue :=
  let wanted := queue.wanted nrCaps safety
  match queue.addMsgs alloc wanted (wanted - queue.numCapReleases).toNat with
  | (false, added) => added
  | (true, added) =>
    match queue.started with
    | none => added
    | some msg => added.retire msg

def sendCapReleases (queue : ReleaseQueue) : ReleaseQueue :=
  { queue with
    done := []
    sent := queue.sent ++ queue.done }

def discardFirst (queue : ReleaseQueue) : ReleaseQueue :=
  match queue.capReleases with
  | [] => queue
  | msg :: rest =>
    { queue with
      capReleases := msg.reset :: rest
      numCapReleases := queue.numCapReleases + msg.num
      discarded := queue.discarded ++ msg.items }

def requeue (msg : ReleaseMsg) (queue : ReleaseQueue) : ReleaseQueue :=
  { queue with
    capReleases := msg.reset :: queue.capReleases
    numCapReleases := queue.numCapReleases + msg.num
    discarded := queue.discarded ++ msg.items }

def requeueDone : List ReleaseMsg → ReleaseQueue → ReleaseQueue
  | [], queue => { queue with done := [] }
  | msg :: rest, queue => requeueDone rest (queue.requeue msg)

def discardCapReleases (queue : ReleaseQueue) : ReleaseQueue :=
  queue.discardFirst.requeueDone queue.done

end ReleaseQueue

/-- Cap releases of a session on their way to the mds. -/
inductive ReleaseCall where
  | queue (ino capId : BitVec 64) (migrateSeq issueSeq : BitVec 32)
  | add (alloc : Nat → Bool) (nrCaps : Nat) (safety : Int)
  | send
  | discard

def ReleaseCall.run : ReleaseCall → ReleaseQueue → Except ReleaseBug ReleaseQueue
  | .queue ino capId migrateSeq issueSeq, state => state.queueCapRelease ino capId migrateSeq issueSeq
  | .add alloc nrCaps safety, state => return state.addCapReleases alloc nrCaps safety
  | .send, state => return state.sendCapReleases
  | .discard, state => return state.discardCapReleases

def ReleaseCall.Proper : ReleaseCall → ReleaseQueue → Prop
  | .queue _ _ _ _, state => 0 < state.numCapReleases
  | _, _ => True

def ReleaseCall.Sound (call : ReleaseCall) (state : ReleaseQueue) : Prop :=
  call.Proper state ∧ (call = .discard → ∀ msg ∈ state.done, msg.num = capsPerRelease)

namespace ReleaseMsg

def spare (msg : ReleaseMsg) : Int :=
  capsPerRelease - msg.num

structure Agrees (msg : ReleaseMsg) : Prop where
  num : msg.num = msg.items.length
  iovLen : msg.iovLen = releaseHeadSize + releaseItemSize * msg.num
  bounded : msg.num ≤ capsPerRelease

end ReleaseMsg

namespace ReleaseQueue

def unused (queue : ReleaseQueue) : Int :=
  (queue.capReleases.map ReleaseMsg.spare).sum

def filed (queue : ReleaseQueue) : List CapItem :=
  (queue.capReleases ++ queue.done ++ queue.sent).flatMap ReleaseMsg.items

structure Filed (queue : ReleaseQueue) : Prop where
  room : ∀ msg ∈ queue.capReleases, msg.num < capsPerRelease
  agrees : ∀ msg ∈ queue.capReleases ++ queue.done ++ queue.sent, msg.Agrees
  once : queue.queued.Perm (queue.filed ++ queue.discarded)
  serials : queue.queued.map CapItem.serial = List.range queue.queued.length
  ids : ((queue.capReleases ++ queue.done).map ReleaseMsg.id).Nodup
  known : ∀ msg ∈ queue.capReleases ++ queue.done, msg.id < queue.nextMsg

end ReleaseQueue

namespace ReleaseMsg

theorem new_agrees (id : Nat) : (new id).Agrees where
  num := rfl
  iovLen := rfl
  bounded := Nat.zero_le _

theorem reset_agrees (msg : ReleaseMsg) : msg.reset.Agrees where
  num := rfl
  iovLen := rfl
  bounded := Nat.zero_le _

theorem store_items {msg : ReleaseMsg} (agrees : msg.Agrees) (item : CapItem) :
    (msg.store item).items = msg.items ++ [item] := by
  have index : (msg.iovLen - releaseHeadSize) / releaseItemSize = msg.items.length := by
    rw [agrees.iovLen, agrees.num, Nat.add_sub_cancel_left]
    exact Nat.mul_div_cancel_left _ (by decide)
  rw [store, index, take_length]

theorem store_agrees {msg : ReleaseMsg} (agrees : msg.Agrees) (room : msg.num < capsPerRelease) (item : CapItem) :
    (msg.store item).Agrees where
  num := by
    rw [store_items agrees item, length_append, ← agrees.num]
    rfl
  iovLen := by
    show msg.iovLen + releaseItemSize = _
    rw [agrees.iovLen]
    show _ = releaseHeadSize + releaseItemSize * (msg.num + 1)
    ring
  bounded := room

theorem fits {msg : ReleaseMsg} (agrees : msg.Agrees) (room : msg.num < capsPerRelease) :
    msg.iovLen + releaseItemSize ≤ pageCacheSize := by
  have length := agrees.iovLen
  simp only [releaseHeadSize, releaseItemSize, pageCacheSize] at length ⊢
  have bound : msg.num < 170 := room
  omega

end ReleaseMsg

namespace ReleaseQueue

section

variable {queue : ReleaseQueue}

theorem init_filed : init.Filed where
  room := nofun
  agrees := nofun
  once := .refl _
  serials := rfl
  ids := .nil
  known := nofun

variable {msg : ReleaseMsg}

theorem Filed.of_capReleases (filed : queue.Filed) (present : msg ∈ queue.capReleases) : msg.Agrees :=
  filed.agrees msg (by simp [present])

theorem Filed.of_done (filed : queue.Filed) (present : msg ∈ queue.done) : msg.Agrees :=
  filed.agrees msg (by simp [present])

theorem Filed.of_sent (filed : queue.Filed) (present : msg ∈ queue.sent) : msg.Agrees :=
  filed.agrees msg (by simp [present])

theorem Filed.counted (filed : queue.Filed) (item : CapItem) :
    queue.queued.count item = (queue.capReleases.flatMap ReleaseMsg.items).count item +
      (queue.done.flatMap ReleaseMsg.items).count item + (queue.sent.flatMap ReleaseMsg.items).count item +
      queue.discarded.count item := by
  have counts := List.perm_iff_count.mp filed.once item
  simpa only [ReleaseQueue.filed, flatMap_append, count_append] using counts

theorem once_of_counted
    (counted : ∀ item, queue.queued.count item = (queue.capReleases.flatMap ReleaseMsg.items).count item +
      (queue.done.flatMap ReleaseMsg.items).count item + (queue.sent.flatMap ReleaseMsg.items).count item +
      queue.discarded.count item) :
    queue.queued.Perm (queue.filed ++ queue.discarded) := by
  apply List.perm_iff_count.mpr
  intro item
  rw [counted item, ReleaseQueue.filed, flatMap_append, flatMap_append, count_append,
    count_append, count_append]

theorem serials_snoc (filed : queue.Filed) {item : CapItem} (serial : item.serial = queue.queued.length) :
    (queue.queued ++ [item]).map CapItem.serial = List.range (queue.queued ++ [item]).length := by
  rw [map_append, filed.serials, length_append, length_singleton, range_succ, map_singleton,
    serial]

def lag (queue : ReleaseQueue) : Int :=
  queue.unused - queue.numCapReleases

theorem capReleases_ne_nil (lags : 0 ≤ queue.lag) (counted : 0 < queue.numCapReleases) : queue.capReleases ≠ [] := by
  intro empty
  simp only [lag, unused, empty, map_nil, sum_nil] at lags
  omega

theorem queueCapRelease_filed (filed : queue.Filed) (lags : 0 ≤ queue.lag) (counted : 0 < queue.numCapReleases)
    (ino capId : BitVec 64) (migrateSeq issueSeq : BitVec 32) :
    Returns (queue.queueCapRelease ino capId migrateSeq issueSeq) fun after =>
      after.Filed ∧ after.lag = queue.lag := by
  have nonempty := capReleases_ne_nil lags counted
  cases listed : queue.capReleases with
  | nil => exact absurd listed nonempty
  | cons msg rest =>
    have present : msg ∈ queue.capReleases := by simp [listed]
    have agrees := filed.of_capReleases present
    have room := filed.room msg present
    have fits := msg.fits agrees room
    have restRoom : ∀ other ∈ rest, other.num < capsPerRelease := fun other held =>
      filed.room other (by simp [listed, held])
    have ids := filed.ids
    have known := filed.known
    have once := filed.counted
    rw [listed] at ids known once
    apply Returns.haltIf (by omega)
    rw [listed]
    dsimp only
    apply Returns.haltIf (by omega)
    generalize isItem : CapItem.mk ino capId migrateSeq issueSeq queue.queued.length = item
    have serial : item.serial = queue.queued.length := by rw [← isItem]
    have items := ReleaseMsg.store_items agrees item
    have stored := ReleaseMsg.store_agrees agrees room item
    have bound := stored.bounded
    split
    · next full =>
      refine ⟨_, rfl, ⟨restRoom, ?_, ?_, serials_snoc filed serial, ?_, ?_⟩, ?_⟩
      · intro other held
        simp only [mem_append, mem_singleton] at held
        obtain (held | held | rfl) | held := held
        · exact filed.of_capReleases (by simp [listed, held])
        · exact filed.of_done held
        · exact stored
        · exact filed.of_sent held
      · apply once_of_counted
        intro other
        simp only [flatMap_append, flatMap_cons, flatMap_nil, List.append_nil, items,
          count_append]
        have counts := once other
        simp only [flatMap_cons, count_append] at counts
        lia
      · apply (List.Perm.nodup_iff _).mp ids
        simp only [map_append, map_cons, map_nil, cons_append]
        exact (perm_append_singleton _ _).symm.trans (.of_eq (append_assoc _ _ _))
      · intro other held
        simp only [mem_append, mem_singleton] at held
        obtain held | held | rfl := held
        · exact known other (by simp [held])
        · exact known other (by simp [held])
        · exact known msg (by simp)
      · have fullNum : msg.num + 1 = capsPerRelease := full
        simp only [lag, unused, listed, map_cons, sum_cons, ReleaseMsg.spare]
        lia
    · next notFull =>
      refine ⟨_, rfl, ⟨?_, ?_, ?_, serials_snoc filed serial, ?_, ?_⟩, ?_⟩
      · intro other held
        obtain rfl | held := List.mem_cons.mp held
        · lia
        · exact restRoom other held
      · intro other held
        simp only [mem_append, mem_cons] at held
        obtain ((rfl | held) | held) | held := held
        · exact stored
        · exact filed.of_capReleases (by simp [listed, held])
        · exact filed.of_done held
        · exact filed.of_sent held
      · apply once_of_counted
        intro other
        simp only [flatMap_cons, items, count_append]
        have counts := once other
        simp only [flatMap_cons, count_append] at counts
        lia
      · exact ids
      · intro other held
        simp only [mem_append, mem_cons] at held
        obtain (rfl | held) | held := held
        · exact known msg (by simp)
        · exact known other (by simp [held])
        · exact known other (by simp [held])
      · simp only [lag, unused, listed, map_cons, sum_cons, ReleaseMsg.spare, ReleaseMsg.store]
        lia

theorem addMsg_filed (filed : queue.Filed) : queue.addMsg.Filed ∧ queue.addMsg.lag = queue.lag := by
  have agrees := ReleaseMsg.new_agrees queue.nextMsg
  refine ⟨⟨?_, ?_, ?_, filed.serials, ?_, ?_⟩, ?_⟩
  · intro msg held
    obtain rfl | held := List.mem_cons.mp held
    · exact (by decide : 0 < capsPerRelease)
    · exact filed.room msg held
  · intro msg held
    obtain rfl | held := List.mem_cons.mp held
    · exact agrees
    · exact filed.agrees msg held
  · apply once_of_counted
    intro item
    have counts := filed.counted item
    simpa only [addMsg, flatMap_cons, ReleaseMsg.new, nil_append] using counts
  · apply List.nodup_cons.mpr
    refine ⟨?_, filed.ids⟩
    intro taken
    obtain ⟨msg, held, same⟩ := List.mem_map.mp taken
    have before := filed.known msg held
    simp only [ReleaseMsg.new] at same
    omega
  · intro msg held
    obtain rfl | held := List.mem_cons.mp held
    · exact Nat.lt_succ_self _
    · exact Nat.lt_succ_of_lt (filed.known msg held)
  · simp only [lag, unused, addMsg, map_cons, sum_cons, ReleaseMsg.spare, ReleaseMsg.new]
    lia

theorem addMsgs_filed (alloc : Nat → Bool) (wanted : Int) (fuel : Nat) (filed : queue.Filed) :
    (queue.addMsgs alloc wanted fuel).2.Filed ∧ (queue.addMsgs alloc wanted fuel).2.lag = queue.lag ∧
      ∀ msg ∈ queue.capReleases, msg ∈ (queue.addMsgs alloc wanted fuel).2.capReleases := by
  induction fuel generalizing queue with
  | zero => exact ⟨filed, rfl, fun _ held => held⟩
  | succ fuel ih =>
    rw [addMsgs]
    split
    · split
      · obtain ⟨addedFiled, addedLag⟩ := addMsg_filed filed
        obtain ⟨kept, lagKept, holds⟩ := ih addedFiled
        exact ⟨kept, lagKept.trans addedLag, fun msg held => holds msg (mem_cons_of_mem _ held)⟩
      · exact ⟨filed, rfl, fun _ held => held⟩
    · exact ⟨filed, rfl, fun _ held => held⟩

theorem perm_of_filter {msgs : List ReleaseMsg} (ids : (msgs.map ReleaseMsg.id).Nodup)
    (present : msg ∈ msgs) : msgs.Perm (msg :: msgs.filter fun other => other.id ≠ msg.id) := by
  induction msgs with
  | nil => cases present
  | cons first rest ih =>
    obtain ⟨fresh, restIds⟩ := List.nodup_cons.mp ids
    obtain rfl | held := List.mem_cons.mp present
    · have others : ∀ other ∈ rest, other.id ≠ msg.id := by
        intro other held same
        exact fresh (same ▸ mem_map_of_mem held)
      rw [filter_cons_of_neg (by simp), List.filter_eq_self.mpr (by simpa using others)]
    · have differs : first.id ≠ msg.id := by
        intro same
        exact fresh (same ▸ mem_map_of_mem held)
      rw [filter_cons_of_pos (by simpa using differs)]
      exact ((ih restIds held).cons first).trans (.swap msg first _)

theorem retire_filed (filed : queue.Filed) (present : msg ∈ queue.capReleases) :
    (queue.retire msg).Filed ∧ (queue.retire msg).lag = queue.lag := by
  have capIds : (queue.capReleases.map ReleaseMsg.id).Nodup := by
    have ids := filed.ids
    rw [map_append] at ids
    exact (List.nodup_append.mp ids).1
  have moved := perm_of_filter capIds present
  have merged : (queue.capReleases ++ queue.done).Perm
      ((queue.retire msg).capReleases ++ (queue.retire msg).done) := by
    apply (moved.append_right _).trans
    show (msg :: (_ ++ queue.done)).Perm (_ ++ (queue.done ++ [msg]))
    exact (perm_append_singleton _ _).symm.trans (.of_eq (append_assoc _ _ _))
  refine ⟨⟨?_, ?_, ?_, filed.serials, ?_, ?_⟩, ?_⟩
  · exact fun other held => filed.room other (mem_of_mem_filter held)
  · intro other held
    apply filed.agrees other
    exact (merged.append_right queue.sent).mem_iff.mpr held
  · apply filed.once.trans
    apply List.Perm.append_right
    exact (merged.append_right queue.sent).flatMap_right _
  · exact ((merged.map _).nodup_iff).mp filed.ids
  · exact fun other held => filed.known other (merged.mem_iff.mpr held)
  · have sums := (moved.map ReleaseMsg.spare).sum_eq
    simp only [map_cons, sum_cons, ReleaseMsg.spare] at sums
    simp only [lag, unused, retire, ReleaseMsg.spare]
    lia

theorem mem_of_started (first : queue.started = some msg) : msg ∈ queue.capReleases := by
  unfold started at first
  split at first
  · cases first
  · next listed =>
    split at first
    · cases first
      rw [listed]
      exact mem_cons_self
    · cases first

theorem addCapReleases_filed (filed : queue.Filed) (alloc : Nat → Bool) (nrCaps : Nat) (safety : Int) :
    (queue.addCapReleases alloc nrCaps safety).Filed ∧
      (queue.addCapReleases alloc nrCaps safety).lag = queue.lag := by
  unfold addCapReleases
  dsimp only
  generalize queue.wanted nrCaps safety = wanted
  obtain ⟨kept, lagKept, holds⟩ := addMsgs_filed alloc wanted (wanted - queue.numCapReleases).toNat filed
  split
  · next failed =>
    rw [failed] at kept lagKept
    exact ⟨kept, lagKept⟩
  · next added =>
    rw [added] at kept lagKept holds
    split
    · exact ⟨kept, lagKept⟩
    · next msg first =>
      obtain ⟨retired, retiredLag⟩ := retire_filed kept (holds msg (mem_of_started first))
      exact ⟨retired, retiredLag.trans lagKept⟩

theorem sendCapReleases_filed (filed : queue.Filed) :
    queue.sendCapReleases.Filed ∧ queue.sendCapReleases.lag = queue.lag := by
  refine ⟨⟨filed.room, ?_, ?_, filed.serials, ?_, ?_⟩, rfl⟩
  · intro msg held
    apply filed.agrees msg
    simp only [sendCapReleases, mem_append, not_mem_nil, or_false] at held ⊢
    tauto
  · apply once_of_counted
    intro item
    have counts := filed.counted item
    simp only [sendCapReleases, flatMap_append, flatMap_nil, count_append, count_nil]
    lia
  · have ids := filed.ids
    rw [map_append] at ids
    simpa [sendCapReleases] using (List.nodup_append.mp ids).1
  · intro msg held
    apply filed.known msg
    simp only [sendCapReleases, List.append_nil] at held
    exact mem_append_left _ held

theorem discardFirst_filed (filed : queue.Filed) :
    queue.discardFirst.Filed ∧ queue.discardFirst.lag = queue.lag ∧ queue.discardFirst.done = queue.done := by
  unfold discardFirst
  split
  · exact ⟨filed, rfl, rfl⟩
  · next msg rest listed =>
    have agrees := msg.reset_agrees
    have ids := filed.ids
    have known := filed.known
    have once := filed.counted
    rw [listed] at ids known once
    refine ⟨⟨?_, ?_, ?_, filed.serials, ids, ?_⟩, ?_, rfl⟩
    · intro other held
      obtain rfl | held := List.mem_cons.mp held
      · exact (by decide : 0 < capsPerRelease)
      · exact filed.room other (by simp [listed, held])
    · intro other held
      simp only [mem_append, mem_cons] at held
      obtain ((rfl | held) | held) | held := held
      · exact agrees
      · exact filed.of_capReleases (by simp [listed, held])
      · exact filed.of_done held
      · exact filed.of_sent held
    · apply once_of_counted
      intro item
      have counts := once item
      simp only [flatMap_cons, count_append, ReleaseMsg.reset, nil_append] at counts ⊢
      lia
    · intro other held
      simp only [cons_append, mem_cons] at held
      obtain rfl | held := held
      · exact known msg (by simp)
      · exact known other (by simp only [cons_append, mem_cons, held, or_true])
    · simp only [lag, unused, listed, map_cons, sum_cons, ReleaseMsg.spare, ReleaseMsg.reset]
      lia

theorem requeueDone_filed (done : List ReleaseMsg) (filed : Filed { queue with done := done }) :
    (requeueDone done queue).Filed ∧
      (requeueDone done queue).lag = queue.lag + (done.map ReleaseMsg.spare).sum := by
  induction done generalizing queue with
  | nil => exact ⟨filed, (Int.add_zero _).symm⟩
  | cons msg rest ih =>
    have agrees := msg.reset_agrees
    have once := filed.counted
    have merged : (queue.capReleases ++ msg :: rest).Perm (msg :: (queue.capReleases ++ rest)) :=
      perm_middle
    have requeued : Filed { queue.requeue msg with done := rest } := by
      refine ⟨?_, ?_, ?_, filed.serials, ?_, ?_⟩
      · intro other held
        obtain rfl | held := List.mem_cons.mp held
        · exact (by decide : 0 < capsPerRelease)
        · exact filed.room other held
      · intro other held
        simp only [requeue, mem_append, mem_cons] at held
        obtain ((rfl | held) | held) | held := held
        · exact agrees
        · exact filed.of_capReleases held
        · exact filed.of_done (mem_cons_of_mem _ held)
        · exact filed.of_sent held
      · apply once_of_counted
        intro item
        have counts := once item
        simp only [requeue, flatMap_cons, count_append, ReleaseMsg.reset, nil_append] at counts ⊢
        lia
      · exact ((merged.map _).nodup_iff).mp filed.ids
      · intro other held
        simp only [requeue, cons_append, mem_cons] at held
        obtain rfl | held := held
        · exact filed.known msg (merged.mem_iff.mpr (by simp))
        · exact filed.known other (merged.mem_iff.mpr (mem_cons_of_mem _ held))
    obtain ⟨kept, lagKept⟩ := ih requeued
    refine ⟨kept, lagKept.trans ?_⟩
    simp only [lag, unused, requeue, map_cons, sum_cons, ReleaseMsg.spare, ReleaseMsg.reset]
    lia

theorem discardCapReleases_filed (filed : queue.Filed) :
    queue.discardCapReleases.Filed ∧
      queue.discardCapReleases.lag = queue.lag + (queue.done.map ReleaseMsg.spare).sum := by
  obtain ⟨firstFiled, firstLag, sameDone⟩ := discardFirst_filed filed
  have again : Filed { queue.discardFirst with done := queue.done } := by
    rw [← sameDone]
    exact firstFiled
  obtain ⟨kept, lagKept⟩ := requeueDone_filed queue.done again
  exact ⟨kept, lagKept.trans (by rw [firstLag])⟩

end

end ReleaseQueue

namespace ReleaseCall

/-- How much more room a call makes than the counter learns of. -/
def loss : ReleaseCall → ReleaseQueue → Int
  | .discard, state => (state.done.map ReleaseMsg.spare).sum
  | _, _ => 0

variable {call : ReleaseCall} {state : ReleaseQueue}

theorem run_filed {before : ReleaseQueue} (proper : call.Proper before) (filed : before.Filed)
    (lags : 0 ≤ before.lag) :
    Returns (call.run before) fun after => after.Filed ∧ after.lag = before.lag + call.loss before := by
  cases call with
  | queue ino capId migrateSeq issueSeq =>
    obtain ⟨after, ran, kept, sameLag⟩ :=
      ReleaseQueue.queueCapRelease_filed filed lags proper ino capId migrateSeq issueSeq
    exact ⟨after, ran, kept, sameLag.trans (Int.add_zero _).symm⟩
  | add alloc nrCaps safety =>
    obtain ⟨kept, sameLag⟩ := ReleaseQueue.addCapReleases_filed filed alloc nrCaps safety
    exact ⟨_, rfl, kept, sameLag.trans (Int.add_zero _).symm⟩
  | send =>
    obtain ⟨kept, sameLag⟩ := ReleaseQueue.sendCapReleases_filed filed
    exact ⟨_, rfl, kept, sameLag.trans (Int.add_zero _).symm⟩
  | discard => exact ⟨_, rfl, ReleaseQueue.discardCapReleases_filed filed⟩

theorem loss_of_sound (sound : call.Sound state) : call.loss state = 0 := by
  cases call with
  | discard =>
    apply sum_eq_zero
    intro spare held
    obtain ⟨msg, done, rfl⟩ := List.mem_map.mp held
    have full := sound.2 rfl msg done
    simp only [ReleaseMsg.spare]
    omega
  | queue | add | send => rfl

theorem keeps_counter : Keeps run Sound fun state => state.Filed ∧ state.lag = 0 := by
  intro call before sound ⟨filed, lags⟩
  obtain ⟨after, ran, kept, lag⟩ := run_filed sound.1 filed lags.ge
  have none := loss_of_sound sound
  exact ⟨after, ran, kept, by omega⟩

end ReleaseCall

namespace ReleaseQueue

/-- What holds of the queue between calls: each release that was queued is in one message, or was in one that was
discarded. -/
structure Accounted (queue : ReleaseQueue) : Prop where
  counter : queue.numCapReleases = queue.unused
  room : ∀ msg ∈ queue.capReleases, msg.num < capsPerRelease
  agrees : ∀ msg ∈ queue.capReleases ++ queue.done ++ queue.sent, msg.Agrees
  once : queue.queued.Perm (queue.filed ++ queue.discarded)
  distinct : (queue.filed ++ queue.discarded).Nodup

theorem Filed.distinct {queue : ReleaseQueue} (filed : queue.Filed) : (queue.filed ++ queue.discarded).Nodup := by
  apply filed.once.nodup_iff.mp
  apply List.Nodup.of_map CapItem.serial
  rw [filed.serials]
  exact nodup_range

/-- While all that are done are full when messages are discarded, the counter is the room in the messages, no release
is lost or put into two messages, and no call hits one of the `BUG_ON`s. -/
theorem releases_accounted {queue : ReleaseQueue} (reached : Reached ReleaseCall.run ReleaseCall.Sound .init queue) :
    queue.Accounted ∧ ∀ call : ReleaseCall, call.Proper queue → ∃ after, call.run queue = .ok after := by
  obtain ⟨filed, lag⟩ := reached.holds ReleaseCall.keeps_counter ⟨init_filed, rfl⟩
  refine ⟨⟨?_, filed.room, filed.agrees, filed.once, filed.distinct⟩, ?_⟩
  · exact (Int.sub_eq_zero.mp lag).symm
  · intro call proper
    obtain ⟨after, ran, _⟩ := ReleaseCall.run_filed proper filed lag.ge
    exact ⟨after, ran⟩

def retired : ReleaseQueue where
  capReleases := [.new 1]
  done := [(ReleaseMsg.new 0).store { ino := 1, capId := 2, migrateSeq := 0, seq := 3, serial := 0 }]
  numCapReleases := capsPerRelease
  nextMsg := 2
  queued := [{ ino := 1, capId := 2, migrateSeq := 0, seq := 3, serial := 0 }]
  sent := []
  discarded := []

theorem retired_reached {allowed : ReleaseCall → ReleaseQueue → Prop}
    (adds : ∀ state, allowed (.add (fun _ => true) 1 0) state)
    (queues : ∀ state, 0 < state.numCapReleases → allowed (.queue 1 2 0 3) state) :
    Reached ReleaseCall.run allowed .init retired := by
  have added := (Reached.start : Reached ReleaseCall.run allowed init init).next _ (adds init) rfl
  have stored := added.next _ (queues _ (by decide)) rfl
  exact stored.next _ (adds _) rfl

theorem releases_accounted_sent :
    ∃ queue, Reached ReleaseCall.run ReleaseCall.Sound .init queue ∧ queue.discarded.length = 1 ∧ queue.Accounted := by
  have quiet : ∀ state, ReleaseCall.Sound (.add (fun _ => true) 1 0) state := fun _ => ⟨trivial, nofun⟩
  have started : Reached ReleaseCall.run ReleaseCall.Sound .init retired := retired_reached quiet fun _ counted => ⟨counted, nofun⟩
  have sent := started.next .send ⟨trivial, nofun⟩ rfl
  have counted : 0 < retired.sendCapReleases.numCapReleases := by decide
  have stored := sent.next (.queue 4 5 0 6) ⟨counted, nofun⟩ rfl
  have discarded := stored.next .discard ⟨trivial, nofun⟩ rfl
  exact ⟨_, discarded, rfl, (releases_accounted discarded).1⟩

/-- The message that was retired has all its room again, of which the counter knows one item. -/
theorem releases_unaccounted :
    ∃ queue, Reached ReleaseCall.run ReleaseCall.Proper .init queue ∧
      queue.numCapReleases = 171 ∧ queue.unused = 340 := by
  have started : Reached ReleaseCall.run ReleaseCall.Proper .init retired :=
    retired_reached (fun _ => trivial) fun _ counted => counted
  have discarded := started.next .discard trivial rfl
  exact ⟨_, discarded, by decide, by decide⟩

end ReleaseQueue

end KmodCeph.Mds
