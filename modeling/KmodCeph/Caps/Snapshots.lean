import KmodCeph.Caps.Dirty

namespace KmodCeph.Caps

open Lib List

/-- What happens to an inode; the calls of `DirtyCall` are among it. -/
inductive SnapCall where
  | dirty (call : DirtyCall)
  | takeRefs (got : CapMask)
  | putRefs (had : CapMask)
  | queueCapSnap (addr : Nat)
  | flushCapSnap (addr : Nat)
  | flushsnapAck (follows flushTid : Nat)
  | changeContext (snapc : SnapContext)
  | changeFile (file : FileState)

def onlyInode : InodeId := 0

abbrev SnapState := CephInode × CapLists

def SnapState.init (snapc : SnapContext) : SnapState :=
  (.clean snapc, { capDirty := [], capFlushing := [], numCapFlushing := 0, capFlushSeq := 0 })

def SnapCall.run : SnapCall → SnapState → Except InodeBug SnapState
  | .dirty call, (ci, lists) => call.apply onlyInode ci lists
  | .takeRefs got, (ci, lists) => return (takeCapRefs got ci, lists)
  | .putRefs had, (ci, lists) => (cephPutCapRefs had ci).map (·, lists)
  | .queueCapSnap addr, (ci, lists) => (cephQueueCapSnap addr ci).map (·, lists)
  | .flushCapSnap addr, (ci, lists) => (Caps.flushCapSnap addr ci).map (·, lists)
  | .flushsnapAck follows flushTid, (ci, lists) => return (handleCapFlushsnapAck follows flushTid ci, lists)
  | .changeContext snapc, (ci, lists) => return ({ ci with cachedContext := snapc }, lists)
  | .changeFile file, (ci, lists) => return ({ ci with file := file }, lists)

def CapSnap.Complete (capsnap : CapSnap) : Prop :=
  capsnap.writing = false ∧ capsnap.dirtyPages = 0

instance (capsnap : CapSnap) : Decidable capsnap.Complete :=
  inferInstanceAs (Decidable (_ ∧ _))

/-- How the calls are made: only what was taken is put back, cap_snaps have addresses of
their own and are sent in order when they are complete, and what is acked was sent. -/
def SnapCall.Proper : SnapCall → SnapState → Prop
  | .dirty call, (ci, _) => call.Proper ci
  | .takeRefs _, _ => True
  | .putRefs had, (ci, _) => had &&& cephCapFileWr ≠ 0 → 0 < ci.wrRef
  | .queueCapSnap addr, (ci, _) => (∀ capsnap ∈ ci.capSnaps, capsnap.addr ≠ addr) ∧
      ∀ page ∈ ci.pages, page.counter ≠ some addr
  | .flushCapSnap addr, (ci, _) => (∀ capsnap ∈ ci.capSnaps, capsnap.addr = addr → capsnap.Complete) ∧
      ∀ earlier ∈ ci.capSnaps.takeWhile (·.addr ≠ addr), earlier.Complete
  | .flushsnapAck follows flushTid, (ci, _) => ∀ capsnap ∈ ci.capSnaps,
      capsnap.follows = follows → capsnap.flushTid = flushTid → capsnap.flushing
  | .changeContext _, _ => True
  | .changeFile _, _ => True

instance SnapCall.decidableProper : (call : SnapCall) → (state : SnapState) → Decidable (call.Proper state)
  | .dirty call, (ci, _) => inferInstanceAs (Decidable (call.Proper ci))
  | .takeRefs _, _ => .isTrue trivial
  | .putRefs had, (ci, _) => inferInstanceAs (Decidable (had &&& cephCapFileWr ≠ 0 → 0 < ci.wrRef))
  | .queueCapSnap _, (_, _) => inferInstanceAs (Decidable (_ ∧ _))
  | .flushCapSnap _, (_, _) => inferInstanceAs (Decidable (_ ∧ _))
  | .flushsnapAck follows flushTid, (ci, _) => inferInstanceAs (Decidable (∀ capsnap ∈ ci.capSnaps,
      capsnap.follows = follows → capsnap.flushTid = flushTid → capsnap.flushing))
  | .changeContext _, _ => .isTrue trivial
  | .changeFile _, _ => .isTrue trivial

/-- If a cap_snap is pending when the last write ends, it is the only one. -/
def SnapCall.Alone : SnapCall → SnapState → Prop
  | .putRefs had, (ci, _) =>
    had &&& cephCapFileWr ≠ 0 → ci.wrRef = 1 → havePendingCapSnap ci → ci.capSnaps.length = 1
  | _, _ => True

instance SnapCall.decidableAlone : (call : SnapCall) → (state : SnapState) → Decidable (call.Alone state)
  | .putRefs had, (ci, _) => inferInstanceAs (Decidable
      (had &&& cephCapFileWr ≠ 0 → ci.wrRef = 1 → havePendingCapSnap ci → ci.capSnaps.length = 1))
  | .dirty _, _ => .isTrue trivial
  | .takeRefs _, _ => .isTrue trivial
  | .queueCapSnap _, _ => .isTrue trivial
  | .flushCapSnap _, _ => .isTrue trivial
  | .flushsnapAck _ _, _ => .isTrue trivial
  | .changeContext _, _ => .isTrue trivial
  | .changeFile _, _ => .isTrue trivial

def writings (capSnaps : List CapSnap) : List Bool :=
  capSnaps.map (·.writing)

/-- None but the last is writing, and none without a writer; one with nothing to wait
for is recorded and queued. -/
structure Finishing (ci : CephInode) : Prop where
  last : (writings ci.capSnaps).Pairwise fun earlier _ => earlier = false
  writer : ci.wrRef = 0 → ∀ capsnap ∈ ci.capSnaps, capsnap.writing = false
  nonneg : 0 ≤ ci.wrRef
  recorded : ∀ capsnap ∈ ci.capSnaps, capsnap.writing = false → capsnap.recorded.isSome
  queued : ∀ capsnap ∈ ci.capSnaps, capsnap.Complete → capsnap.queued

section

variable {ci after : CephInode} {lists : CapLists} {nr : Int} {snapc : SnapContext}
variable {capSnaps capSnaps' : List CapSnap}

theorem used_wr : cephCapsUsed ci &&& cephCapFileWr ≠ 0 ↔ ci.wrRef ≠ 0 := by
  unfold cephCapsUsed
  split_ifs with pin rd cache wr buffer <;> simp_all [cephCapPin, cephCapFileRd, cephCapFileCache, cephCapFileWr, cephCapFileBuffer]

theorem releaseFirst_some (released : releaseFirst nr snapc capSnaps = some capSnaps') :
    ∃ before capsnap rest, capSnaps = before ++ capsnap :: rest ∧ capsnap.context = snapc ∧
      (∀ earlier ∈ before, earlier.context ≠ snapc) ∧
      capSnaps' = before ++ ((capsnap.release nr).toList ++ rest) := by
  induction capSnaps generalizing capSnaps' with
  | nil => cases released
  | cons capsnap rest ih =>
    rw [releaseFirst] at released
    split at released
    · rename_i found
      cases released
      exact ⟨[], capsnap, rest, rfl, found, by simp, rfl⟩
    · rename_i other
      obtain ⟨later, releasedLater, rfl⟩ := Option.map_eq_some_iff.mp released
      obtain ⟨before, found, after, rfl, context, earlier, rfl⟩ := ih releasedLater
      exact ⟨capsnap :: before, found, after, rfl, context, by simpa using ⟨other, earlier⟩, rfl⟩

theorem mem_release {capsnap released : CapSnap} (member : released ∈ (capsnap.release nr).toList) :
    released = { capsnap with dirtyPages := capsnap.dirtyPages - nr, queued := released.queued } ∧
    (released.Complete → released.queued = true) ∧ (capsnap.queued = true → released.queued = true) := by
  unfold CapSnap.release at member
  simp only at member
  split_ifs at member with unused dropped
  · simp at member
  · rw [Option.toList_some, mem_singleton] at member
    subst member
    refine ⟨rfl, ?_, ?_⟩
    · rintro ⟨finished, -⟩
      simp only at finished ⊢
      simp [finished]
    · intro queued
      simp [queued]
  · rw [Option.toList_some, mem_singleton] at member
    subst member
    exact ⟨rfl, fun complete => absurd complete.2 unused, id⟩

theorem writings_release {capsnap : CapSnap} :
    (writings (capsnap.release nr).toList).Sublist [capsnap.writing] := by
  unfold CapSnap.release
  simp only
  split_ifs
  · simp [writings]
  · simp [writings]
  · simp [writings]

theorem writings_releaseFirst (released : releaseFirst nr snapc capSnaps = some capSnaps') :
    (writings capSnaps').Sublist (writings capSnaps) := by
  obtain ⟨before, capsnap, rest, rfl, -, -, rfl⟩ := releaseFirst_some released
  unfold writings
  rw [map_append, map_append, map_append]
  exact (List.Sublist.refl _).append (writings_release.append (.refl _))

theorem ackFlushSnap_sublist (follows flushTid : Nat) (capSnaps : List CapSnap) :
    (ackFlushSnap follows flushTid capSnaps).Sublist capSnaps := by
  induction capSnaps with
  | nil => exact .refl _
  | cons capsnap rest ih =>
    rw [ackFlushSnap]
    split_ifs
    · exact .refl _
    · exact sublist_cons_self capsnap rest
    · exact ih.cons_cons capsnap

theorem Finishing.of_same (finishing : Finishing ci) (capSnaps : after.capSnaps = ci.capSnaps)
    (wrRef : after.wrRef = ci.wrRef) : Finishing after := by
  obtain ⟨last, writer, nonneg, recorded, queued⟩ := finishing
  rw [← capSnaps, ← wrRef] at *
  exact ⟨last, writer, nonneg, recorded, queued⟩

theorem Finishing.of_sublist (finishing : Finishing ci) (wrRef : after.wrRef = ci.wrRef)
    (stay : (writings after.capSnaps).Sublist (writings ci.capSnaps))
    (recorded : ∀ capsnap ∈ after.capSnaps, capsnap.writing = false → capsnap.recorded.isSome)
    (queued : ∀ capsnap ∈ after.capSnaps, capsnap.Complete → capsnap.queued) : Finishing after where
  last := finishing.last.sublist stay
  writer noWriter capsnap member := by
    have written : capsnap.writing ∈ writings after.capSnaps := mem_map_of_mem member
    obtain ⟨old, oldMember, same⟩ := List.mem_map.mp (stay.subset written)
    exact same.symm.trans (finishing.writer (wrRef.symm.trans noWriter) old oldMember)
  nonneg := wrRef ▸ finishing.nonneg
  recorded := recorded
  queued := queued

theorem Finishing.writing_false (finishing : Finishing ci) (nonePending : havePendingCapSnap ci = false) :
    ∀ capsnap ∈ ci.capSnaps, capsnap.writing = false := by
  have last := finishing.last
  unfold havePendingCapSnap at nonePending
  rcases eq_nil_or_concat ci.capSnaps with none | ⟨before, final, split⟩
  · simp [none]
  · rw [split, concat_eq_append] at last nonePending ⊢
    simp only [writings, map_append, pairwise_append] at last
    intro capsnap member
    rcases List.mem_append.mp member with earlier | isFinal
    · exact last.2.2 _ (mem_map_of_mem earlier) final.writing (by simp)
    · rw [List.mem_singleton.mp isFinal]
      simpa using nonePending

theorem putPages_finishing (finishing : Finishing ci) {pages : List DirtyPage}
    (ran : releasePages pages snapc ci = .ok after) : Finishing after := by
  obtain ⟨put, putRan, done⟩ := ok_of_bind ran
  cases done
  refine @Finishing.of_same put _ ?_ rfl rfl
  by_cases head : ci.headSnapc = some snapc
  · rw [putWrbuffer_head head] at putRan
    cases putRan
    exact finishing.of_same rfl rfl
  · unfold cephPutWrbufferCapRefs at putRan
    simp only [if_neg head] at putRan
    obtain ⟨snaps, snapsRan, counted⟩ := ok_of_bind putRan
    refine @Finishing.of_same snaps _ ?_ (by cases counted; split <;> rfl) (by cases counted; split <;> rfl)
    unfold putSnapRefs at snapsRan
    cases released : releaseFirst pages.length snapc ci.capSnaps with
    | none =>
      rw [released] at snapsRan
      cases snapsRan
    | some capSnaps =>
      rw [released] at snapsRan
      cases snapsRan
      refine finishing.of_sublist rfl (writings_releaseFirst released) ?_ ?_
      · intro capsnap member finished
        obtain ⟨before, found, rest, split, -, -, rfl⟩ := releaseFirst_some released
        simp only [mem_append] at member
        rcases member with earlier | isReleased | later
        · exact finishing.recorded capsnap (by simp [split, earlier]) finished
        · rw [(mem_release isReleased).1] at finished ⊢
          exact finishing.recorded found (by simp [split]) finished
        · exact finishing.recorded capsnap (by simp [split, later]) finished
      · intro capsnap member complete
        obtain ⟨before, found, rest, split, -, -, rfl⟩ := releaseFirst_some released
        simp only [mem_append] at member
        rcases member with earlier | isReleased | later
        · exact finishing.queued capsnap (by simp [split, earlier]) complete
        · exact (mem_release isReleased).2.1 complete
        · exact finishing.queued capsnap (by simp [split, later]) complete

variable {file : FileState} {lists' : CapLists}

theorem finishCapSnap_ok {capsnap finished : CapSnap} (ran : finishCapSnap file capsnap = .ok finished) :
    capsnap.writing = false ∧
      finished = { capsnap with recorded := some file, queued := decide (capsnap.dirtyPages = 0) } := by
  unfold finishCapSnap haltIf at ran
  split at ran
  · cases ran
  · rename_i finishing
    cases ran
    exact ⟨by simpa using finishing, rfl⟩

/-- The cap_snap that is queued waits for a write, or is finished at once. -/
theorem queueCapSnap_ok {addr : Nat} (queues : Queues ci) (ran : cephQueueCapSnap addr ci = .ok after) :
    ∃ capsnap, after = { ci with
        wrbufferRefHead := 0
        headSnapc := some ci.cachedContext
        capSnaps := ci.capSnaps ++ [capsnap]
        refs := ci.refs + 1
        pages := ci.pages.map (DirtyPage.moveTo addr) } ∧
      capsnap = { newCapSnap addr (ci.headSnapc.getD ci.cachedContext) (dirtyForSnap ci) ci with
        writing := capsnap.writing, recorded := capsnap.recorded, queued := capsnap.queued } ∧
      (capsnap.writing = true ↔ ci.wrRef ≠ 0) ∧
      (capsnap.writing = false → capsnap.recorded.isSome) ∧ (capsnap.Complete → capsnap.queued) := by
  unfold cephQueueCapSnap at ran
  simp only [if_pos queues] at ran
  split at ran
  · rename_i writer
    cases ran
    refine ⟨_, rfl, ?_⟩
    exact ⟨rfl, by simpa using used_wr.mp writer, by simp, fun complete => by cases complete.1⟩
  · rename_i noWriter
    obtain ⟨capsnap, made, done⟩ := ok_of_bind ran
    cases done
    obtain ⟨-, rfl⟩ := finishCapSnap_ok made
    refine ⟨_, rfl, rfl, ?_, by simp, ?_⟩
    · simpa [newCapSnap] using used_wr.not.mp noWriter
    · exact fun complete => decide_eq_true complete.2

theorem queueCapSnap_finishing (finishing : Finishing ci) {addr : Nat} (ran : cephQueueCapSnap addr ci = .ok after) :
    Finishing after := by
  by_cases queues : Queues ci
  · obtain ⟨capsnap, rfl, -, writing, recorded, queued⟩ := queueCapSnap_ok queues ran
    have noneWriting := finishing.writing_false queues.1
    refine ⟨?_, ?_, finishing.nonneg, ?_, ?_⟩
    · simp only [writings, map_append, pairwise_append]
      refine ⟨finishing.last, by simp, ?_⟩
      intro earlier member _ _
      obtain ⟨old, oldMember, rfl⟩ := List.mem_map.mp member
      exact noneWriting old oldMember
    · intro noWriter old member
      rcases List.mem_append.mp member with earlier | isNew
      · exact noneWriting old earlier
      · rw [List.mem_singleton.mp isNew]
        exact Bool.eq_false_iff.mpr fun waits => writing.mp waits noWriter
    · intro old member finished
      rcases List.mem_append.mp member with earlier | isNew
      · exact finishing.recorded old earlier finished
      · rw [List.mem_singleton.mp isNew] at finished ⊢
        exact recorded finished
    · intro old member complete
      rcases List.mem_append.mp member with earlier | isNew
      · exact finishing.queued old earlier complete
      · rw [List.mem_singleton.mp isNew] at complete ⊢
        exact queued complete
  · unfold cephQueueCapSnap at ran
    rw [if_neg queues] at ran
    cases ran
    exact finishing

theorem takeCapRefs_finishing (finishing : Finishing ci) (got : CapMask) : Finishing (takeCapRefs got ci) := by
  obtain ⟨last, writer, nonneg, recorded, queued⟩ := finishing
  refine ⟨last, ?_, ?_, recorded, queued⟩
  · intro noWriter
    apply writer
    simp only [takeCapRefs] at noWriter
    split at noWriter <;> omega
  · simp only [takeCapRefs]
    split <;> omega

theorem finishFirst_of_finished (finished : ∀ capsnap ∈ capSnaps, capsnap.writing = false) :
    finishFirst file capSnaps = .ok capSnaps := by
  cases capSnaps with
  | nil => rfl
  | cons capsnap rest =>
    rw [finishFirst, finished capsnap (by simp)]
    rfl

theorem finishFirst_alone {capsnap : CapSnap} (writing : capsnap.writing = true) :
    finishFirst file [capsnap] = .ok [{ capsnap with
      writing := false, recorded := some file, queued := decide (capsnap.dirtyPages = 0) }] := by
  rw [finishFirst, if_pos writing]
  rfl

theorem putCapRefs_finishing (finishing : Finishing ci) {had : CapMask}
    (held : had &&& cephCapFileWr ≠ 0 → 0 < ci.wrRef)
    (alone : had &&& cephCapFileWr ≠ 0 → ci.wrRef = 1 → havePendingCapSnap ci → ci.capSnaps.length = 1)
    (ran : cephPutCapRefs had ci = .ok after) : Finishing after := by
  unfold cephPutCapRefs at ran
  by_cases writer : had &&& cephCapFileWr ≠ 0
  · simp only [if_pos writer] at ran
    have some := held writer
    by_cases last : ci.wrRef - 1 = 0
    · simp only [if_pos last] at ran
      obtain ⟨capSnaps, finished, done⟩ := ok_of_bind ran
      cases done
      by_cases pending : havePendingCapSnap ci = true
      · obtain ⟨capsnap, single⟩ := List.length_eq_one_iff.mp (alone writer (by omega) pending)
        have writing : capsnap.writing = true := by
          unfold havePendingCapSnap at pending
          simpa [single] using pending
        rw [single, finishFirst_alone writing] at finished
        cases finished
        refine ⟨by simp [writings], by simp, by simp only; omega, by simp, ?_⟩
        intro finished member complete
        rw [List.mem_singleton.mp member] at complete ⊢
        exact decide_eq_true complete.2
      · have noneWriting := finishing.writing_false (by simpa using pending)
        rw [finishFirst_of_finished noneWriting] at finished
        cases finished
        exact ⟨finishing.last, fun _ => noneWriting, by simp only; omega, finishing.recorded, finishing.queued⟩
    · simp only [if_neg last] at ran
      cases ran
      exact ⟨finishing.last, fun zero => absurd zero last, by simp only; omega, finishing.recorded, finishing.queued⟩
  · simp only [if_neg writer] at ran
    cases ran
    exact finishing.of_same rfl rfl

theorem flushCapSnap_finishing (finishing : Finishing ci) {addr : Nat} (ran : flushCapSnap addr ci = .ok after) :
    Finishing after := by
  obtain ⟨-, -, done⟩ := ok_of_bind ran
  cases done
  refine finishing.of_sublist rfl ?_ ?_ ?_
  · have same : writings ci.capSnaps = writings (ci.capSnaps.map fun capsnap => if capsnap.addr = addr then
        { capsnap with flushTid := (ci.capFlushLastTid + 1).toNat, flushing := true } else capsnap) := by
      simp only [writings, map_map]
      apply map_congr_left
      intro capsnap _
      simp only [Function.comp]
      split <;> rfl
    rw [same]
  · intro capsnap member finished
    obtain ⟨old, oldMember, rfl⟩ := List.mem_map.mp member
    by_cases sent : old.addr = addr
    · simp only [if_pos sent] at finished ⊢
      exact finishing.recorded old oldMember finished
    · simp only [if_neg sent] at finished ⊢
      exact finishing.recorded old oldMember finished
  · intro capsnap member complete
    obtain ⟨old, oldMember, rfl⟩ := List.mem_map.mp member
    by_cases sent : old.addr = addr
    · simp only [if_pos sent] at complete ⊢
      exact finishing.queued old oldMember complete
    · simp only [if_neg sent] at complete ⊢
      exact finishing.queued old oldMember complete

theorem flushsnapAck_finishing (finishing : Finishing ci) (follows flushTid : Nat) :
    Finishing (handleCapFlushsnapAck follows flushTid ci) := by
  have stay := ackFlushSnap_sublist follows flushTid ci.capSnaps
  refine finishing.of_sublist rfl (stay.map _) ?_ ?_
  · exact fun capsnap member => finishing.recorded capsnap (stay.subset member)
  · exact fun capsnap member => finishing.queued capsnap (stay.subset member)

theorem flushAck_same {flushTid : Nat} {dirty : CapMask}
    (ran : handleCapFlushAck onlyInode flushTid dirty ci lists = .ok (after, lists')) :
    after.capSnaps = ci.capSnaps ∧ after.wrRef = ci.wrRef := by
  obtain ⟨_, _, rfl, -, -⟩ := handleCapFlushAck_changes ran
  exact ⟨rfl, rfl⟩

theorem dirtyCall_finishing (finishing : Finishing ci) {call : DirtyCall}
    (ran : call.apply onlyInode ci lists = .ok (after, lists')) : Finishing after := by
  cases call with
  | markDirty mask =>
    obtain ⟨_, _, _, rfl, -, -⟩ := cephMarkDirtyCaps_changes ran
    exact finishing.of_same rfl rfl
  | markFlushing session =>
    obtain ⟨marked, markRan, same⟩ := ok_of_map ran
    obtain ⟨-, -, listed⟩ := ok_of_bind markRan
    obtain ⟨-, -, done⟩ := ok_of_bind listed
    cases done
    cases same
    exact finishing.of_same rfl rfl
  | flushAck flushTid dirty =>
    have same := flushAck_same ran
    exact finishing.of_same same.1 same.2
  | readContext page =>
    cases ran
    exact finishing.of_same rfl rfl
  | dirtyPage page snapc =>
    cases ran
    exact finishing.of_same rfl rfl
  | putPages pages snapc =>
    obtain ⟨put, putRan, same⟩ := ok_of_map ran
    cases same
    exact putPages_finishing finishing putRan

theorem finishing_preserved :
    Preserves SnapCall.run (fun call state => call.Proper state ∧ call.Alone state) fun state => Finishing state.1 := by
  rintro call ⟨ci, lists⟩ ⟨after, lists'⟩ ⟨proper, alone⟩ finishing ran
  cases call with
  | dirty call => exact dirtyCall_finishing finishing ran
  | takeRefs got =>
    cases ran
    exact takeCapRefs_finishing finishing got
  | putRefs had =>
    obtain ⟨put, putRan, same⟩ := ok_of_map ran
    cases same
    exact putCapRefs_finishing finishing proper alone putRan
  | queueCapSnap addr =>
    obtain ⟨queued, queueRan, same⟩ := ok_of_map ran
    cases same
    exact queueCapSnap_finishing finishing queueRan
  | flushCapSnap addr =>
    obtain ⟨flushed, flushRan, same⟩ := ok_of_map ran
    cases same
    exact flushCapSnap_finishing finishing flushRan
  | flushsnapAck follows flushTid =>
    cases ran
    exact flushsnapAck_finishing finishing follows flushTid
  | changeContext snapc =>
    cases ran
    exact finishing.of_same rfl rfl
  | changeFile file =>
    cases ran
    exact finishing.of_same rfl rfl

theorem init_finishing : Finishing (SnapState.init snapc).1 := by
  constructor <;> simp [SnapState.init, CephInode.clean, writings]

theorem dropLast_of_pairwise {flags : List Bool} (last : flags.Pairwise fun earlier _ => earlier = false) :
    ∀ flag ∈ flags.dropLast, flag = false := by
  induction last with
  | nil => simp
  | cons head _ ih =>
    rename_i flag rest _
    cases rest with
    | nil => simp
    | cons next rest => simpa using ⟨head next (by simp), by simpa using ih⟩

/-- If no write ends with a cap_snap pending behind others, none but the last is writing,
none is when there is no writer, and the others are recorded and queued in time. -/
theorem capSnaps_finished {state : SnapState} (reached : Reached SnapCall.run
      (fun call state => call.Proper state ∧ call.Alone state) (.init snapc) state) :
    (∀ capsnap ∈ state.1.capSnaps.dropLast, capsnap.writing = false) ∧
    (state.1.wrRef = 0 → (∀ capsnap ∈ state.1.capSnaps, capsnap.writing = false) ∧
      havePendingCapSnap state.1 = false) ∧
    ∀ capsnap ∈ state.1.capSnaps, capsnap.Complete → capsnap.recorded.isSome ∧ capsnap.queued := by
  have finishing : Finishing state.1 :=
    @Reached.preserved _ _ _ _ _ (fun state => Finishing state.1) _ _ finishing_preserved init_finishing reached
  refine ⟨?_, ?_, ?_⟩
  · intro capsnap member
    apply dropLast_of_pairwise finishing.last
    rw [writings, ← map_dropLast]
    exact mem_map_of_mem member
  · intro noWriter
    have finished := finishing.writer noWriter
    refine ⟨finished, ?_⟩
    unfold havePendingCapSnap
    cases final : state.1.capSnaps.getLast? with
    | none => rfl
    | some capsnap => exact finished capsnap (mem_of_getLast? final)
  · exact fun capsnap member complete => ⟨finishing.recorded capsnap member complete.1, finishing.queued capsnap member complete⟩

end

/-- A snapshot during a write. -/
theorem capSnaps_finished_written : ∃ state : SnapState, state.1.capSnaps.length = 1 ∧
    (state.1.wrRef = 0 → (∀ capsnap ∈ state.1.capSnaps, capsnap.writing = false) ∧
      havePendingCapSnap state.1 = false) := by
  have taken : Reached SnapCall.run (fun call state => call.Proper state ∧ call.Alone state)
      (.init { addr := 4096, seq := 1 }) _ :=
    Reached.start.next (.takeRefs cephCapFileWr) (by decide +kernel) rfl
  have queued := taken.next (.queueCapSnap 8192) (by decide +kernel) rfl
  have put := queued.next (.putRefs cephCapFileWr) (by decide +kernel) rfl
  exact ⟨_, rfl, (capSnaps_finished put).2.1⟩

/-- A cap_snap with dirty pages is there when a write starts, and the snapshot taken
during the write waits for ever. -/
theorem capSnaps_unfinished : ∃ state : SnapState,
    Reached SnapCall.run SnapCall.Proper (.init { addr := 4096, seq := 1 }) state ∧
      state.1.wrRef = 0 ∧ havePendingCapSnap state.1 = true := by
  have read : Reached SnapCall.run SnapCall.Proper (.init { addr := 4096, seq := 1 }) _ :=
    Reached.start.next (.dirty (.readContext 7)) (by decide +kernel) rfl
  have dirtied := read.next (.dirty (.dirtyPage 7 { addr := 4096, seq := 1 })) (by decide +kernel) rfl
  have marked := dirtied.next (.dirty (.markDirty cephCapFileWr)) (by decide +kernel) rfl
  have updated := marked.next (.changeContext { addr := 16384, seq := 2 }) (by decide +kernel) rfl
  have first := updated.next (.queueCapSnap 8192) (by decide +kernel) rfl
  have writing := first.next (.takeRefs cephCapFileWr) (by decide +kernel) rfl
  have updatedAgain := writing.next (.changeContext { addr := 20480, seq := 3 }) (by decide +kernel) rfl
  have second := updatedAgain.next (.queueCapSnap 12288) (by decide +kernel) rfl
  have put := second.next (.putRefs cephCapFileWr) (by decide +kernel) rfl
  exact ⟨_, put, rfl, rfl⟩

end KmodCeph.Caps
