import KmodCeph.Caps.Issued
import KmodCeph.Lib.Latest

namespace KmodCeph.Inode

open Lib Caps List

structure FileSizes where
  size : BitVec 64
  blocks : BitVec 64
  reportedSize : BitVec 64
  truncateSeq : BitVec 32
  truncateSize : BitVec 64
  truncatePending : Nat

structure SizeUpdate where
  truncateSeq : BitVec 32
  truncateSize : BitVec 64
  size : BitVec 64

/-- `ceph_fill_file_size`, for a file that is mapped or wanted if `used` says so. It returns whether a
truncation is to be queued. -/
def cephFillFileSize (issued : CapMask) (used : Bool) (update : SizeUpdate) (ci : FileSizes) : Bool × FileSizes :=
  let (queueTrunc, ci) :=
    if cephSeqCmp update.truncateSeq ci.truncateSeq > 0 ∨ (update.truncateSeq = ci.truncateSeq ∧ ci.size < update.size) then
      let changed := { ci with
        size := update.size
        blocks := (update.size + (1 <<< 9) - 1) >>> 9
        reportedSize := update.size }
      if update.truncateSeq ≠ ci.truncateSeq then
        let changed := { changed with truncateSeq := update.truncateSeq }
        if issued &&& (cephCapFileCache ||| cephCapFileBuffer) ≠ 0 ∨ used then
          (true, { changed with truncatePending := changed.truncatePending + 1 })
        else (false, changed)
      else (false, changed)
    else (false, ci)
  if cephSeqCmp update.truncateSeq ci.truncateSeq ≥ 0 ∧ ci.truncateSize ≠ update.truncateSize then
    (queueTrunc, { ci with truncateSize := update.truncateSize })
  else (queueTrunc, ci)

/-- An update as it comes in, with the capabilities and the use of the file at that time. -/
structure SizeDelivery where
  issued : CapMask
  used : Bool
  update : SizeUpdate

def fillSizes (deliveries : List SizeDelivery) (ci : FileSizes) : FileSizes :=
  deliveries.foldl (fun ci delivery => (cephFillFileSize delivery.issued delivery.used delivery.update ci).2) ci

/-- `struct timespec` and `timespec_compare` are not part of the source. -/
@[ext]
structure FileTimes (Timespec : Type) where
  ctime : Timespec
  mtime : Timespec
  atime : Timespec
  timeWarpSeq : BitVec 32

structure TimeUpdate (Timespec : Type) where
  timeWarpSeq : BitVec 32
  ctime : Timespec
  mtime : Timespec
  atime : Timespec

def cephCapsWriting : CapMask :=
  cephCapFileExcl ||| cephCapFileWr ||| cephCapFileBuffer ||| cephCapAuthExcl ||| cephCapXattrExcl

section

variable {Timespec : Type} (timespecCompare : Timespec → Timespec → Int)

def cephFillFileTime (issued : CapMask) (timeWarpSeq : BitVec 64) (ctime mtime atime : Timespec) (ci : FileTimes Timespec) :
    FileTimes Timespec :=
  if issued &&& cephCapsWriting ≠ 0 then
    let ci := if timespecCompare ctime ci.ctime > 0 then { ci with ctime := ctime } else ci
    if cephSeqCmp (timeWarpSeq.setWidth 32) ci.timeWarpSeq > 0 then
      -- the MDS did a utimes()
      { ci with
        mtime := mtime
        atime := atime
        timeWarpSeq := timeWarpSeq.setWidth 32 }
    else if timeWarpSeq = ci.timeWarpSeq.setWidth 64 then
      let ci := if timespecCompare mtime ci.mtime > 0 then { ci with mtime := mtime } else ci
      if timespecCompare atime ci.atime > 0 then { ci with atime := atime } else ci
    else ci
  else if cephSeqCmp (timeWarpSeq.setWidth 32) ci.timeWarpSeq ≥ 0 then
    { ctime := ctime
      mtime := mtime
      atime := atime
      timeWarpSeq := timeWarpSeq.setWidth 32 }
  else ci

def fillTimes (deliveries : List (CapMask × TimeUpdate Timespec)) (ci : FileTimes Timespec) : FileTimes Timespec :=
  deliveries.foldl (fun ci delivery => cephFillFileTime timespecCompare delivery.1 (delivery.2.timeWarpSeq.setWidth 64)
    delivery.2.ctime delivery.2.mtime delivery.2.atime ci) ci

end

/-- The place of a number in the window that starts at `base`. -/
def seqPlace (base seq : BitVec 32) : Nat := (seq - base).toNat

def InWindow (base seq : BitVec 32) : Prop := seqPlace base seq < 2 ^ 31

instance (base seq : BitVec 32) : Decidable (InWindow base seq) := inferInstanceAs (Decidable (_ < _))

section

variable {base a b : BitVec 32}

theorem seqPlace_injective : seqPlace base a = seqPlace base b ↔ a = b := by
  rw [seqPlace, seqPlace]
  bv_omega

theorem cephSeqCmp_window (first : InWindow base a) (second : InWindow base b) :
    cephSeqCmp a b = (seqPlace base a : Int) - seqPlace base b := by
  have shifted : a - b = (a - base) - (b - base) := by bv_omega
  have signed : ∀ seq : BitVec 32, InWindow base seq → (seq - base).toInt = (seqPlace base seq : Int) := by
    intro seq within
    exact BitVec.toInt_eq_toNat_of_lt (by unfold InWindow seqPlace at within; omega)
  rw [cephSeqCmp, shifted, BitVec.toInt_sub, signed a first, signed b second]
  unfold InWindow at first second
  exact Int.bmod_eq_of_le (by omega) (by omega)

theorem cephSeqCmp_self : cephSeqCmp a a = 0 := by
  rw [cephSeqCmp, BitVec.sub_self]
  rfl

end

/-- What the updates come to: the latest sequence number, its truncation size, and the largest size under it. -/
structure SizesMerged (ci : FileSizes) (updates : Multiset SizeUpdate) (result : FileSizes) : Prop where
  newest : cephSeqCmp ci.truncateSeq result.truncateSeq ≤ 0 ∧
    ∀ update ∈ updates, cephSeqCmp update.truncateSeq result.truncateSeq ≤ 0
  truncateSize : ∀ update ∈ updates, update.truncateSeq = result.truncateSeq → result.truncateSize = update.truncateSize
  kept : (∀ update ∈ updates, update.truncateSeq ≠ result.truncateSeq) →
    result.truncateSeq = ci.truncateSeq ∧ result.truncateSize = ci.truncateSize
  largest : (ci.truncateSeq = result.truncateSeq → ci.size ≤ result.size) ∧
    ∀ update ∈ updates, update.truncateSeq = result.truncateSeq → update.size ≤ result.size
  reported : (ci.truncateSeq = result.truncateSeq ∧ ci.size = result.size) ∨
    ∃ update ∈ updates, update.truncateSeq = result.truncateSeq ∧ update.size = result.size

section

variable {base : BitVec 32} {issued : CapMask} {used : Bool} {update : SizeUpdate} {ci : FileSizes}
variable {deliveries : List SizeDelivery}

/-- One update: the later number takes its sizes along, and under one number the size only grows. -/
theorem cephFillFileSize_sizes (delivery : SizeDelivery) :
    let next := (cephFillFileSize delivery.issued delivery.used delivery.update ci).2
    (next.truncateSeq, next.size) =
      (if cephSeqCmp delivery.update.truncateSeq ci.truncateSeq > 0 then (delivery.update.truncateSeq, delivery.update.size)
       else if delivery.update.truncateSeq = ci.truncateSeq ∧ ci.size < delivery.update.size then
        (ci.truncateSeq, delivery.update.size)
       else (ci.truncateSeq, ci.size)) ∧
    next.truncateSize =
      if cephSeqCmp delivery.update.truncateSeq ci.truncateSeq ≥ 0 then delivery.update.truncateSize else ci.truncateSize := by
  obtain ⟨issued, used, update⟩ := delivery
  unfold cephFillFileSize
  by_cases later : cephSeqCmp update.truncateSeq ci.truncateSeq > 0
  · have differs : update.truncateSeq ≠ ci.truncateSeq := by
      intro same
      rw [same, cephSeqCmp_self] at later
      exact lt_irrefl _ later
    simp only [later, true_or, if_true, differs, ne_eq, not_false_eq_true, later.le, ge_iff_le]
    split_ifs <;> simp_all [cephSeqCmp_self]
  · simp only [later, false_or, if_false]
    by_cases grown : update.truncateSeq = ci.truncateSeq ∧ ci.size < update.size
    · simp only [grown, and_self, if_true, ne_eq, not_true_eq_false, if_false, cephSeqCmp_self]
      split_ifs <;> simp_all
    · rw [if_neg grown, if_neg grown]
      split_ifs <;> simp_all

theorem InWindow.fillFileSize {delivery : SizeDelivery} (first : InWindow base delivery.update.truncateSeq)
    (second : InWindow base ci.truncateSeq) :
    let next := (cephFillFileSize delivery.issued delivery.used delivery.update ci).2
    InWindow base next.truncateSeq ∧ toLex (seqPlace base next.truncateSeq, next.size.toNat) =
      max (toLex (seqPlace base ci.truncateSeq, ci.size.toNat))
        (toLex (seqPlace base delivery.update.truncateSeq, delivery.update.size.toNat)) := by
  have sizes := (@cephFillFileSize_sizes ci delivery).1
  have places := cephSeqCmp_window first second
  dsimp only at sizes ⊢
  generalize (cephFillFileSize delivery.issued delivery.used delivery.update ci).2 = next at sizes ⊢
  rw [max_toLex]
  split_ifs at sizes with later grown
  · obtain ⟨sameSeq, sameSize⟩ := Prod.mk.inj sizes
    rw [sameSeq, sameSize, if_pos (by omega)]
    exact ⟨first, rfl⟩
  · obtain ⟨sameSeq, sameSize⟩ := Prod.mk.inj sizes
    obtain ⟨same, larger⟩ := grown
    rw [sameSeq, sameSize, same, if_neg (lt_irrefl _), if_pos rfl, max_eq_right (BitVec.le_of_lt larger)]
    exact ⟨second, rfl⟩
  · obtain ⟨sameSeq, sameSize⟩ := Prod.mk.inj sizes
    rw [sameSeq, sameSize, if_neg (by omega)]
    refine ⟨second, ?_⟩
    split_ifs with same
    · have equal := seqPlace_injective.mp same
      have smaller : ¬ ci.size < delivery.update.size := fun less => grown ⟨equal.symm, less⟩
      rw [max_eq_left (by simpa [BitVec.lt_def] using smaller)]
    · rfl

end

section

variable {base : BitVec 32} {ci : FileSizes} {deliveries : List SizeDelivery}

theorem fillSizes_truncateSize (first : ∀ delivery ∈ deliveries, InWindow base delivery.update.truncateSeq)
    (second : InWindow base ci.truncateSeq) :
    (∃ delivery ∈ deliveries, delivery.update.truncateSeq = (fillSizes deliveries ci).truncateSeq ∧
      delivery.update.truncateSize = (fillSizes deliveries ci).truncateSize) ∨
    (∀ delivery ∈ deliveries, delivery.update.truncateSeq ≠ (fillSizes deliveries ci).truncateSeq) ∧
      ci.truncateSeq = (fillSizes deliveries ci).truncateSeq ∧ ci.truncateSize = (fillSizes deliveries ci).truncateSize := by
  induction deliveries generalizing ci with
  | nil => exact .inr ⟨nofun, rfl, rfl⟩
  | cons delivery rest ih =>
    have here := first delivery mem_cons_self
    have kept := (here.fillFileSize second).1
    obtain ⟨sizes, truncateSize⟩ := @cephFillFileSize_sizes ci delivery
    have places := cephSeqCmp_window here second
    have later := ih (fun other listed => first other (mem_cons_of_mem _ listed)) kept
    rw [fillSizes, foldl_cons, ← fillSizes]
    generalize (cephFillFileSize delivery.issued delivery.used delivery.update ci).2 = next at kept sizes truncateSize later ⊢
    rcases later with ⟨other, listed, found⟩ | ⟨absent, sameSeq, sameSize⟩
    · exact .inl ⟨other, mem_cons_of_mem _ listed, found⟩
    rw [← sameSeq, ← sameSize]
    rw [← sameSeq] at absent
    by_cases old : cephSeqCmp delivery.update.truncateSeq ci.truncateSeq ≥ 0
    · -- what has the number now has it from this update
      rw [if_pos old] at truncateSize
      refine .inl ⟨delivery, mem_cons_self, ?_, truncateSize.symm⟩
      split_ifs at sizes with newer grown
      · exact (congrArg Prod.fst sizes).symm
      · exact grown.1.trans (congrArg Prod.fst sizes).symm
      · have same : delivery.update.truncateSeq = ci.truncateSeq := (@seqPlace_injective base _ _).mp (by omega)
        exact same.trans (congrArg Prod.fst sizes).symm
    · rw [if_neg old] at truncateSize
      have unlike : delivery.update.truncateSeq ≠ ci.truncateSeq := fun same => old (by rw [same, cephSeqCmp_self])
      rw [if_neg (by omega), if_neg fun both => unlike both.1] at sizes
      have seq := congrArg Prod.fst sizes
      dsimp only at seq
      refine .inr ⟨fun other listed => ?_, seq.symm, truncateSize.symm⟩
      rcases List.mem_cons.mp listed with rfl | listed
      · rw [seq]
        exact unlike
      · exact absent other listed

theorem fillSizes_greatest (first : ∀ delivery ∈ deliveries, InWindow base delivery.update.truncateSeq)
    (second : InWindow base ci.truncateSeq) :
    InWindow base (fillSizes deliveries ci).truncateSeq ∧
    toLex (seqPlace base (fillSizes deliveries ci).truncateSeq, (fillSizes deliveries ci).size.toNat) =
      (deliveries.map fun delivery => toLex (seqPlace base delivery.update.truncateSeq, delivery.update.size.toNat)).foldl max
        (toLex (seqPlace base ci.truncateSeq, ci.size.toNat)) :=
  @foldl_view _ _ _ _ _ (fun ci : FileSizes => toLex (seqPlace base ci.truncateSeq, ci.size.toNat)) _ _
    (fun ci => InWindow base ci.truncateSeq) (fun delivery listed _ within => (first delivery listed).fillFileSize within) _ second

/-- Where the updates of each number agree on the truncation size, what they come to is merged. -/
theorem fillSizes_merged {updates : Multiset SizeUpdate}
    (delivered : ∀ update, update ∈ deliveries.map SizeDelivery.update ↔ update ∈ updates)
    (first : ∀ update ∈ updates, InWindow base update.truncateSeq) (second : InWindow base ci.truncateSeq)
    (determined : ∀ update ∈ updates, ∀ other ∈ updates, update.truncateSeq = other.truncateSeq →
      update.truncateSize = other.truncateSize) : SizesMerged ci updates (fillSizes deliveries ci) := by
  have listed : ∀ delivery ∈ deliveries, delivery.update ∈ updates :=
    fun delivery member => (delivered _).mp (mem_map_of_mem member)
  have each : ∀ delivery ∈ deliveries, InWindow base delivery.update.truncateSeq :=
    fun delivery member => first _ (listed delivery member)
  have taken : ∀ update ∈ updates, ∃ delivery ∈ deliveries, delivery.update = update :=
    fun update member => List.mem_map.mp ((delivered update).mpr member)
  obtain ⟨within, view⟩ := fillSizes_greatest each second
  have sizes := fillSizes_truncateSize each second
  obtain ⟨attained, above⟩ := foldl_max_isGreatest (toLex (seqPlace base ci.truncateSeq, ci.size.toNat))
    (deliveries.map fun delivery => toLex (seqPlace base delivery.update.truncateSeq, delivery.update.size.toNat))
  rw [← view] at attained above
  generalize fillSizes deliveries ci = result at within sizes attained above ⊢
  have least := Prod.Lex.toLex_le_toLex.mp (above (.inl rfl))
  have bounds : ∀ update ∈ updates, seqPlace base update.truncateSeq < seqPlace base result.truncateSeq ∨
      seqPlace base update.truncateSeq = seqPlace base result.truncateSeq ∧ update.size.toNat ≤ result.size.toNat := by
    intro update member
    obtain ⟨delivery, delivered, rfl⟩ := taken update member
    exact Prod.Lex.toLex_le_toLex.mp (above (.inr (mem_map_of_mem delivered)))
  refine ⟨⟨?_, fun update member => ?_⟩, fun update member same => ?_, fun absent => ?_, ⟨fun same => ?_, fun update member same => ?_⟩, ?_⟩
  · rw [cephSeqCmp_window second within]
    omega
  · have bound := bounds update member
    rw [cephSeqCmp_window (first update member) within]
    omega
  · rcases sizes with ⟨delivery, member', number, size⟩ | ⟨absent, -⟩
    · rw [← size]
      exact determined _ (listed delivery member') _ member (number.trans same.symm)
    · obtain ⟨delivery, delivered, rfl⟩ := taken update member
      exact absurd same (absent delivery delivered)
  · rcases sizes with ⟨delivery, member, number, -⟩ | ⟨-, number, size⟩
    · exact absurd number (absent _ (listed delivery member))
    · exact ⟨number.symm, size.symm⟩
  · rw [same] at least
    exact BitVec.le_def.mpr (by omega)
  · have bound := bounds update member
    rw [same] at bound
    exact BitVec.le_def.mpr (by omega)
  · rcases attained with own | reported
    · obtain ⟨number, size⟩ := Prod.mk.inj (toLex_inj.mp own)
      exact .inl ⟨seqPlace_injective.mp number.symm, BitVec.eq_of_toNat_eq size.symm⟩
    · obtain ⟨delivery, member, same⟩ := List.mem_map.mp reported
      obtain ⟨number, size⟩ := Prod.mk.inj (toLex_inj.mp same)
      exact .inr ⟨_, listed delivery member, seqPlace_injective.mp number, BitVec.eq_of_toNat_eq size⟩

theorem fillSizes_congr {others : List SizeDelivery}
    (same : ∀ update, update ∈ deliveries.map SizeDelivery.update ↔ update ∈ others.map SizeDelivery.update)
    (first : ∀ update ∈ deliveries.map SizeDelivery.update, InWindow base update.truncateSeq) (second : InWindow base ci.truncateSeq) :
    (fillSizes deliveries ci).truncateSeq = (fillSizes others ci).truncateSeq ∧
      (fillSizes deliveries ci).size = (fillSizes others ci).size := by
  have view := (fillSizes_greatest (fun delivery listed => first _ (mem_map_of_mem listed)) second).2
  have view' := (fillSizes_greatest (fun delivery listed => first _ ((same _).mpr (mem_map_of_mem listed))) second).2
  let report := fun update : SizeUpdate => toLex (seqPlace base update.truncateSeq, update.size.toNat)
  have reports : ∀ value, value ∈ deliveries.map (fun delivery => report delivery.update) ↔
      value ∈ others.map (fun delivery => report delivery.update) := mem_map_congr same
  rw [foldl_max_congr reports, ← view'] at view
  obtain ⟨number, size⟩ := Prod.mk.inj (toLex_inj.mp view)
  exact ⟨seqPlace_injective.mp number, BitVec.eq_of_toNat_eq size⟩

theorem SizesMerged.truncateSize_unique {updates : Multiset SizeUpdate} {result other : FileSizes}
    (merged : SizesMerged ci updates result) (merged' : SizesMerged ci updates other)
    (same : result.truncateSeq = other.truncateSeq) : result.truncateSize = other.truncateSize := by
  by_cases present : ∃ update ∈ updates, update.truncateSeq = result.truncateSeq
  · obtain ⟨update, member, number⟩ := present
    rw [merged.truncateSize update member number, merged'.truncateSize update member (number.trans same)]
  · have absent : ∀ update ∈ updates, update.truncateSeq ≠ result.truncateSeq :=
      fun update member number => present ⟨update, member, number⟩
    rw [(merged.kept absent).2, (merged'.kept (same ▸ absent)).2]

end

section

variable {Timespec : Type} [LinearOrder Timespec] {timespecCompare : Timespec → Timespec → Int} {base : BitVec 32}
variable {ci : FileTimes Timespec} {issued : CapMask} {update : TimeUpdate Timespec}
variable {deliveries : List (CapMask × TimeUpdate Timespec)}

/-- One update: a later number brings its times, and otherwise each only grows. -/
theorem cephFillFileTime_times (compares : ∀ lhs rhs, 0 < timespecCompare lhs rhs ↔ rhs < lhs)
    (held : issued &&& cephCapsWriting ≠ 0) (first : InWindow base update.timeWarpSeq) (second : InWindow base ci.timeWarpSeq) :
    let next := cephFillFileTime timespecCompare issued (update.timeWarpSeq.setWidth 64) update.ctime update.mtime update.atime ci
    InWindow base next.timeWarpSeq ∧ next.ctime = max ci.ctime update.ctime ∧
    toLex (seqPlace base next.timeWarpSeq, next.mtime) =
      max (toLex (seqPlace base ci.timeWarpSeq, ci.mtime)) (toLex (seqPlace base update.timeWarpSeq, update.mtime)) ∧
    toLex (seqPlace base next.timeWarpSeq, next.atime) =
      max (toLex (seqPlace base ci.timeWarpSeq, ci.atime)) (toLex (seqPlace base update.timeWarpSeq, update.atime)) := by
  have places := cephSeqCmp_window first second
  have narrow : (update.timeWarpSeq.setWidth 64).setWidth 32 = update.timeWarpSeq := by
    rw [BitVec.setWidth_setWidth_of_le _ (by decide), BitVec.setWidth_eq]
  have wide : update.timeWarpSeq.setWidth 64 = ci.timeWarpSeq.setWidth 64 ↔ update.timeWarpSeq = ci.timeWarpSeq := by
    refine ⟨fun same => ?_, congrArg _⟩
    bv_omega
  have latest : ∀ old new : Timespec, (if timespecCompare new old > 0 then new else old) = max old new := by
    intro old new
    by_cases newer : old < new
    · rw [if_pos ((compares new old).mpr newer), max_eq_right newer.le]
    · rw [if_neg fun positive => newer ((compares new old).mp positive), max_eq_left (not_lt.mp newer)]
  have result : cephFillFileTime timespecCompare issued (update.timeWarpSeq.setWidth 64) update.ctime update.mtime update.atime ci =
      if cephSeqCmp update.timeWarpSeq ci.timeWarpSeq > 0 then
        ⟨max ci.ctime update.ctime, update.mtime, update.atime, update.timeWarpSeq⟩
      else if update.timeWarpSeq = ci.timeWarpSeq then
        ⟨max ci.ctime update.ctime, max ci.mtime update.mtime, max ci.atime update.atime, ci.timeWarpSeq⟩
      else ⟨max ci.ctime update.ctime, ci.mtime, ci.atime, ci.timeWarpSeq⟩ := by
    rw [cephFillFileTime, if_pos held, narrow]
    simp only [← latest]
    by_cases newest : timespecCompare update.ctime ci.ctime > 0
    · simp only [if_pos newest, wide]
      split_ifs <;> rfl
    · simp only [if_neg newest, wide]
      split_ifs <;> rfl
  rw [result, max_toLex, max_toLex]
  by_cases later : cephSeqCmp update.timeWarpSeq ci.timeWarpSeq > 0
  · have less : seqPlace base ci.timeWarpSeq < seqPlace base update.timeWarpSeq := by omega
    simp only [if_pos later, if_pos less]
    exact ⟨first, trivial, trivial, trivial⟩
  · have notLess : ¬ seqPlace base ci.timeWarpSeq < seqPlace base update.timeWarpSeq := by omega
    simp only [if_neg later, if_neg notLess, seqPlace_injective, eq_comm (a := ci.timeWarpSeq)]
    split_ifs
    · exact ⟨second, rfl, rfl, rfl⟩
    · exact ⟨second, rfl, rfl, rfl⟩

theorem fillTimes_views (compares : ∀ lhs rhs, 0 < timespecCompare lhs rhs ↔ rhs < lhs)
    (held : ∀ delivery ∈ deliveries, delivery.1 &&& cephCapsWriting ≠ 0)
    (first : ∀ delivery ∈ deliveries, InWindow base delivery.2.timeWarpSeq) (second : InWindow base ci.timeWarpSeq) :
    (fillTimes timespecCompare deliveries ci).ctime = (deliveries.map fun delivery => delivery.2.ctime).foldl max ci.ctime ∧
    toLex (seqPlace base (fillTimes timespecCompare deliveries ci).timeWarpSeq, (fillTimes timespecCompare deliveries ci).mtime) =
      (deliveries.map fun delivery => toLex (seqPlace base delivery.2.timeWarpSeq, delivery.2.mtime)).foldl max
        (toLex (seqPlace base ci.timeWarpSeq, ci.mtime)) ∧
    toLex (seqPlace base (fillTimes timespecCompare deliveries ci).timeWarpSeq, (fillTimes timespecCompare deliveries ci).atime) =
      (deliveries.map fun delivery => toLex (seqPlace base delivery.2.timeWarpSeq, delivery.2.atime)).foldl max
        (toLex (seqPlace base ci.timeWarpSeq, ci.atime)) := by
  have step := fun delivery listed ci within => @cephFillFileTime_times _ _ timespecCompare base ci delivery.1 delivery.2 compares
    (held delivery listed) (first delivery listed) within
  refine ⟨?_, ?_, ?_⟩
  · exact (foldl_view (fun ci => InWindow base ci.timeWarpSeq)
      (fun delivery listed ci within => ⟨(step delivery listed ci within).1, (step delivery listed ci within).2.1⟩) second).2
  · exact (@foldl_view _ _ _ _ _ (fun ci : FileTimes Timespec => toLex (seqPlace base ci.timeWarpSeq, ci.mtime)) _ _
      (fun ci => InWindow base ci.timeWarpSeq)
      (fun delivery listed ci within => ⟨(step delivery listed ci within).1, (step delivery listed ci within).2.2.1⟩) _ second).2
  · exact (@foldl_view _ _ _ _ _ (fun ci : FileTimes Timespec => toLex (seqPlace base ci.timeWarpSeq, ci.atime)) _ _
      (fun ci => InWindow base ci.timeWarpSeq)
      (fun delivery listed ci within => ⟨(step delivery listed ci within).1, (step delivery listed ci within).2.2.2⟩) _ second).2

/-- The times after updates do not depend on their order and repetitions. -/
theorem fillTimes_congr {updates : Multiset (TimeUpdate Timespec)} {others : List (CapMask × TimeUpdate Timespec)}
    (compares : ∀ lhs rhs, 0 < timespecCompare lhs rhs ↔ rhs < lhs)
    (delivered : ∀ update, update ∈ deliveries.map Prod.snd ↔ update ∈ updates)
    (delivered' : ∀ update, update ∈ others.map Prod.snd ↔ update ∈ updates)
    (held : ∀ delivery ∈ deliveries ++ others, delivery.1 &&& cephCapsWriting ≠ 0)
    (first : ∀ update ∈ updates, InWindow base update.timeWarpSeq) (second : InWindow base ci.timeWarpSeq) :
    fillTimes timespecCompare deliveries ci = fillTimes timespecCompare others ci := by
  have same : ∀ {α : Type} (report : TimeUpdate Timespec → α) (value : α),
      value ∈ deliveries.map (fun delivery => report delivery.2) ↔ value ∈ others.map (fun delivery => report delivery.2) :=
    fun report => mem_map_congr fun update => (delivered update).trans (delivered' update).symm
  obtain ⟨ctime, mtime, atime⟩ := fillTimes_views compares
    (fun delivery listed => held delivery (mem_append_left _ listed))
    (fun delivery listed => first _ ((delivered _).mp (mem_map_of_mem listed))) second
  obtain ⟨ctime', mtime', atime'⟩ := fillTimes_views compares
    (fun delivery listed => held delivery (mem_append_right _ listed))
    (fun delivery listed => first _ ((delivered' _).mp (mem_map_of_mem listed))) second
  rw [foldl_max_congr (same TimeUpdate.ctime), ← ctime'] at ctime
  rw [foldl_max_congr (same fun update => toLex (seqPlace base update.timeWarpSeq, update.mtime)), ← mtime'] at mtime
  rw [foldl_max_congr (same fun update => toLex (seqPlace base update.timeWarpSeq, update.atime)), ← atime'] at atime
  obtain ⟨number, mtime⟩ := Prod.mk.inj (toLex_inj.mp mtime)
  obtain ⟨-, atime⟩ := Prod.mk.inj (toLex_inj.mp atime)
  exact FileTimes.ext ctime mtime atime (seqPlace_injective.mp number)

end

section

variable {Timespec : Type} {timespecCompare order : Timespec → Timespec → Int} {normalised : Timespec → Prop}
variable {ci : FileTimes Timespec} {deliveries : List (CapMask × TimeUpdate Timespec)}

def FileTimes.All (normalised : Timespec → Prop) (ci : FileTimes Timespec) : Prop :=
  normalised ci.ctime ∧ normalised ci.mtime ∧ normalised ci.atime

def TimeUpdate.All (normalised : Timespec → Prop) (update : TimeUpdate Timespec) : Prop :=
  normalised update.ctime ∧ normalised update.mtime ∧ normalised update.atime

/-- Two comparisons that agree on what is compared make the same of an update, and of all of them. -/
theorem cephFillFileTime_agrees {issued : CapMask} {timeWarpSeq : BitVec 64} {update : TimeUpdate Timespec}
    (agrees : ∀ lhs rhs, normalised lhs → normalised rhs → (timespecCompare lhs rhs > 0 ↔ order lhs rhs > 0))
    (normal : update.All normalised) (start : ci.All normalised) :
    cephFillFileTime timespecCompare issued timeWarpSeq update.ctime update.mtime update.atime ci =
        cephFillFileTime order issued timeWarpSeq update.ctime update.mtime update.atime ci ∧
      (cephFillFileTime order issued timeWarpSeq update.ctime update.mtime update.atime ci).All normalised := by
  obtain ⟨ctime, mtime, atime⟩ := normal
  obtain ⟨ctime', mtime', atime'⟩ := start
  unfold cephFillFileTime
  constructor
  · by_cases newest : order update.ctime ci.ctime > 0 <;> by_cases later : order update.mtime ci.mtime > 0 <;>
      simp only [agrees _ _ ctime ctime', agrees _ _ mtime mtime', agrees _ _ atime atime', newest, later, if_true, if_false]
  · dsimp only
    split_ifs <;> exact ⟨by assumption, by assumption, by assumption⟩

theorem fillTimes_agrees
    (agrees : ∀ lhs rhs, normalised lhs → normalised rhs → (timespecCompare lhs rhs > 0 ↔ order lhs rhs > 0))
    (normal : ∀ delivery ∈ deliveries, delivery.2.All normalised) (start : ci.All normalised) :
    fillTimes timespecCompare deliveries ci = fillTimes order deliveries ci := by
  induction deliveries generalizing ci with
  | nil => simp only [fillTimes, foldl_nil]
  | cons delivery rest ih =>
    obtain ⟨same, next⟩ := cephFillFileTime_agrees agrees (normal delivery mem_cons_self) start
    rw [fillTimes, fillTimes, foldl_cons, foldl_cons, same]
    exact ih (fun other listed => normal other (mem_cons_of_mem _ listed)) next

variable [LinearOrder Timespec]

/-- However updates come in, in which order and how often, they leave the same sizes, and the same times while what
may write is held. `timespec_compare` is the order of times that are normalised, which `ceph_decode_timespec` does not
make of what it reads; of others nothing is said. -/
theorem mdsUpdates_merge
    (compares : ∀ lhs rhs, normalised lhs → normalised rhs → (0 < timespecCompare lhs rhs ↔ rhs < lhs))
    (sizes : FileSizes) (sizeUpdates : Multiset SizeUpdate) (times : FileTimes Timespec)
    (timeUpdates : Multiset (TimeUpdate Timespec)) (truncateBase timeWarpBase : BitVec 32)
    (sizesWithin : InWindow truncateBase sizes.truncateSeq ∧
      ∀ update ∈ sizeUpdates, InWindow truncateBase update.truncateSeq)
    (determined : ∀ update ∈ sizeUpdates, ∀ other ∈ sizeUpdates, update.truncateSeq = other.truncateSeq →
      update.truncateSize = other.truncateSize)
    (timesWithin : InWindow timeWarpBase times.timeWarpSeq ∧ ∀ update ∈ timeUpdates, InWindow timeWarpBase update.timeWarpSeq)
    (timesNormal : times.All normalised ∧ ∀ update ∈ timeUpdates, update.All normalised) :
    (∀ deliveries : List SizeDelivery, (∀ update, update ∈ deliveries.map SizeDelivery.update ↔ update ∈ sizeUpdates) →
      SizesMerged sizes sizeUpdates (fillSizes deliveries sizes) ∧
      ∀ others : List SizeDelivery, (∀ update, update ∈ others.map SizeDelivery.update ↔ update ∈ sizeUpdates) →
        (fillSizes others sizes).truncateSeq = (fillSizes deliveries sizes).truncateSeq ∧
        (fillSizes others sizes).truncateSize = (fillSizes deliveries sizes).truncateSize ∧
        (fillSizes others sizes).size = (fillSizes deliveries sizes).size) ∧
    ∀ deliveries others : List (CapMask × TimeUpdate Timespec),
      (∀ update, update ∈ deliveries.map Prod.snd ↔ update ∈ timeUpdates) →
      (∀ update, update ∈ others.map Prod.snd ↔ update ∈ timeUpdates) →
      (∀ delivery ∈ deliveries ++ others, delivery.1 &&& cephCapsWriting ≠ 0) →
      fillTimes timespecCompare others times = fillTimes timespecCompare deliveries times := by
  constructor
  · intro deliveries delivered
    have merged := fillSizes_merged delivered sizesWithin.2 sizesWithin.1 determined
    refine ⟨merged, fun others delivered' => ?_⟩
    have merged' := fillSizes_merged delivered' sizesWithin.2 sizesWithin.1 determined
    obtain ⟨number, size⟩ := fillSizes_congr (fun update => (delivered' update).trans (delivered update).symm)
      (fun update listed => sizesWithin.2 update ((delivered' update).mp listed)) sizesWithin.1
    exact ⟨number, merged'.truncateSize_unique merged number, size⟩
  · intro deliveries others delivered delivered' held
    have agrees : ∀ lhs rhs, normalised lhs → normalised rhs →
        (timespecCompare lhs rhs > 0 ↔ (if rhs < lhs then 1 else 0 : Int) > 0) := by
      intro lhs rhs normal normal'
      refine (compares lhs rhs normal normal').trans ?_
      split_ifs with later <;> simp [later]
    have normal {deliveries : List (CapMask × TimeUpdate Timespec)}
        (delivered : ∀ update, update ∈ deliveries.map Prod.snd ↔ update ∈ timeUpdates) :
        ∀ delivery ∈ deliveries, delivery.2.All normalised :=
      fun delivery listed => timesNormal.2 _ ((delivered _).mp (mem_map_of_mem listed))
    rw [fillTimes_agrees agrees (normal delivered) timesNormal.1, fillTimes_agrees agrees (normal delivered') timesNormal.1]
    refine (fillTimes_congr (fun lhs rhs => ?_) delivered delivered' held timesWithin.2 timesWithin.1).symm
    split_ifs with later <;> simp [later]

end

/-- `timespec_compare` of seconds and nanoseconds, with the difference of the latter as an `int`. -/
def secondsCompare (lhs rhs : Int ×ₗ Int) : Int :=
  if (ofLex lhs).1 < (ofLex rhs).1 then -1
  else if (ofLex lhs).1 > (ofLex rhs).1 then 1
  else ((ofLex lhs).2 - (ofLex rhs).2).bmod (2 ^ 32)

def NanosecondsBelow (time : Int ×ₗ Int) : Prop :=
  0 ≤ (ofLex time).2 ∧ (ofLex time).2 < 10 ^ 9

theorem secondsCompare_pos (lhs rhs : Int ×ₗ Int) (normal : NanosecondsBelow lhs) (normal' : NanosecondsBelow rhs) :
    0 < secondsCompare lhs rhs ↔ rhs < lhs := by
  unfold NanosecondsBelow at normal normal'
  have small : ((ofLex lhs).2 - (ofLex rhs).2).bmod (2 ^ 32) = (ofLex lhs).2 - (ofLex rhs).2 :=
    Int.bmod_eq_of_le (by omega) (by omega)
  rw [Prod.Lex.lt_iff, secondsCompare, small]
  split_ifs <;> lia

/-- A truncation crosses a late report of the old size. -/
theorem mdsUpdates_merge_truncated :
    let late : SizeDelivery := ⟨cephCapFileWr, true, ⟨1, 0, 8192⟩⟩
    let truncated : SizeDelivery := ⟨cephCapFileCache, false, ⟨2, 4096, 4096⟩⟩
    let touched : CapMask × TimeUpdate (Int ×ₗ Int) := (cephCapFileWr, ⟨2, toLex (9, 0), toLex (5, 0), toLex (5, 0)⟩)
    let written : CapMask × TimeUpdate (Int ×ₗ Int) := (cephCapFileExcl, ⟨1, toLex (7, 0), toLex (7, 0), toLex (6, 0)⟩)
    let sizes : FileSizes := ⟨100, 1, 100, 1, 0, 0⟩
    let times : FileTimes (Int ×ₗ Int) := ⟨toLex (1, 0), toLex (1, 0), toLex (1, 0), 1⟩
    (fillSizes [truncated, late, truncated] sizes).size = (fillSizes [late, truncated] sizes).size ∧
    fillTimes secondsCompare [touched, written] times = fillTimes secondsCompare [written, touched, written] times := by
  intro late truncated touched written sizes times
  have normal : times.All NanosecondsBelow ∧ ∀ update ∈ ({touched.2, written.2} : Multiset _), update.All NanosecondsBelow := by
    refine ⟨⟨⟨by decide, by decide⟩, ⟨by decide, by decide⟩, by decide, by decide⟩, fun update listed => ?_⟩
    rcases Multiset.mem_cons.mp listed with rfl | listed
    · exact ⟨⟨by decide, by decide⟩, ⟨by decide, by decide⟩, by decide, by decide⟩
    · obtain rfl := Multiset.mem_singleton.mp listed
      exact ⟨⟨by decide, by decide⟩, ⟨by decide, by decide⟩, by decide, by decide⟩
  have merge := mdsUpdates_merge secondsCompare_pos sizes {late.update, truncated.update} times {touched.2, written.2} 1 1
    ⟨by decide, by decide⟩ (by decide) ⟨by decide, by decide⟩ normal
  refine ⟨((merge.1 [late, truncated] (by simp)).2 [truncated, late, truncated] (by simp)).2.2,
    merge.2 [written, touched, written] [touched, written] (by simp) (by simp) (by decide)⟩

end KmodCeph.Inode
