import KmodCeph.Osdmap.Striping

namespace KmodCeph.Osdmap

/-- So many leading bytes of the object are those below the offset in the file. -/
structure FileLayout.Leading (layout : FileLayout) (ono size count : Nat) : Prop where
  inside : count ≤ layout.objectSize.toNat
  below : ∀ y < layout.objectSize.toNat, y < count ↔ layout.fileOffset ono y < size

/-- The size is before the object, behind it or in the stripe unit that is there at the offset, or an object is in one
piece. -/
def FileLayout.Spares (layout : FileLayout) (ono size off : Nat) : Prop :=
  layout.stripeCount = 1 ∨ size ≤ layout.fileOffset ono 0 ∨
    layout.fileOffset ono (layout.objectSize.toNat - 1) < size ∨
    off - off % layout.stripeUnit.toNat ≤ size ∧
      size ≤ off - off % layout.stripeUnit.toNat + layout.stripeUnit.toNat

section

variable {unit gap rows row first size count : Nat}

/-- Where a byte is if there is a gap behind each unit. -/
def spread (unit gap y : Nat) : Nat := y + y / unit * gap

theorem spread_le {y : Nat} (inside : y < rows * unit) :
    spread unit gap y ≤ spread unit gap (rows * unit - 1) := by
  have quotients : y / unit ≤ (rows * unit - 1) / unit := Nat.div_le_div_right (by omega)
  exact Nat.add_le_add (by omega) (Nat.mul_le_mul_right _ quotients)

theorem spread_last (positive : 0 < unit) (nonempty : 0 < rows) :
    spread unit gap (rows * unit - 1) = rows * unit - 1 + (rows - 1) * gap := by
  obtain ⟨earlier, rfl⟩ := Nat.exists_eq_succ_of_ne_zero nonempty.ne'
  have quotient : ((earlier + 1) * unit - 1) / unit = earlier := by
    refine Nat.div_eq_of_lt_le ?_ ?_
    · lia
    · rw [Nat.succ_mul]
      omega
  rw [spread, quotient, Nat.succ_sub_one]

/-- What is counted from a place in row `row` as if there were no gaps. -/
def counted (unit gap rows row first size : Nat) : Nat :=
  if size ≤ first + row * gap then 0 else min (size - (first + row * gap)) (rows * unit)

theorem counted_inside (positive : 0 < unit) (gaps : 0 < gap)
    (below : ∀ y < rows * unit, y < counted unit gap rows row first size ↔ first + spread unit gap y < size)
    (behind : first < size) (before : size ≤ first + spread unit gap (rows * unit - 1)) (nonempty : 0 < rows) :
    first + row * (gap + unit) ≤ size ∧ size ≤ first + row * (gap + unit) + unit := by
  have long : 0 < rows * unit := Nat.mul_pos nonempty positive
  have start := (below 0 long).mpr (by rw [spread, Nat.zero_div, Nat.zero_mul]; exact behind)
  have last := mt (below (rows * unit - 1) (by lia)).mp (by omega)
  unfold counted at below start last
  split at start
  next => exact absurd start (Nat.lt_irrefl 0)
  next some =>
    rw [if_neg some] at last below
    have cut : min (size - (first + row * gap)) (rows * unit) = size - (first + row * gap) := by lia
    rw [cut] at start last below
    generalize made : size - (first + row * gap) = t at start last below
    -- The byte that is counted last is below the size, and the next one is not.
    have next := mt (below t (by lia)).mpr (Nat.lt_irrefl t)
    have counts := (below (t - 1) (by lia)).mp (by lia)
    unfold spread at next counts
    have atLeast : row ≤ t / unit := Nat.le_of_mul_le_mul_right (by lia) gaps
    have atMost : (t - 1) / unit ≤ row := Nat.le_of_mul_le_mul_right (by lia) gaps
    have low : row * unit ≤ t := (Nat.le_div_iff_mul_le positive).mp atLeast
    have high : t - 1 < (row + 1) * unit := (Nat.div_lt_iff_lt_mul positive).mp (Nat.lt_succ_of_le atMost)
    lia

theorem counted_here (positive : 0 < unit) (inside : row < rows) (low : first + row * (gap + unit) ≤ size)
    (high : size ≤ first + row * (gap + unit) + unit) {y : Nat} :
    y < counted unit gap rows row first size ↔ first + spread unit gap y < size := by
  have room : (row + 1) * unit ≤ rows * unit := Nat.mul_le_mul_right _ inside
  have count : counted unit gap rows row first size = size - (first + row * gap) := by
    unfold counted
    split
    · lia
    · lia
  rw [count, spread]
  rcases Nat.lt_trichotomy (y / unit) row with less | same | more
  · have upper : y < row * unit := (Nat.div_lt_iff_lt_mul positive).mp less
    have gaps : y / unit * gap ≤ row * gap := Nat.mul_le_mul_right _ less.le
    lia
  · rw [same]
    lia
  · have lower : (row + 1) * unit ≤ y := (Nat.le_div_iff_mul_le positive).mp more
    have gaps : (row + 1) * gap ≤ y / unit * gap := Nat.mul_le_mul_right _ more
    lia

theorem counted_iff (positive : 0 < unit) (inside : row < rows) :
    (∀ y < rows * unit, y < counted unit gap rows row first size ↔ first + spread unit gap y < size) ↔
      gap = 0 ∨ size ≤ first ∨ first + spread unit gap (rows * unit - 1) < size ∨
        first + row * (gap + unit) ≤ size ∧ size ≤ first + row * (gap + unit) + unit := by
  have nonempty : 0 < rows := Nat.zero_lt_of_lt inside
  constructor
  · intro below
    by_cases gaps : gap = 0
    · exact .inl gaps
    by_cases behind : size ≤ first
    · exact .inr (.inl behind)
    by_cases before : first + spread unit gap (rows * unit - 1) < size
    · exact .inr (.inr (.inl before))
    exact .inr (.inr (.inr (counted_inside positive (Nat.pos_of_ne_zero gaps) below (by omega) (by omega) nonempty)))
  · rintro (none | before | behind | ⟨low, high⟩) y within
    · subst none
      unfold counted spread
      split
      · lia
      · lia
    · unfold counted
      lia
    · have whole := @spread_le unit gap rows y within
      have last := @spread_last unit gap rows positive nonempty
      have gaps : row * gap ≤ (rows - 1) * gap := Nat.mul_le_mul_right _ (by lia)
      unfold counted
      split
      · lia
      · lia
    · exact counted_here positive inside low high

end

section

variable {layout : FileLayout}

theorem fileOffset_eq_spread (accepted : layout.Accepted) (ono y : Nat) :
    layout.fileOffset ono y = layout.fileOffset ono 0 +
      spread layout.stripeUnit.toNat ((layout.stripeCount.toNat - 1) * layout.stripeUnit.toNat) y := by
  obtain ⟨others, count⟩ := Nat.exists_eq_succ_of_ne_zero accepted.stripeCount_pos.ne'
  have whole := Nat.div_add_mod' y layout.stripeUnit.toNat
  unfold FileLayout.fileOffset spread
  dsimp only
  rw [count, Nat.succ_sub_one, Nat.zero_div, Nat.zero_mod, Nat.add_zero]
  generalize y / layout.stripeUnit.toNat = q at whole ⊢
  generalize y % layout.stripeUnit.toNat = o at whole ⊢
  rw [← whole, Nat.succ_eq_add_one]
  ring

/-- The row of stripe units of its object that an offset is in. -/
def FileLayout.row (layout : FileLayout) (off : UInt64) : Nat :=
  layout.block off / layout.stripeCount.toNat % (layout.objectSize.toNat / layout.stripeUnit.toNat)

theorem mapping_base (accepted : layout.Accepted) {off : UInt64} (small : off.toNat < layout.stripeUnit.toNat * 2 ^ 32)
    (len : UInt64) :
    off.toNat = layout.fileOffset (cephCalcFileObjectMapping layout off len).ono.toNat 0 +
      (cephCalcFileObjectMapping layout off len).oxoff.toNat +
      layout.row off * ((layout.stripeCount.toNat - 1) * layout.stripeUnit.toNat) := by
  have unit := accepted.stripeUnit_pos
  have recovered := (fileOffset_mapping_eq_iff accepted off len).mpr small
  have inUnit := Nat.mod_lt off.toNat unit
  have row : (off.toNat % layout.stripeUnit.toNat + layout.row off * layout.stripeUnit.toNat) / layout.stripeUnit.toNat =
      layout.row off := by
    rw [Nat.add_mul_div_right _ _ unit, Nat.div_eq_of_lt inUnit, Nat.zero_add]
  have place : (cephCalcFileObjectMapping layout off len).oxoff.toNat =
      off.toNat % layout.stripeUnit.toNat + layout.row off * layout.stripeUnit.toNat := toNat_oxoff accepted off len
  rw [fileOffset_eq_spread accepted, spread, place, row] at recovered
  lia

/-- What is counted from the place of the offset are the leading bytes of the object exactly if the size is spared. -/
theorem leading_iff (accepted : layout.Accepted) (whole : layout.stripeUnit.toNat ∣ layout.objectSize.toNat) {off : UInt64}
    (small : off.toNat < layout.stripeUnit.toNat * 2 ^ 32) (len : UInt64) (size : Nat) :
    layout.Leading (cephCalcFileObjectMapping layout off len).ono.toNat size
        (if size ≤ off.toNat - (cephCalcFileObjectMapping layout off len).oxoff.toNat then 0
          else min (size - (off.toNat - (cephCalcFileObjectMapping layout off len).oxoff.toNat)) layout.objectSize.toNat) ↔
      layout.Spares (cephCalcFileObjectMapping layout off len).ono.toNat size off.toNat := by
  have unit := accepted.stripeUnit_pos
  have base := mapping_base accepted small len
  have rows : layout.objectSize.toNat = layout.objectSize.toNat / layout.stripeUnit.toNat * layout.stripeUnit.toNat :=
    (Nat.div_mul_cancel whole).symm
  have inside : layout.row off < layout.objectSize.toNat / layout.stripeUnit.toNat :=
    Nat.mod_lt _ accepted.suPerObject_pos
  have place : (cephCalcFileObjectMapping layout off len).oxoff.toNat =
      off.toNat % layout.stripeUnit.toNat + layout.row off * layout.stripeUnit.toNat := toNat_oxoff accepted off len
  have one : (layout.stripeCount.toNat - 1) * layout.stripeUnit.toNat = 0 ↔ layout.stripeCount = 1 := by
    have count := accepted.stripeCount_pos
    rw [Nat.mul_eq_zero, or_iff_left unit.ne', ← UInt32.toNat_inj]
    change _ ↔ layout.stripeCount.toNat = 1
    lia
  have iff := @counted_iff layout.stripeUnit.toNat ((layout.stripeCount.toNat - 1) * layout.stripeUnit.toNat)
    (layout.objectSize.toNat / layout.stripeUnit.toNat) (layout.row off)
    (layout.fileOffset (cephCalcFileObjectMapping layout off len).ono.toNat 0) size unit inside
  rw [← rows, one] at iff
  generalize (cephCalcFileObjectMapping layout off len).ono.toNat = ono at base iff ⊢
  generalize (cephCalcFileObjectMapping layout off len).oxoff.toNat = oxoff at base place ⊢
  have start : off.toNat - oxoff = layout.fileOffset ono 0 +
      layout.row off * ((layout.stripeCount.toNat - 1) * layout.stripeUnit.toNat) := by lia
  have stripe : off.toNat - off.toNat % layout.stripeUnit.toNat = layout.fileOffset ono 0 +
      layout.row off * ((layout.stripeCount.toNat - 1) * layout.stripeUnit.toNat + layout.stripeUnit.toNat) := by
    lia
  rw [start, FileLayout.Spares, stripe, fileOffset_eq_spread accepted ono (layout.objectSize.toNat - 1), ← iff]
  unfold counted
  rw [← rows]
  constructor
  · intro leading y within
    rw [leading.below y within, fileOffset_eq_spread accepted ono y]
  · intro below
    refine ⟨?_, fun y within => ?_⟩
    · split
      · exact Nat.zero_le _
      · exact Nat.min_le_right _ _
    · rw [below y within, fileOffset_eq_spread accepted ono y]

end

end KmodCeph.Osdmap
