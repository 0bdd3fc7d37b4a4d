import KmodCeph.Osdmap.Placement

namespace KmodCeph.Osdmap

section

variable {num value : Nat}

theorem halfBins_le (positive : 1 ≤ num) : 2 ^ (calcBitsOf (num - 1) - 1) ≤ num := by
  rcases Nat.eq_zero_or_pos (num - 1) with zero | nonzero
  · rw [zero, calcBitsOf, if_pos rfl]
    exact positive
  · have lower := two_pow_calcBitsOf_le nonzero
    cases bits : calcBitsOf (num - 1) with
    | zero => exact positive
    | succ bits =>
      lia

theorem stableBin_lt (positive : 1 ≤ num) (value : Nat) : stableBin num value < num := by
  unfold stableBin binOfBits
  split
  next below => exact below
  next => exact (Nat.mod_lt _ (Nat.two_pow_pos _)).trans_le (halfBins_le positive)

theorem stableBin_of_lt (below : value < num) : stableBin num value = value := by
  have bits := lt_two_pow_calcBitsOf (num - 1)
  have kept : value % 2 ^ calcBitsOf (num - 1) = value := Nat.mod_eq_of_lt (by lia)
  unfold stableBin binOfBits
  rw [kept, if_pos below]

end

/-- A placement group is one of the pool and goes to itself. When the pool grows, it stays or goes to a new one that comes
from it. -/
theorem pg_splitting (few many x : UInt32) (positive : 1 ≤ few.toNat) (fewer : few.toNat ≤ many.toNat)
    (small : many.toNat < 2 ^ 31) :
    (cephStableMod x few (calcPgMask few)).toNat < few.toNat ∧
    (∀ y : UInt32, y.toNat < few.toNat → cephStableMod y few (calcPgMask few) = y) ∧
    (cephStableMod x many (calcPgMask many) = cephStableMod x few (calcPgMask few) ∨
      few.toNat ≤ (cephStableMod x many (calcPgMask many)).toNat ∧
        cephStableMod (cephStableMod x many (calcPgMask many)) few (calcPgMask few) =
          cephStableMod x few (calcPgMask few)) := by
  have smallFew : few.toNat < 2 ^ 31 := fewer.trans_lt small
  have itself : ∀ y : UInt32, y.toNat < few.toNat → cephStableMod y few (calcPgMask few) = y := by
    intro y below
    apply UInt32.toNat_inj.mp
    rw [cephStableMod_toNat positive smallFew, stableBin_of_lt below]
  have parent := cephStableMod_cephStableMod positive fewer small x
  refine ⟨?_, itself, ?_⟩
  · rw [cephStableMod_toNat positive smallFew]
    exact stableBin_lt positive _
  · rcases Nat.lt_or_ge (cephStableMod x many (calcPgMask many)).toNat few.toNat with old | new
    · exact .inl ((itself _ old).symm.trans parent)
    · exact .inr ⟨new, parent⟩

theorem pg_splitting_eight :
    (cephStableMod 13 8 (calcPgMask 8)).toNat < 8 ∧
    (∀ y : UInt32, y.toNat < 8 → cephStableMod y 8 (calcPgMask 8) = y) ∧
    (cephStableMod 13 12 (calcPgMask 12) = cephStableMod 13 8 (calcPgMask 8) ∨
      8 ≤ (cephStableMod 13 12 (calcPgMask 12)).toNat ∧
        cephStableMod (cephStableMod 13 12 (calcPgMask 12)) 8 (calcPgMask 8) = cephStableMod 13 8 (calcPgMask 8)) :=
  pg_splitting 8 12 13 (by decide) (by decide) (by decide)

end KmodCeph.Osdmap
