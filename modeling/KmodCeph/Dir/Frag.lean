import Mathlib.Tactic.IntervalCases
import Mathlib.Tactic.Ring

namespace KmodCeph.Dir

open Nat

abbrev Frag := BitVec 32

def fragMake (b v : BitVec 32) : Frag :=
  (b <<< 24) ||| (v &&& (0xffffff#32 <<< (24 - b.toNat)) &&& 0xffffff#32)

def fragBits (f : Frag) : BitVec 32 :=
  f >>> 24

def fragValue (f : Frag) : BitVec 32 :=
  f &&& 0xffffff#32

def fragMask (f : Frag) : BitVec 32 :=
  (0xffffff#32 <<< (24 - (fragBits f).toNat)) &&& 0xffffff#32

def fragIsLeftmost (f : Frag) : Bool :=
  fragValue f = 0

def fragIsRightmost (f : Frag) : Bool :=
  fragValue f = fragMask f

def fragNext (f : Frag) : Frag :=
  fragMake (fragBits f) (fragValue f + (0x1000000#32 >>> (fragBits f).toNat))

def fragCompare (a b : Frag) : Int :=
  if fragValue a < fragValue b then -1
  else if fragValue b < fragValue a then 1
  else if fragBits a < fragBits b then -1
  else if fragBits b < fragBits a then 1
  else 0

def fragSize (f : Frag) : Nat :=
  2 ^ (24 - (fragBits f).toNat)

/-- Eight bits say how many of the other 24 bits are used, and the others are zero. -/
structure FragWellFormed (f : Frag) : Prop where
  bits : (fragBits f).toNat ≤ 24
  aligned : (fragValue f).toNat % fragSize f = 0

section

variable {f g : Frag}

theorem fragBits_toNat (f : Frag) : (fragBits f).toNat = f.toNat / 2 ^ 24 := by
  rw [fragBits, BitVec.toNat_ushiftRight, shiftRight_eq_div_pow]

theorem fragValue_toNat (f : Frag) : (fragValue f).toNat = f.toNat % 2 ^ 24 := by
  exact and_two_pow_sub_one_eq_mod _ 24

theorem fragValue_lt (f : Frag) : (fragValue f).toNat < 2 ^ 24 := by
  rw [fragValue_toNat]
  exact mod_lt _ (by decide)

theorem frag_ext (bits : fragBits f = fragBits g) (value : fragValue f = fragValue g) : f = g := by
  apply BitVec.eq_of_toNat_eq
  have sameBits := congrArg BitVec.toNat bits
  have sameValue := congrArg BitVec.toNat value
  rw [fragBits_toNat, fragBits_toNat] at sameBits
  rw [fragValue_toNat, fragValue_toNat] at sameValue
  lia

theorem highMask_toNat {b : Nat} (bound : b ≤ 24) :
    ((0xffffff#32 <<< (24 - b)) &&& 0xffffff#32).toNat = 2 ^ 24 - 2 ^ (24 - b) := by
  interval_cases b <;> rfl

theorem fragMask_toNat (bits : (fragBits f).toNat ≤ 24) : (fragMask f).toNat = 2 ^ 24 - fragSize f :=
  highMask_toNat bits

theorem fragSize_pos (f : Frag) : 0 < fragSize f :=
  Nat.two_pow_pos _

theorem fragSize_le (f : Frag) : fragSize f ≤ 2 ^ 24 :=
  Nat.pow_le_pow_right (by decide) (sub_le _ _)

theorem fragIsLeftmost_iff : fragIsLeftmost f = true ↔ (fragValue f).toNat = 0 := by
  rw [fragIsLeftmost, decide_eq_true_iff]
  exact BitVec.toNat_inj.symm

theorem fragIsRightmost_iff (bits : (fragBits f).toNat ≤ 24) :
    fragIsRightmost f = true ↔ (fragValue f).toNat + fragSize f = 2 ^ 24 := by
  have small := fragSize_le f
  rw [fragIsRightmost, decide_eq_true_iff, ← BitVec.toNat_inj, fragMask_toNat bits]
  lia

theorem and_highMask {v k width : Nat} (bound : k ≤ width) :
    v &&& (2 ^ width - 2 ^ k) = v % 2 ^ width / 2 ^ k * 2 ^ k := by
  have mask : 2 ^ width - 2 ^ k = 2 ^ k * (2 ^ (width - k) - 1) := by
    rw [Nat.mul_sub, ← Nat.pow_add, Nat.mul_one, Nat.add_sub_cancel' bound]
  apply eq_of_testBit_eq
  intro bit
  rw [mask, Nat.mul_comm _ (2 ^ k), testBit_and, testBit_two_pow_mul, testBit_two_pow_mul,
    testBit_two_pow_sub_one, testBit_div_two_pow, testBit_mod_two_pow]
  by_cases later : k ≤ bit
  · rw [Nat.sub_add_cancel later]
    have same : bit - k < width - k ↔ bit < width := by omega
    simp [later, same, Bool.and_comm]
  · simp [later]

theorem fragMake_toNat {b v : BitVec 32} (bits : b.toNat ≤ 24) (small : v.toNat < 2 ^ 24)
    (aligned : v.toNat % 2 ^ (24 - b.toNat) = 0) : (fragMake b v).toNat = 2 ^ 24 * b.toNat + v.toNat := by
  have kept : (v &&& (0xffffff#32 <<< (24 - b.toNat)) &&& 0xffffff#32).toNat = v.toNat := by
    rw [BitVec.and_assoc, BitVec.toNat_and, highMask_toNat bits, and_highMask (sub_le _ _), mod_eq_of_lt small]
    exact Nat.div_mul_cancel (dvd_of_mod_eq_zero aligned)
  have shifted : (b <<< 24).toNat = 2 ^ 24 * b.toNat := by
    rw [BitVec.toNat_shiftLeft, shiftLeft_eq, Nat.mul_comm]
    exact mod_eq_of_lt (by omega)
  rw [fragMake, BitVec.toNat_or, kept, shifted]
  exact (two_pow_add_eq_or_of_lt small _).symm

theorem fragMake_spec {b v : BitVec 32} (bits : b.toNat ≤ 24) (small : v.toNat < 2 ^ 24)
    (aligned : v.toNat % 2 ^ (24 - b.toNat) = 0) :
    FragWellFormed (fragMake b v) ∧ fragBits (fragMake b v) = b ∧ fragValue (fragMake b v) = v := by
  have made := fragMake_toNat bits small aligned
  have bitsEq : fragBits (fragMake b v) = b := by
    apply BitVec.eq_of_toNat_eq
    rw [fragBits_toNat, made]
    omega
  have valueEq : fragValue (fragMake b v) = v := by
    apply BitVec.eq_of_toNat_eq
    rw [fragValue_toNat, made]
    omega
  refine ⟨⟨?_, ?_⟩, bitsEq, valueEq⟩
  · rw [bitsEq]
    exact bits
  · rw [fragSize, bitsEq, valueEq]
    exact aligned

theorem topBit_toNat {n : Nat} (bound : n ≤ 24) : (0x1000000#32 >>> n).toNat = 2 ^ (24 - n) := by
  rw [BitVec.toNat_ushiftRight, shiftRight_eq_div_pow]
  exact @Nat.pow_div 2 24 n bound (by decide)

theorem fragNext_spec (wellFormed : FragWellFormed f) (inner : (fragValue f).toNat + fragSize f < 2 ^ 24) :
    fragBits (fragNext f) = fragBits f ∧ (fragValue (fragNext f)).toNat = (fragValue f).toNat + fragSize f := by
  obtain ⟨bits, aligned⟩ := wellFormed
  have sum : (fragValue f + (0x1000000#32 >>> (fragBits f).toNat)).toNat = (fragValue f).toNat + fragSize f := by
    rw [BitVec.toNat_add, topBit_toNat bits, ← fragSize]
    exact mod_eq_of_lt (by omega)
  obtain ⟨-, sameBits, value⟩ := @fragMake_spec _ (fragValue f + (0x1000000#32 >>> (fragBits f).toNat)) bits
    (by omega) (by rw [sum, ← fragSize, add_mod_right, aligned])
  rw [fragNext, sameBits, value]
  exact ⟨rfl, sum⟩

end

end KmodCeph.Dir
