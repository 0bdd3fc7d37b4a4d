import KmodCeph.Rbd.Image
import Mathlib.Data.Nat.Bitwise

namespace KmodCeph.Rbd

open Lib

/-- `rbd_obj_bytes`, whose shift is one of an `int`. -/
def rbdObjBytes (order : Nat) : BitVec 64 :=
  (1#32 <<< order).signExtend 64

def roundUp (x y : BitVec 64) : BitVec 64 :=
  ((x - 1#64) ||| (y - 1#64)) + 1#64

def objRequestOverlapsParent (order parentOverlap imgOffset : Nat) : Bool :=
  imgOffset < (roundUp (.ofNat 64 parentOverlap) (rbdObjBytes order)).toNat

section

variable {σ : Type}

def imgObjRequestSimple (order parentOverlap : Nat) (img : ImgRequest σ) (obj : ObjRequest σ) : Bool :=
  if img.op = .read then true
  else if img.layered = false then true
  else if objRequestOverlapsParent order parentOverlap obj.imgOffset = false then true
  else if obj.offset = 0 ∧ obj.length = (rbdObjBytes order).toNat then true
  else obj.known && obj.present

def parentReadFullRange (order parentOverlap : Nat) (obj : ObjRequest σ) : Except RbdAssert (Nat × Nat) := do
  let imgOffset := obj.imgOffset - obj.offset
  let length := 2 ^ order
  if (imgOffset + length) % 2 ^ 64 > parentOverlap then
    haltIf (¬ imgOffset < parentOverlap) .startsBelow
    return (imgOffset, parentOverlap - imgOffset)
  else return (imgOffset, length)

end

theorem rbdObjBytes_toNat {order : Nat} (small : order ≤ 30) : (rbdObjBytes order).toNat = 2 ^ order := by
  have all : ∀ order ≤ 30, (rbdObjBytes order).toNat = 2 ^ order := by decide +kernel
  exact all order small

theorem or_two_pow_sub_one {bits value : Nat} : value ||| (2 ^ bits - 1) = value / 2 ^ bits * 2 ^ bits + (2 ^ bits - 1) := by
  have low : value % 2 ^ bits < 2 ^ bits := Nat.mod_lt _ (Nat.two_pow_pos bits)
  have ones : 2 ^ bits - 1 < 2 ^ bits := Nat.sub_one_lt (Nat.two_pow_pos bits).ne'
  have high : ∀ part < 2 ^ bits, value / 2 ^ bits * 2 ^ bits + part = (value / 2 ^ bits) <<< bits ||| part := by
    intro part fits
    rw [← Nat.shiftLeft_add_eq_or_of_lt fits, Nat.shiftLeft_eq]
  have merged : value % 2 ^ bits ||| (2 ^ bits - 1) = 2 ^ bits - 1 := by
    refine Nat.eq_of_testBit_eq fun bit => ?_
    rw [Nat.testBit_or, Nat.testBit_mod_two_pow, Nat.testBit_two_pow_sub_one]
    cases decide (bit < bits) <;> simp
  calc value ||| (2 ^ bits - 1)
      = (value / 2 ^ bits * 2 ^ bits + value % 2 ^ bits) ||| (2 ^ bits - 1) := by rw [Nat.div_add_mod']
    _ = (value / 2 ^ bits) <<< bits ||| (value % 2 ^ bits ||| (2 ^ bits - 1)) := by rw [high _ low, Nat.or_assoc]
    _ = value / 2 ^ bits * 2 ^ bits + (2 ^ bits - 1) := by rw [merged, ← high _ ones]

theorem roundUp_toNat {x y : BitVec 64} {bits : Nat} (some : 0 < x.toNat) (power : y.toNat = 2 ^ bits) :
    (roundUp x y).toNat = ((x.toNat - 1) / 2 ^ bits * 2 ^ bits + 2 ^ bits) % 2 ^ 64 := by
  have one : (1#64).toNat = 1 := rfl
  have positive : 0 < 2 ^ bits := Nat.two_pow_pos bits
  have x' : (x - 1#64).toNat = x.toNat - 1 := BitVec.toNat_sub_of_le (by rw [BitVec.le_def, one]; exact some)
  have y' : (y - 1#64).toNat = 2 ^ bits - 1 := by
    rw [BitVec.toNat_sub_of_le (by rw [BitVec.le_def, one, power]; exact positive), power, one]
  unfold roundUp
  rw [BitVec.toNat_add, BitVec.toNat_or, x', y', or_two_pow_sub_one, one]
  congr 1
  lia

theorem roundUp_zero {y : BitVec 64} : roundUp 0#64 y = 0#64 := by
  have ones : (0#64 - 1#64) = BitVec.allOnes 64 := rfl
  rw [roundUp, ones, BitVec.allOnes_or]
  rfl

section

variable {order parentOverlap imgOffset : Nat}

theorem objRequestOverlapsParent_start (small : order ≤ 30) (fits : parentOverlap < 2 ^ 64)
    (overlaps : objRequestOverlapsParent order parentOverlap imgOffset = true) : imgOffset / 2 ^ order * 2 ^ order < parentOverlap := by
  have below : imgOffset < (roundUp (.ofNat 64 parentOverlap) (rbdObjBytes order)).toNat := of_decide_eq_true overlaps
  have value : (BitVec.ofNat 64 parentOverlap).toNat = parentOverlap := by
    rw [BitVec.toNat_ofNat, Nat.mod_eq_of_lt fits]
  rcases Nat.eq_zero_or_pos parentOverlap with rfl | some
  · rw [roundUp_zero] at below
    cases below
  · rw [roundUp_toNat (value.symm ▸ some) (rbdObjBytes_toNat small), value] at below
    have bound := Nat.lt_of_lt_of_le below (Nat.mod_le _ _)
    have segment : imgOffset / 2 ^ order ≤ (parentOverlap - 1) / 2 ^ order := by
      rw [← Nat.succ_mul] at bound
      exact Nat.lt_succ_iff.mp ((Nat.div_lt_iff_lt_mul (Nat.two_pow_pos order)).mpr bound)
    have start := Nat.mul_le_mul_right (2 ^ order) segment
    have last := Nat.div_mul_le_self (parentOverlap - 1) (2 ^ order)
    lia

end

end KmodCeph.Rbd
