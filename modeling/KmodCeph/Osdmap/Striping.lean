import KmodCeph.Basic
import Mathlib.Data.UInt

namespace KmodCeph.Osdmap

open Nat

/-- `struct ceph_file_layout`, the three striping fields in host order. -/
structure FileLayout where
  objectSize : UInt32
  stripeUnit : UInt32
  stripeCount : UInt32

/-- What `ceph_calc_file_object_mapping` returns and stores through its
pointer arguments. -/
structure ObjectMapping where
  ret : Int
  ono : UInt64
  oxoff : UInt64
  oxlen : UInt64
deriving DecidableEq

def pageSize : UInt32 := 4096

def FileLayout.Accepted (layout : FileLayout) : Prop :=
  layout.stripeUnit ≠ 0 ∧ layout.stripeCount ≠ 0 ∧
    layout.objectSize / layout.stripeUnit ≠ 0 ∧
    layout.stripeUnit &&& (pageSize - 1) = 0

instance (layout : FileLayout) : Decidable layout.Accepted := by
  unfold FileLayout.Accepted
  infer_instance

def cephCalcFileObjectMapping (layout : FileLayout) (off len : UInt64) : ObjectMapping :=
  let osize := layout.objectSize
  let su := layout.stripeUnit
  let sc := layout.stripeCount
  let invalid : ObjectMapping := { ret := -einval, ono := 0, oxoff := 0, oxlen := 0 }
  if su = 0 ∨ sc = 0 then invalid
  else
    let suPerObject := osize / su
    if suPerObject = 0 then invalid
    else if su &&& (pageSize - 1) ≠ 0 then invalid
    else
      let bl := (off / su.toUInt64).toUInt32
      let stripeno := bl / sc
      let stripepos := bl % sc
      let objsetno := stripeno / suPerObject
      let ono := (objsetno * sc + stripepos).toUInt64
      let suOffset := off % su.toUInt64
      let oxoff := suOffset + (stripeno % suPerObject * su).toUInt64
      let oxlen := min len (su.toUInt64 - suOffset)
      { ret := 0, ono, oxoff, oxlen }

def FileLayout.fileOffset (layout : FileLayout) (ono oxoff : Nat) : Nat :=
  let su := layout.stripeUnit.toNat
  let sc := layout.stripeCount.toNat
  let suPerObject := layout.objectSize.toNat / su
  ((ono / sc * suPerObject + oxoff / su) * sc + ono % sc) * su + oxoff % su

/-- Both bytes are found again from their object byte, and different bytes of
the file have different object bytes. -/
structure FileLayout.Separates (layout : FileLayout) (off₁ off₂ len₁ len₂ : UInt64) : Prop where
  recovers₁ : layout.fileOffset (cephCalcFileObjectMapping layout off₁ len₁).ono.toNat
    (cephCalcFileObjectMapping layout off₁ len₁).oxoff.toNat = off₁.toNat
  recovers₂ : layout.fileOffset (cephCalcFileObjectMapping layout off₂ len₂).ono.toNat
    (cephCalcFileObjectMapping layout off₂ len₂).oxoff.toNat = off₂.toNat
  apart : off₁ ≠ off₂ →
    ((cephCalcFileObjectMapping layout off₁ len₁).ono,
      (cephCalcFileObjectMapping layout off₁ len₁).oxoff) ≠
    ((cephCalcFileObjectMapping layout off₂ len₂).ono,
      (cephCalcFileObjectMapping layout off₂ len₂).oxoff)

variable {layout : FileLayout}

section

variable (accepted : layout.Accepted)
include accepted

theorem FileLayout.Accepted.stripeUnit_pos : 0 < layout.stripeUnit.toNat :=
  Nat.pos_of_ne_zero fun zero => accepted.1 (UInt32.toNat_inj.mp zero)

theorem FileLayout.Accepted.stripeCount_pos : 0 < layout.stripeCount.toNat :=
  Nat.pos_of_ne_zero fun zero => accepted.2.1 (UInt32.toNat_inj.mp zero)

theorem FileLayout.Accepted.suPerObject_pos : 0 < layout.objectSize.toNat / layout.stripeUnit.toNat :=
  Nat.pos_of_ne_zero fun zero => accepted.2.2.1 (UInt32.toNat_inj.mp (by simpa using zero))

theorem mapping_of_accepted (off len : UInt64) : cephCalcFileObjectMapping layout off len =
      let bl := (off / layout.stripeUnit.toUInt64).toUInt32
      let suPerObject := layout.objectSize / layout.stripeUnit
      let suOffset := off % layout.stripeUnit.toUInt64
      { ret := 0
        ono := (bl / layout.stripeCount / suPerObject * layout.stripeCount +
          bl % layout.stripeCount).toUInt64
        oxoff := suOffset +
          (bl / layout.stripeCount % suPerObject * layout.stripeUnit).toUInt64
        oxlen := min len (layout.stripeUnit.toUInt64 - suOffset) } := by
  obtain ⟨unit, count, perObject, aligned⟩ := accepted
  simp only [cephCalcFileObjectMapping, unit, count, or_self, if_false, perObject, aligned,
    ne_eq, not_true_eq_false]

end

/-- The block number truncated to 32 bits, the value of `bl`. -/
def FileLayout.block (layout : FileLayout) (off : UInt64) : Nat :=
  off.toNat / layout.stripeUnit.toNat % 2 ^ 32

theorem toNat_block (off : UInt64) :
    (off / layout.stripeUnit.toUInt64).toUInt32.toNat = layout.block off := by
  simp [FileLayout.block]

section

variable (accepted : layout.Accepted) (off len : UInt64)
include accepted off len

/-- No 32-bit product or sum after `bl` wraps: the object number is at most
`bl`. -/
theorem toNat_ono : (cephCalcFileObjectMapping layout off len).ono.toNat =
      layout.block off / layout.stripeCount.toNat /
        (layout.objectSize.toNat / layout.stripeUnit.toNat) * layout.stripeCount.toNat +
      layout.block off % layout.stripeCount.toNat := by
  have bounded : layout.block off < 2 ^ 32 := mod_lt _ (by norm_num)
  have product : layout.block off / layout.stripeCount.toNat /
      (layout.objectSize.toNat / layout.stripeUnit.toNat) * layout.stripeCount.toNat ≤
      layout.block off / layout.stripeCount.toNat * layout.stripeCount.toNat :=
    mul_le_mul_right _ (div_le_self _ _)
  have whole := div_add_mod' (layout.block off) layout.stripeCount.toNat
  rw [mapping_of_accepted accepted]
  simp only [UInt32.toNat_toUInt64, UInt32.toNat_add, UInt32.toNat_mul, UInt32.toNat_div,
    UInt32.toNat_mod, toNat_block]
  rw [mod_eq_of_lt (a := layout.block off / _ / _ * _) (by lia), mod_eq_of_lt (by lia)]

theorem toNat_oxoff : (cephCalcFileObjectMapping layout off len).oxoff.toNat = off.toNat % layout.stripeUnit.toNat +
      layout.block off / layout.stripeCount.toNat %
        (layout.objectSize.toNat / layout.stripeUnit.toNat) * layout.stripeUnit.toNat := by
  have unitBound := layout.stripeUnit.toNat_lt
  have sizeBound := layout.objectSize.toNat_lt
  have inUnit := mod_lt off.toNat accepted.stripeUnit_pos
  have position := mod_lt (layout.block off / layout.stripeCount.toNat)
    accepted.suPerObject_pos
  have product : layout.block off / layout.stripeCount.toNat %
      (layout.objectSize.toNat / layout.stripeUnit.toNat) * layout.stripeUnit.toNat ≤
      layout.objectSize.toNat :=
    (mul_le_mul_right _ position.le).trans (div_mul_le_self _ _)
  rw [mapping_of_accepted accepted]
  simp only [UInt64.toNat_add, UInt64.toNat_mod, UInt32.toNat_toUInt64, UInt32.toNat_mul,
    UInt32.toNat_div, UInt32.toNat_mod, toNat_block]
  rw [mod_eq_of_lt (a := layout.block off / _ % _ * _) (by omega), mod_eq_of_lt (by lia)]

theorem fileOffset_mapping : layout.fileOffset (cephCalcFileObjectMapping layout off len).ono.toNat
        (cephCalcFileObjectMapping layout off len).oxoff.toNat =
      layout.block off * layout.stripeUnit.toNat + off.toNat % layout.stripeUnit.toNat := by
  have unitPos := accepted.stripeUnit_pos
  have countPos := accepted.stripeCount_pos
  have inUnit := mod_lt off.toNat unitPos
  have inStripe := mod_lt (layout.block off) countPos
  let stripeno := layout.block off / layout.stripeCount.toNat
  let perObject := layout.objectSize.toNat / layout.stripeUnit.toNat
  have setDigit : (stripeno / perObject * layout.stripeCount.toNat +
      layout.block off % layout.stripeCount.toNat) / layout.stripeCount.toNat =
      stripeno / perObject := by
    rw [Nat.add_comm, add_mul_div_right _ _ countPos, div_eq_of_lt inStripe,
      Nat.zero_add]
  have posDigit : (stripeno / perObject * layout.stripeCount.toNat +
      layout.block off % layout.stripeCount.toNat) % layout.stripeCount.toNat =
      layout.block off % layout.stripeCount.toNat := by
    rw [Nat.add_comm, add_mul_mod_self_right, mod_mod]
  have unitDigit : (off.toNat % layout.stripeUnit.toNat +
      stripeno % perObject * layout.stripeUnit.toNat) / layout.stripeUnit.toNat =
      stripeno % perObject := by
    rw [add_mul_div_right _ _ unitPos, div_eq_of_lt inUnit, Nat.zero_add]
  simp only [FileLayout.fileOffset, toNat_ono accepted, toNat_oxoff accepted]
  rw [setDigit, posDigit, unitDigit, add_mul_mod_self_right, mod_mod,
    div_add_mod', div_add_mod']

theorem fileOffset_mapping_eq_iff : layout.fileOffset (cephCalcFileObjectMapping layout off len).ono.toNat
        (cephCalcFileObjectMapping layout off len).oxoff.toNat = off.toNat ↔
      off.toNat < layout.stripeUnit.toNat * 2 ^ 32 := by
  have unitPos := accepted.stripeUnit_pos
  have whole := div_add_mod' off.toNat layout.stripeUnit.toNat
  rw [fileOffset_mapping accepted, FileLayout.block, Nat.mul_comm _ (2 ^ 32),
    ← div_lt_iff_lt_mul unitPos]
  constructor
  · intro same
    have blocks : off.toNat / layout.stripeUnit.toNat % 2 ^ 32 * layout.stripeUnit.toNat =
        off.toNat / layout.stripeUnit.toNat * layout.stripeUnit.toNat := by lia
    rw [← eq_of_mul_eq_mul_right unitPos blocks]
    exact mod_lt _ (by norm_num)
  · intro small
    rw [mod_eq_of_lt small, whole]

end

/-- The mapping separates two offsets of an accepted layout exactly when the
block numbers of both fit the 32-bit temporary `bl`. -/
theorem separates_iff_blocks_fit (layout : FileLayout) (accepted : layout.Accepted)
    (off₁ off₂ len₁ len₂ : UInt64) :
    layout.Separates off₁ off₂ len₁ len₂ ↔
      off₁.toNat < layout.stripeUnit.toNat * 2 ^ 32 ∧
      off₂.toNat < layout.stripeUnit.toNat * 2 ^ 32 := by
  constructor
  · intro separates
    exact ⟨(fileOffset_mapping_eq_iff accepted off₁ len₁).mp separates.recovers₁,
      (fileOffset_mapping_eq_iff accepted off₂ len₂).mp separates.recovers₂⟩
  · rintro ⟨fits₁, fits₂⟩
    have recovers₁ := (fileOffset_mapping_eq_iff accepted off₁ len₁).mpr fits₁
    have recovers₂ := (fileOffset_mapping_eq_iff accepted off₂ len₂).mpr fits₂
    refine ⟨recovers₁, recovers₂, fun different same => different ?_⟩
    obtain ⟨sameOno, sameOxoff⟩ := Prod.mk.inj same
    rw [sameOno, sameOxoff] at recovers₁
    exact UInt64.toNat_inj.mp (recovers₁.symm.trans recovers₂)

/-- 4 KiB stripe units, one object per stripe: the largest offset below
`2 ^ 44` is still told apart from the first byte. -/
theorem separates_iff_blocks_fit_page :
    (⟨4096, 4096, 1⟩ : FileLayout).Separates 0 (2 ^ 44 - 1) 1 1 :=
  (separates_iff_blocks_fit ⟨4096, 4096, 1⟩ (by decide) 0 (2 ^ 44 - 1) 1 1).mpr (by decide)

/-- With the same layout the bytes 0 and `2 ^ 44` of a file are both byte 0 of
object 0. -/
theorem not_separates_wrapped_block :
    (⟨4096, 4096, 1⟩ : FileLayout).Accepted ∧
      (0 : UInt64) ≠ 2 ^ 44 ∧
      cephCalcFileObjectMapping ⟨4096, 4096, 1⟩ 0 1 =
        cephCalcFileObjectMapping ⟨4096, 4096, 1⟩ (2 ^ 44) 1 ∧
      ¬ (⟨4096, 4096, 1⟩ : FileLayout).Separates 0 (2 ^ 44) 1 1 := by
  refine ⟨by decide, by decide, by decide, fun separates => ?_⟩
  exact separates.apart (by decide) (by decide)

end KmodCeph.Osdmap
