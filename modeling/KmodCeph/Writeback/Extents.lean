import KmodCeph.Writeback.Writepages

namespace KmodCeph.Writeback

open Osdmap Nat
open Caps (SnapContext)

/-- What stays as it is while `ceph_writepages_start` runs. -/
structure Ground where
  layout : FileLayout
  indices : List Nat
  context : Nat → SnapContext
  sizeOf : SnapContext → Nat
  wsize : Nat
  start : Nat
  last : Option Nat

namespace Ground

def InRange (page : Nat) (ground : Ground) : Prop :=
  ∀ last, ground.last = some last → ground.start ≤ page ∧ page ≤ last

def mapping (page : Nat) (ground : Ground) : ObjectMapping :=
  cephCalcFileObjectMapping ground.layout (UInt64.ofNat (page * pageCacheSize)) (UInt64.ofNat ground.wsize)

/-- The page and what follows it is mapped to an extent of the length. -/
def Maps (page extent : Nat) (ground : Ground) : Prop :=
  0 ≤ (ground.mapping page).ret ∧ (ground.mapping page).oxlen.toNat = extent

structure Sound (ground : Ground) : Prop where
  wsize : pageCacheSize ≤ ground.wsize ∧ ground.wsize < 2 ^ 32
  indices : ∀ page ∈ ground.indices, page < 2 ^ 51

variable {ground : Ground} {page extent : Nat}

theorem calcPagesFor_zero (len : Nat) : calcPagesFor 0 len = (len + 4095) / 4096 := by
  simp only [calcPagesFor, pageCacheSize]
  lia

theorem Maps.accepted (maps : ground.Maps page extent) : ground.layout.Accepted := by
  have ok := maps.1
  unfold mapping cephCalcFileObjectMapping at ok
  dsimp only at ok
  split at ok
  next => cases ok
  next some =>
    split at ok
    next => cases ok
    next room =>
      split at ok
      next => cases ok
      next aligned =>
        rw [not_or] at some
        exact ⟨some.1, some.2, room, not_not.mp aligned⟩

theorem stripeUnit_aligned {layout : FileLayout} (accepted : layout.Accepted) :
    layout.stripeUnit.toNat % pageCacheSize = 0 := by
  have aligned := congrArg UInt32.toNat accepted.2.2.2
  exact (and_two_pow_sub_one_eq_mod layout.stripeUnit.toNat 12).symm.trans aligned

theorem toNat_offset (inside : page < 2 ^ 51) : (UInt64.ofNat (page * pageCacheSize)).toNat = page * pageCacheSize := by
  apply mod_eq_of_lt
  simp only [pageCacheSize]
  omega

theorem Maps.extent_eq (maps : ground.Maps page extent) (sound : ground.Sound) (inside : page < 2 ^ 51) :
    extent = min ground.wsize
      (ground.layout.stripeUnit.toNat - page * pageCacheSize % ground.layout.stripeUnit.toNat) := by
  have accepted := maps.accepted
  have wsize : (UInt64.ofNat ground.wsize).toNat = ground.wsize := by
    rw [UInt64.toNat_ofNat']
    have := sound.wsize.2
    lia
  have inUnit := mod_lt (page * pageCacheSize) accepted.stripeUnit_pos
  have rest : (ground.layout.stripeUnit.toUInt64 -
      UInt64.ofNat (page * pageCacheSize) % ground.layout.stripeUnit.toUInt64).toNat =
      ground.layout.stripeUnit.toNat - page * pageCacheSize % ground.layout.stripeUnit.toNat := by
    rw [UInt64.toNat_sub_of_le]
    · rw [UInt64.toNat_mod, toNat_offset inside, UInt32.toNat_toUInt64]
    · rw [UInt64.le_iff_toNat_le, UInt64.toNat_mod, toNat_offset inside, UInt32.toNat_toUInt64]
      exact inUnit.le
  rw [← maps.2, mapping, mapping_of_accepted accepted, ← rest]
  conv => rhs; rw [← wsize]
  exact UInt64.toNat_min _ _

theorem rest_aligned {layout : FileLayout} (accepted : layout.Accepted) (page : Nat) :
    pageCacheSize ∣ layout.stripeUnit.toNat - page * pageCacheSize % layout.stripeUnit.toNat := by
  have unit := dvd_of_mod_eq_zero (stripeUnit_aligned accepted)
  apply dvd_sub unit
  exact (dvd_mod_iff unit).mpr (Nat.dvd_mul_left _ _)

section

variable (maps : ground.Maps page extent) (sound : ground.Sound) (inside : page < 2 ^ 51)
include maps sound inside

theorem Maps.page_le : pageCacheSize ≤ extent := by
  have inUnit := mod_lt (page * pageCacheSize) maps.accepted.stripeUnit_pos
  rw [maps.extent_eq sound inside, le_min_iff]
  refine ⟨sound.wsize.1, ?_⟩
  apply le_of_dvd _ (rest_aligned maps.accepted page)
  lia

theorem Maps.ono_eq {other : Nat} (known : other < 2 ^ 51) (behind : page ≤ other)
    (begins : other * pageCacheSize < page * pageCacheSize + extent) :
    (ground.mapping other).ono = (ground.mapping page).ono := by
  have accepted := maps.accepted
  have sameBlock : UInt64.ofNat (other * pageCacheSize) / ground.layout.stripeUnit.toUInt64 =
      UInt64.ofNat (page * pageCacheSize) / ground.layout.stripeUnit.toUInt64 := by
    rw [← UInt64.toNat_inj, UInt64.toNat_div, UInt64.toNat_div, toNat_offset inside, toNat_offset known,
      UInt32.toNat_toUInt64]
    have whole := div_add_mod (page * pageCacheSize) ground.layout.stripeUnit.toNat
    have most : extent ≤ ground.layout.stripeUnit.toNat - page * pageCacheSize % ground.layout.stripeUnit.toNat := by
      rw [maps.extent_eq sound inside]
      exact min_le_right _ _
    have later := mul_le_mul_right pageCacheSize behind
    rw [Nat.div_eq_iff accepted.stripeUnit_pos]
    lia
  rw [mapping, mapping, mapping_of_accepted accepted, mapping_of_accepted accepted, sameBlock]

end

end Ground

end KmodCeph.Writeback
