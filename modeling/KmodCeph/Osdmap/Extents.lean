import KmodCeph.Osdmap.Striping

namespace KmodCeph.Osdmap

open List Nat

def calcLayout (layout : FileLayout) (off plen : UInt64) : Except Int (ObjectMapping × UInt64) :=
  let mapping := cephCalcFileObjectMapping layout off plen
  if mapping.ret < 0 then .error mapping.ret
  else .ok (mapping, if mapping.oxlen < plen then mapping.oxlen else plen)

structure Extent where
  start : Nat
  mapping : ObjectMapping

/-- The extents of a range that callers of `calc_layout` go through, unless there are more than so many. -/
def extentsFrom (layout : FileLayout) : Nat → Nat → UInt64 → UInt64 → Option (List Extent)
  | 0, _, _, len => if len = 0 then some [] else none
  | bound + 1, start, off, len =>
    if len = 0 then some []
    else
      match calcLayout layout off len with
      | .error _ => none
      | .ok (mapping, plen) =>
        (extentsFrom layout bound (start + plen.toNat) (off + plen) (len - plen)).map (⟨start, mapping⟩ :: ·)

def extents (layout : FileLayout) (bound : Nat) (off len : UInt64) : Option (List Extent) :=
  extentsFrom layout bound 0 off len

/-- Each byte of the extent, up to the last offset there is, is mapped to its place there. -/
def ObjectMapping.Agrees (layout : FileLayout) (off : UInt64) (mapping : ObjectMapping) : Prop :=
  ∀ k < mapping.oxlen.toNat, off.toNat + k < 2 ^ 64 →
    (cephCalcFileObjectMapping layout (off + UInt64.ofNat k) 1).ret = mapping.ret ∧
    (cephCalcFileObjectMapping layout (off + UInt64.ofNat k) 1).ono = mapping.ono ∧
    (cephCalcFileObjectMapping layout (off + UInt64.ofNat k) 1).oxoff = mapping.oxoff + UInt64.ofNat k

structure ObjectMapping.Fits (layout : FileLayout) (len : UInt64) (mapping : ObjectMapping) : Prop where
  ret : mapping.ret = 0
  positive : 0 < mapping.oxlen
  short : mapping.oxlen ≤ len
  inside : mapping.oxoff.toNat + mapping.oxlen.toNat ≤ layout.objectSize.toNat

section

variable {layout : FileLayout} {off len : UInt64}

theorem mapping_ret (accepted : layout.Accepted) : (cephCalcFileObjectMapping layout off len).ret = 0 := by
  rw [mapping_of_accepted accepted]

theorem toNat_oxlen (accepted : layout.Accepted) :
    (cephCalcFileObjectMapping layout off len).oxlen.toNat =
      min len.toNat (layout.stripeUnit.toNat - off.toNat % layout.stripeUnit.toNat) := by
  have inUnit := mod_lt off.toNat accepted.stripeUnit_pos
  have rest : (layout.stripeUnit.toUInt64 - off % layout.stripeUnit.toUInt64).toNat =
      layout.stripeUnit.toNat - off.toNat % layout.stripeUnit.toNat := by
    rw [UInt64.toNat_sub_of_le]
    · simp only [UInt64.toNat_mod, UInt32.toNat_toUInt64]
    · rw [UInt64.le_iff_toNat_le]
      exact inUnit.le
  rw [mapping_of_accepted accepted]
  rw [← rest]
  unfold min instMinUInt64 minOfLe
  dsimp only
  split
  next less => exact (Nat.min_eq_left (UInt64.le_iff_toNat_le.mp less)).symm
  next more => exact (Nat.min_eq_right (by rw [UInt64.le_iff_toNat_le] at more; omega)).symm

theorem mapping_fits (accepted : layout.Accepted) (positive : len ≠ 0) :
    (cephCalcFileObjectMapping layout off len).Fits layout len := by
  have inUnit := mod_lt off.toNat accepted.stripeUnit_pos
  have length := @toNat_oxlen layout off len accepted
  have some : 0 < len.toNat := Nat.pos_of_ne_zero fun zero => positive (UInt64.toNat_inj.mp zero)
  have row := mod_lt (layout.block off / layout.stripeCount.toNat) accepted.suPerObject_pos
  refine ⟨mapping_ret accepted, ?_, ?_, ?_⟩
  · rw [UInt64.lt_iff_toNat_lt, length]
    exact Nat.lt_min.mpr ⟨some, Nat.sub_pos_of_lt inUnit⟩
  · rw [UInt64.le_iff_toNat_le, length]
    exact Nat.min_le_left _ _
  · -- The rows of the stripe units that are whole in the object end inside it.
    have rows : (layout.block off / layout.stripeCount.toNat % (layout.objectSize.toNat / layout.stripeUnit.toNat) + 1) *
        layout.stripeUnit.toNat ≤ layout.objectSize.toNat :=
      (mul_le_mul_right _ row).trans (div_mul_le_self _ _)
    rw [succ_mul] at rows
    have upper : min len.toNat (layout.stripeUnit.toNat - off.toNat % layout.stripeUnit.toNat) ≤
        layout.stripeUnit.toNat - off.toNat % layout.stripeUnit.toNat := Nat.min_le_right _ _
    rw [toNat_oxoff accepted, length]
    lia

theorem mapping_agrees (accepted : layout.Accepted) :
    (cephCalcFileObjectMapping layout off len).Agrees layout off := by
  intro k inside room
  have unit := accepted.stripeUnit_pos
  have length := @toNat_oxlen layout off len accepted
  have upper : min len.toNat (layout.stripeUnit.toNat - off.toNat % layout.stripeUnit.toNat) ≤
      layout.stripeUnit.toNat - off.toNat % layout.stripeUnit.toNat := Nat.min_le_right _ _
  have near : off.toNat % layout.stripeUnit.toNat + k < layout.stripeUnit.toNat := by lia
  have small : k < 2 ^ 64 := by omega
  have moved : (off + UInt64.ofNat k).toNat = off.toNat + k := by
    rw [UInt64.toNat_add, UInt64.toNat_ofNat', mod_eq_of_lt small, mod_eq_of_lt room]
  have whole := div_add_mod' off.toNat layout.stripeUnit.toNat
  have split : off.toNat + k = off.toNat % layout.stripeUnit.toNat + k +
      off.toNat / layout.stripeUnit.toNat * layout.stripeUnit.toNat := by lia
  have quotient : (off.toNat + k) / layout.stripeUnit.toNat = off.toNat / layout.stripeUnit.toNat := by
    rw [split, add_mul_div_right _ _ unit, div_eq_of_lt near, Nat.zero_add]
  have remainder : (off.toNat + k) % layout.stripeUnit.toNat = off.toNat % layout.stripeUnit.toNat + k := by
    rw [split, add_mul_mod_self_right, mod_eq_of_lt near]
  have block : layout.block (off + UInt64.ofNat k) = layout.block off := by
    unfold FileLayout.block
    rw [moved, quotient]
  refine ⟨by rw [mapping_ret accepted, mapping_ret accepted], ?_, ?_⟩
  · apply UInt64.toNat_inj.mp
    rw [toNat_ono accepted, toNat_ono accepted, block]
  · apply UInt64.toNat_inj.mp
    have bound := (cephCalcFileObjectMapping layout (off + UInt64.ofNat k) 1).oxoff.toNat_lt
    rw [toNat_oxoff accepted, block, moved, remainder] at bound
    rw [UInt64.toNat_add, UInt64.toNat_ofNat', mod_eq_of_lt small, toNat_oxoff accepted, toNat_oxoff accepted, block,
      moved, remainder, Nat.add_right_comm]
    exact (mod_eq_of_lt (by lia)).symm

theorem calcLayout_eq (accepted : layout.Accepted) (positive : len ≠ 0) :
    calcLayout layout off len =
      .ok (cephCalcFileObjectMapping layout off len, (cephCalcFileObjectMapping layout off len).oxlen) := by
  have short := (@mapping_fits layout off len accepted positive).short
  unfold calcLayout
  dsimp only
  rw [mapping_ret accepted, if_neg (by decide)]
  split
  next => rfl
  next more =>
    have same : len = (cephCalcFileObjectMapping layout off len).oxlen :=
      UInt64.le_antisymm (UInt64.not_lt.mp more) short
    exact congrArg Except.ok (Prod.ext rfl same)

theorem extentsFrom_covers (accepted : layout.Accepted) {bound start : Nat} (enough : len.toNat ≤ bound)
    (first : UInt64) (here : off = first + UInt64.ofNat start) :
    ∃ found, extentsFrom layout bound start off len = some found ∧
      found.flatMap (fun extent => range' extent.start extent.mapping.oxlen.toNat) = range' start len.toNat ∧
      ∀ extent ∈ found, extent.mapping.Agrees layout (first + UInt64.ofNat extent.start) := by
  induction bound generalizing start off len with
  | zero =>
    have none : len = 0 := UInt64.toNat_inj.mp (Nat.le_zero.mp enough)
    subst none
    exact ⟨[], rfl, rfl, forall_mem_nil _⟩
  | succ bound ih =>
    rw [extentsFrom]
    by_cases none : len = 0
    · subst none
      exact ⟨[], if_pos rfl, rfl, forall_mem_nil _⟩
    · have fits := @mapping_fits layout off len accepted none
      have agrees := @mapping_agrees layout off len accepted
      rw [if_neg none, calcLayout_eq accepted none]
      dsimp only
      generalize made : cephCalcFileObjectMapping layout off len = mapping at fits agrees ⊢
      have short := UInt64.le_iff_toNat_le.mp fits.short
      have positive := UInt64.lt_iff_toNat_lt.mp fits.positive
      have less : (len - mapping.oxlen).toNat = len.toNat - mapping.oxlen.toNat := UInt64.toNat_sub_of_le _ _ fits.short
      have next : off + mapping.oxlen = first + UInt64.ofNat (start + mapping.oxlen.toNat) := by
        rw [here, UInt64.ofNat_add, UInt64.ofNat_toNat, UInt64.add_assoc]
      obtain ⟨rest, ran, covers, each⟩ := @ih (off + mapping.oxlen) (len - mapping.oxlen) (start + mapping.oxlen.toNat)
        (by change 0 < _ at positive; lia) next
      rw [ran]
      refine ⟨⟨start, mapping⟩ :: rest, rfl, ?_, ?_⟩
      · rw [flatMap_cons, covers, less, range'_append_1, Nat.add_sub_cancel' short]
      · intro extent member
        rcases List.mem_cons.mp member with rfl | later
        · rw [← here]
          exact agrees
        · exact each extent later

end

/-- An extent is as long as the range and the object let it, and each of its bytes is mapped to its place in it. Going
through the range extent by extent ends, and comes to each byte once, in order. -/
theorem extents_agree (layout : FileLayout) (accepted : layout.Accepted) (off len : UInt64) (positive : len ≠ 0) :
    (cephCalcFileObjectMapping layout off len).Fits layout len ∧
    (cephCalcFileObjectMapping layout off len).Agrees layout off ∧
    ∀ bound ≥ len.toNat, ∃ found, extents layout bound off len = some found ∧
      found.flatMap (fun extent => range' extent.start extent.mapping.oxlen.toNat) = List.range len.toNat ∧
      ∀ extent ∈ found, extent.mapping.Agrees layout (off + UInt64.ofNat extent.start) := by
  refine ⟨mapping_fits accepted positive, mapping_agrees accepted, fun bound enough => ?_⟩
  rw [range_eq_range']
  exact extentsFrom_covers accepted enough off (UInt64.add_zero off).symm

theorem extents_agree_page :
    (cephCalcFileObjectMapping ⟨8192, 4096, 2⟩ 4000 200).Fits ⟨8192, 4096, 2⟩ 200 ∧
    (cephCalcFileObjectMapping ⟨8192, 4096, 2⟩ 4000 200).Agrees ⟨8192, 4096, 2⟩ 4000 ∧
    ∀ bound ≥ 200, ∃ found, extents ⟨8192, 4096, 2⟩ bound 4000 200 = some found ∧
      found.flatMap (fun extent => range' extent.start extent.mapping.oxlen.toNat) = List.range 200 ∧
      ∀ extent ∈ found, extent.mapping.Agrees ⟨8192, 4096, 2⟩ (4000 + UInt64.ofNat extent.start) :=
  extents_agree ⟨8192, 4096, 2⟩ (by decide) 4000 200 (by decide)

end KmodCeph.Osdmap
