import KmodCeph.Dir.Frag
import KmodCeph.Lib.Loop
import KmodCeph.Lib.SearchTree

namespace KmodCeph.Dir

open Lib

def fragContainsValue (f : Frag) (v : BitVec 32) : Bool :=
  v &&& fragMask f = fragValue f

def fragMakeChild (f : Frag) (by' : BitVec 32) (i : Nat) : Frag :=
  let newbits := fragBits f + by'
  fragMake newbits (fragValue f ||| (BitVec.ofNat 32 i <<< (24 - newbits.toNat)))

structure Delegation where
  mds : Int
  dist : List Int
deriving DecidableEq

structure FragNode where
  frag : Frag
  splitBy : BitVec 32
  delegation : Delegation
deriving DecidableEq

def fragKey (f : Frag) : Nat := (fragValue f).toNat * 2 ^ 8 + (fragBits f).toNat

def nodeKey (node : FragNode) : Nat := fragKey node.frag

def fragOrdering (f : Frag) (node : FragNode) : Ordering :=
  if fragCompare f node.frag < 0 then .lt
  else if fragCompare f node.frag > 0 then .gt
  else .eq

def cephFindFrag (root : BinaryTree FragNode) (f : Frag) : Option FragNode :=
  searchBy (fragOrdering f) root

/-- The tree of the fragments that a directory is split into. -/
structure Fragtree where
  root : BinaryTree FragNode
  sorted : Sorted nodeKey root

inductive FragBug where
  | noChild
  | endless

def chooseChild (t : Frag) (splitBy v : BitVec 32) : Option Frag :=
  let nway := (1#32 <<< splitBy.toNat).toNat
  ((List.range nway).map (fragMakeChild t splitBy)).find? fun n => fragContainsValue n v

/-- One pass of the loop of `__ceph_choose_frag`. -/
def chooseStep (root : BinaryTree FragNode) (v : BitVec 32) (t : Frag) : Except FragBug (Next Frag (Frag × Option FragNode)) :=
  match cephFindFrag root t with
  | none => .ok (.done (t, none))
  | some frag =>
    if frag.splitBy = 0 then .ok (.done (t, some frag))
    else
      match chooseChild t frag.splitBy v with
      | none => .error .noChild
      | some n => .ok (.again n)

/-- `__ceph_choose_frag` in at most `bound` passes, with the node of the leaf if there is one. -/
def cephChooseFrag (bound : Nat) (root : BinaryTree FragNode) (v : BitVec 32) : Except FragBug (Frag × Option FragNode) :=
  loop .endless (chooseStep root v) bound (fragMake 0 0)

/-- Every branch splits by a bit or more, and into fragments of 24 bits at most. -/
def Fragtree.Splits (tree : Fragtree) : Prop :=
  ∀ node ∈ inorder tree.root, node.splitBy ≠ 0 → 1 ≤ node.splitBy.toInt ∧ (fragBits node.frag).toNat + node.splitBy.toInt ≤ 24

def Fragtree.Leaf (tree : Fragtree) (f : Frag) : Prop :=
  ∀ node ∈ inorder tree.root, node.frag = f → node.splitBy = 0

section

variable {f t n : Frag} {v splitBy : BitVec 32}

theorem fragContainsValue_iff (wellFormed : FragWellFormed f) :
    fragContainsValue f v = true ↔
      (fragValue f).toNat ≤ v.toNat % 2 ^ 24 ∧ v.toNat % 2 ^ 24 < (fragValue f).toNat + fragSize f := by
  have positive := fragSize_pos f
  obtain ⟨bits, aligned⟩ := wellFormed
  obtain ⟨high, start⟩ := Nat.dvd_of_mod_eq_zero aligned
  have rounded : (v &&& fragMask f).toNat = v.toNat % 2 ^ 24 / fragSize f * fragSize f := by
    rw [BitVec.toNat_and, fragMask_toNat bits]
    exact and_highMask (Nat.sub_le _ _)
  rw [fragContainsValue, decide_eq_true_iff, ← BitVec.toNat_inj, rounded, start, Nat.mul_comm (fragSize f) high,
    Nat.mul_left_inj positive.ne', Nat.div_eq_iff positive, Nat.mul_comm high]
  lia

theorem FragWellFormed.end_le (wellFormed : FragWellFormed f) : (fragValue f).toNat + fragSize f ≤ 2 ^ 24 := by
  obtain ⟨bits, aligned⟩ := wellFormed
  obtain ⟨high, start⟩ := Nat.dvd_of_mod_eq_zero aligned
  have whole : 2 ^ 24 = fragSize f * 2 ^ (fragBits f).toNat := by
    rw [fragSize, ← Nat.pow_add, Nat.sub_add_cancel bits]
  have inside := fragValue_lt f
  rw [start, whole] at inside ⊢
  exact Nat.mul_le_mul_left _ (Nat.lt_of_mul_lt_mul_left inside)

/-- A fragment splits into children of one size that follow each other. -/
theorem fragMakeChild_spec {i : Nat} (wellFormed : FragWellFormed t) (fits : (fragBits t).toNat + splitBy.toNat ≤ 24)
    (child : i < 2 ^ splitBy.toNat) :
    FragWellFormed (fragMakeChild t splitBy i) ∧
    (fragBits (fragMakeChild t splitBy i)).toNat = (fragBits t).toNat + splitBy.toNat ∧
    (fragValue (fragMakeChild t splitBy i)).toNat = (fragValue t).toNat + i * fragSize (fragMakeChild t splitBy i) ∧
    fragSize t = 2 ^ splitBy.toNat * fragSize (fragMakeChild t splitBy i) := by
  have last := wellFormed.end_le
  obtain ⟨bits, aligned⟩ := wellFormed
  obtain ⟨high, start⟩ := Nat.dvd_of_mod_eq_zero aligned
  generalize widthEq : 24 - ((fragBits t).toNat + splitBy.toNat) = width
  have newbits : (fragBits t + splitBy).toNat = (fragBits t).toNat + splitBy.toNat := by
    exact Nat.mod_eq_of_lt (by omega)
  have size : fragSize t = 2 ^ splitBy.toNat * 2 ^ width := by
    rw [fragSize, ← Nat.pow_add]
    congr 1
    lia
  have below : i * 2 ^ width < fragSize t := by
    rw [size]
    exact Nat.mul_lt_mul_of_pos_right child (Nat.two_pow_pos _)
  have shifted : (BitVec.ofNat 32 i <<< (24 - (fragBits t + splitBy).toNat)).toNat = i * 2 ^ width := by
    have less : i < 2 ^ 32 := child.trans_le (Nat.pow_le_pow_right (by decide) (by lia))
    rw [newbits, widthEq, BitVec.toNat_shiftLeft, BitVec.toNat_ofNat, Nat.mod_eq_of_lt less, Nat.shiftLeft_eq]
    exact Nat.mod_eq_of_lt (by lia)
  have sum : (fragValue t ||| (BitVec.ofNat 32 i <<< (24 - (fragBits t + splitBy).toNat))).toNat =
      (fragValue t).toNat + i * 2 ^ width := by
    rw [BitVec.toNat_or, shifted, start]
    exact (Nat.two_pow_add_eq_or_of_lt below _).symm
  have stepped : ((fragValue t).toNat + i * 2 ^ width) % 2 ^ width = 0 := by
    rw [start, size, Nat.add_mul_mod_self_right, Nat.mul_comm (2 ^ splitBy.toNat), Nat.mul_assoc, Nat.mul_mod_right]
  obtain ⟨formed, bitsEq, valueEq⟩ := @fragMake_spec (fragBits t + splitBy)
    (fragValue t ||| (BitVec.ofNat 32 i <<< (24 - (fragBits t + splitBy).toNat))) (by omega) (by omega)
    (by rw [sum, newbits, widthEq, stepped])
  rw [← fragMakeChild] at formed bitsEq valueEq
  have sizeEq : fragSize (fragMakeChild t splitBy i) = 2 ^ width := by
    rw [fragSize, bitsEq, newbits, widthEq]
  exact ⟨formed, by rw [bitsEq, newbits], by rw [valueEq, sum, sizeEq], by rw [size, sizeEq]⟩

end

section

variable {f g t : Frag} {node : FragNode} {tree : Fragtree} {v w splitBy : BitVec 32}

theorem fragKey_injective : Function.Injective fragKey := by
  intro f g same
  have bits : ∀ h : Frag, (fragBits h).toNat < 2 ^ 8 := fun h => by
    rw [fragBits_toNat]
    omega
  unfold fragKey at same
  have first := bits f
  have second := bits g
  exact frag_ext (BitVec.eq_of_toNat_eq (by lia)) (BitVec.eq_of_toNat_eq (by lia))

theorem fragOrdering_eq : fragOrdering f node = keyOrdering (fragKey f) (nodeKey node) := by
  have bits : ∀ h : Frag, (fragBits h).toNat < 2 ^ 8 := fun h => by
    rw [fragBits_toNat]
    omega
  have first := bits f
  have second := bits node.frag
  unfold fragOrdering fragCompare keyOrdering nodeKey fragKey
  simp only [BitVec.lt_def]
  split_ifs <;> first | rfl | lia

theorem Fragtree.find_eq : cephFindFrag tree.root f = findKey nodeKey (fragKey f) tree.root :=
  searchBy_eq fun _ _ => fragOrdering_eq

theorem Fragtree.find_some (found : cephFindFrag tree.root f = some node) : node ∈ inorder tree.root ∧ node.frag = f := by
  rw [Fragtree.find_eq] at found
  exact ⟨(findKey_mem found).1, fragKey_injective (findKey_mem found).2⟩

theorem Fragtree.find_mem (listed : node ∈ inorder tree.root) : cephFindFrag tree.root node.frag = some node := by
  rw [Fragtree.find_eq]
  exact findKey_of_mem tree.sorted listed

theorem Fragtree.leaf_of_none (absent : cephFindFrag tree.root f = none) : tree.Leaf f := by
  intro node listed same
  rw [← same, Fragtree.find_mem listed] at absent
  cases absent

theorem Fragtree.leaf_of_whole (found : cephFindFrag tree.root f = some node) (whole : node.splitBy = 0) : tree.Leaf f := by
  intro other listed same
  rw [← same, Fragtree.find_mem listed] at found
  cases found
  exact whole

end

section

variable {t : Frag} {tree : Fragtree} {v : BitVec 32} {splitBy : BitVec 32}

def childIndex (t : Frag) (splitBy v : BitVec 32) : Nat :=
  (v.toNat % 2 ^ 24 - (fragValue t).toNat) / (fragSize t / 2 ^ splitBy.toNat)

section

variable (wellFormed : FragWellFormed t) (fits : (fragBits t).toNat + splitBy.toNat ≤ 24)
include wellFormed fits

theorem fragMakeChild_contains {i : Nat} (child : i < 2 ^ splitBy.toNat) :
    fragContainsValue (fragMakeChild t splitBy i) v = true ↔ fragContainsValue t v = true ∧ childIndex t splitBy v = i := by
  obtain ⟨formed, -, value, size⟩ := fragMakeChild_spec wellFormed fits child
  have positive := fragSize_pos (fragMakeChild t splitBy i)
  rw [fragContainsValue_iff formed, fragContainsValue_iff wellFormed, childIndex, value, size,
    Nat.mul_div_cancel_left _ (Nat.two_pow_pos _)]
  generalize fragSize (fragMakeChild t splitBy i) = childSize at positive ⊢
  have last : i * childSize + childSize ≤ 2 ^ splitBy.toNat * childSize := by
    rw [← Nat.succ_mul]
    exact Nat.mul_le_mul_right _ child
  rw [Nat.div_eq_iff positive]
  lia

theorem childIndex_lt (within : fragContainsValue t v = true) : childIndex t splitBy v < 2 ^ splitBy.toNat := by
  obtain ⟨-, -, -, size⟩ := fragMakeChild_spec wellFormed fits (Nat.two_pow_pos _)
  obtain ⟨start, stop⟩ := (fragContainsValue_iff wellFormed).mp within
  have positive := fragSize_pos (fragMakeChild t splitBy 0)
  rw [childIndex, size, Nat.mul_div_cancel_left _ (Nat.two_pow_pos _), Nat.div_lt_iff_lt_mul positive, ← size]
  lia

theorem chooseChild_eq (within : fragContainsValue t v = true) :
    chooseChild t splitBy v = some (fragMakeChild t splitBy (childIndex t splitBy v)) := by
  have index := childIndex_lt wellFormed fits within
  have ways : (1#32 <<< splitBy.toNat).toNat = 2 ^ splitBy.toNat := by
    rw [BitVec.toNat_shiftLeft, Nat.shiftLeft_eq, BitVec.toNat_ofNat, Nat.one_mod_two_pow (by decide), Nat.one_mul]
    exact Nat.mod_eq_of_lt (Nat.pow_lt_pow_right (by decide) (by omega))
  rw [chooseChild, ways, List.find?_map, Option.map_eq_some_iff]
  refine ⟨_, List.find?_range_eq_some.mpr ⟨?_, List.mem_range.mpr index, fun j earlier => ?_⟩, rfl⟩
  · exact (fragMakeChild_contains wellFormed fits index).mpr ⟨within, rfl⟩
  · rw [Function.comp_apply, Bool.not_eq_true', ← Bool.not_eq_true, fragMakeChild_contains wellFormed fits (by lia)]
    omega

end

section

variable (splits : tree.Splits) (wellFormed : FragWellFormed t) (within : fragContainsValue t v = true)
include splits wellFormed within

/-- A pass stops at a leaf, and otherwise takes all values of a child to that child. -/
theorem chooseStep_cases : (tree.Leaf t ∧ ∀ w, chooseStep tree.root w t = .ok (.done (t, cephFindFrag tree.root t))) ∨
    ∃ n, FragWellFormed n ∧ (fragBits t).toNat < (fragBits n).toNat ∧ fragContainsValue n v = true ∧
      ∀ w, fragContainsValue n w = true → fragContainsValue t w = true ∧ chooseStep tree.root w t = .ok (.again n) := by
  cases search : cephFindFrag tree.root t with
  | none => exact .inl ⟨Fragtree.leaf_of_none search, fun w => by rw [chooseStep, search]⟩
  | some node =>
    by_cases whole : node.splitBy = 0
    · refine .inl ⟨Fragtree.leaf_of_whole search whole, fun w => ?_⟩
      rw [chooseStep, search]
      exact if_pos whole
    obtain ⟨listed, rfl⟩ := Fragtree.find_some search
    obtain ⟨positive, bound⟩ := splits node listed whole
    have nat : node.splitBy.toInt = node.splitBy.toNat := by
      rw [BitVec.toInt_eq_toNat_cond] at positive ⊢
      split_ifs at positive ⊢ <;> omega
    have fits : (fragBits node.frag).toNat + node.splitBy.toNat ≤ 24 := by omega
    have index := childIndex_lt wellFormed fits within
    obtain ⟨formed, bits, -⟩ := fragMakeChild_spec wellFormed fits index
    refine .inr ⟨_, formed, by lia, (fragMakeChild_contains wellFormed fits index).mpr ⟨within, rfl⟩, fun w inside => ?_⟩
    obtain ⟨inside, same⟩ := (fragMakeChild_contains wellFormed fits index).mp inside
    refine ⟨inside, ?_⟩
    rw [chooseStep, search]
    dsimp only
    rw [if_neg whole, chooseChild_eq wellFormed fits inside, same]

/-- All values of a leaf take the same way to it. -/
theorem chooseSteps_leaf {passes : Nat} (enough : 24 - (fragBits t).toNat < passes) :
    ∃ leaf, tree.Leaf leaf ∧ fragContainsValue leaf v = true ∧ ∀ w, fragContainsValue leaf w = true →
      fragContainsValue t w = true ∧ ∀ bound ≥ passes,
        loop .endless (chooseStep tree.root w) bound t = .ok (leaf, cephFindFrag tree.root leaf) := by
  induction passes generalizing t with
  | zero => omega
  | succ passes ih =>
    rcases chooseStep_cases splits wellFormed within with ⟨leaf, stops⟩ | ⟨n, formed, bits, inside, goes⟩
    · refine ⟨t, leaf, within, fun w contained => ⟨contained, fun bound more => ?_⟩⟩
      obtain ⟨bound, rfl⟩ := Nat.exists_eq_add_of_le' (Nat.one_le_of_lt more)
      exact loop_done (stops w)
    · have deeper := formed.bits
      obtain ⟨leaf, unsplit, inLeaf, same⟩ := ih formed inside (by lia)
      refine ⟨leaf, unsplit, inLeaf, fun w contained => ?_⟩
      obtain ⟨contained, run⟩ := same w contained
      obtain ⟨contained, again⟩ := goes w contained
      refine ⟨contained, fun bound more => ?_⟩
      obtain ⟨bound, rfl⟩ := Nat.exists_eq_add_of_le' (Nat.one_le_of_lt more)
      rw [loop_again again]
      exact run bound (by omega)

end

/-- The leaves of the tree are a partition of the values, and the descent finds the leaf of each. -/
theorem chooseFrag_partition (tree : Fragtree) (splits : tree.Splits) :
    ∃ leaf : BitVec 32 → Frag,
      (∀ v bound, 24 < bound → cephChooseFrag bound tree.root v = .ok (leaf v, cephFindFrag tree.root (leaf v))) ∧
      (∀ v, fragContainsValue (leaf v) v = true ∧ tree.Leaf (leaf v)) ∧
      (∀ v w, leaf v = leaf w ↔ fragContainsValue (leaf v) v = true ∧ fragContainsValue (leaf v) w = true) ∧
      ∀ v, ∃! f, f ∈ Set.range leaf ∧ fragContainsValue f v = true := by
  have formed : FragWellFormed (fragMake 0 0) := ⟨by decide, by decide⟩
  have whole : ∀ v, fragContainsValue (fragMake 0 0) v = true := by
    intro v
    rw [fragContainsValue_iff formed]
    exact ⟨Nat.zero_le _, Nat.mod_lt _ (by decide)⟩
  have runs := fun v => chooseSteps_leaf splits formed (whole v) (show 24 - (fragBits (fragMake 0 0)).toNat < 25 by decide)
  choose leaf unsplit contains same using runs
  have shared : ∀ v w, fragContainsValue (leaf v) w = true → leaf v = leaf w := by
    intro v w inside
    have first := (same v w inside).2 25 le_rfl
    rw [(same w w (contains w)).2 25 le_rfl] at first
    exact (congrArg Prod.fst (Except.ok.inj first)).symm
  refine ⟨leaf, fun v bound more => (same v v (contains v)).2 bound more, fun v => ⟨contains v, unsplit v⟩, fun v w => ?_, fun v => ?_⟩
  · exact ⟨fun equal => ⟨contains v, equal ▸ contains w⟩, fun both => shared v w both.2⟩
  · refine ⟨leaf v, ⟨⟨v, rfl⟩, contains v⟩, ?_⟩
    rintro - ⟨⟨w, rfl⟩, inside⟩
    exact shared w v inside

def halvedFragtree : Fragtree where
  root := .node ⟨fragMake 0 0, 1, ⟨-1, []⟩⟩ .nil (.node ⟨fragMake 1 0, 2, ⟨-1, []⟩⟩ .nil .nil)
  sorted := by
    rw [Sorted]
    decide

theorem chooseFrag_partition_halved : ∃ leaf : BitVec 32 → Frag,
    (∀ v bound, 24 < bound → cephChooseFrag bound halvedFragtree.root v = .ok (leaf v, cephFindFrag halvedFragtree.root (leaf v))) ∧
    leaf 0x345678 = fragMake 3 0x200000 := by
  have splits : halvedFragtree.Splits := by
    rw [Fragtree.Splits]
    decide
  obtain ⟨leaf, runs, -⟩ := chooseFrag_partition halvedFragtree splits
  refine ⟨leaf, runs, ?_⟩
  have run : cephChooseFrag 25 halvedFragtree.root 0x345678 = .ok (fragMake 3 0x200000, none) := rfl
  rw [runs 0x345678 25 (by decide)] at run
  exact congrArg Prod.fst (Except.ok.inj run)

end

end KmodCeph.Dir
