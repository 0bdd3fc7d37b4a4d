import KmodCeph.Dir.Fragtree

namespace KmodCeph.Dir

open Nat

def fragContainsFrag (f sub : Frag) : Bool :=
  fragBits sub ≥ fragBits f ∧ fragValue sub &&& fragMask f = fragValue f

def fragParent (f : Frag) : Frag :=
  fragMake (fragBits f - 1) (fragValue f &&& (fragMask f <<< 1))

def fragIsLeftChild (f : Frag) : Bool :=
  fragBits f > 0 ∧ fragValue f &&& (0x1000000#32 >>> (fragBits f).toNat) = 0

def fragIsRightChild (f : Frag) : Bool :=
  fragBits f > 0 ∧ fragValue f &&& (0x1000000#32 >>> (fragBits f).toNat) = 1

def fragSibling (f : Frag) : Frag :=
  fragMake (fragBits f) (fragValue f ^^^ (0x1000000#32 >>> (fragBits f).toNat))

def fragLeftChild (f : Frag) : Frag :=
  fragMake (fragBits f + 1) (fragValue f)

def fragRightChild (f : Frag) : Frag :=
  fragMake (fragBits f + 1) (fragValue f ||| (0x1000000#32 >>> (1 + fragBits f).toNat))

def FragsApart (f g : Frag) : Prop :=
  ∀ v, ¬ (fragContainsValue f v ∧ fragContainsValue g v)

def FragBefore (f g : Frag) : Prop :=
  ∀ v w, fragContainsValue f v → fragContainsValue g w → v.toNat % 2 ^ 24 < w.toNat % 2 ^ 24

structure FragSplits (f : Frag) : Prop where
  wellFormed : FragWellFormed (fragLeftChild f) ∧ FragWellFormed (fragRightChild f)
  apart : FragsApart (fragLeftChild f) (fragRightChild f)
  union : ∀ v, fragContainsValue f v ↔
    fragContainsValue (fragLeftChild f) v ∨ fragContainsValue (fragRightChild f) v
  parent : fragParent (fragLeftChild f) = f ∧ fragParent (fragRightChild f) = f
  sibling : fragSibling (fragLeftChild f) = fragRightChild f ∧ fragSibling (fragRightChild f) = fragLeftChild f

structure FragSided (f : Frag) : Prop where
  left : fragIsLeftChild f ↔ f = fragLeftChild (fragParent f)
  right : fragIsRightChild f ↔ f = fragRightChild (fragParent f)
  one : fragIsLeftChild f = !fragIsRightChild f

/-- Parents, children, siblings and the order of fragments. -/
structure FragAlgebra (f g : Frag) : Prop where
  splits : (fragBits f).toNat < 24 → FragSplits f
  sided : 1 ≤ (fragBits f).toNat → FragSided f
  contains : fragContainsFrag f g ↔ ∀ v, fragContainsValue g v → fragContainsValue f v
  nested : fragContainsFrag f g ∨ fragContainsFrag g f ∨ FragsApart f g
  ordered : FragsApart f g → fragCompare f g = -1 ∧ FragBefore f g ∨ fragCompare f g = 1 ∧ FragBefore g f

section

variable {f g h : Frag}

theorem fragLeftChild_eq : fragLeftChild f = fragMakeChild f 1 0 := by
  simp [fragLeftChild, fragMakeChild]

theorem succBits_toNat (inner : (fragBits f).toNat < 24) : (fragBits f + 1).toNat = (fragBits f).toNat + 1 := by
  exact mod_eq_of_lt (by simp; omega)

theorem fragRightChild_eq (inner : (fragBits f).toNat < 24) : fragRightChild f = fragMakeChild f 1 1 := by
  have bit : 0x1000000#32 >>> (1 + fragBits f).toNat = BitVec.ofNat 32 1 <<< (24 - (fragBits f + 1).toNat) := by
    apply BitVec.eq_of_toNat_eq
    rw [BitVec.add_comm, succBits_toNat inner, topBit_toNat inner, BitVec.toNat_shiftLeft, shiftLeft_eq]
    have small : 2 ^ (24 - ((fragBits f).toNat + 1)) ≤ 2 ^ 24 := Nat.pow_le_pow_right (by decide) (sub_le _ _)
    rw [BitVec.toNat_ofNat, one_mod, Nat.one_mul]
    exact (mod_eq_of_lt (small.trans_lt (by decide))).symm
  rw [fragRightChild, fragMakeChild, bit]

/-- The bit of a value that tells a left child from a right one. -/
theorem lowestBit_toNat (bits : (fragBits f).toNat ≤ 24) :
    (fragValue f &&& (0x1000000#32 >>> (fragBits f).toNat)).toNat = (fragValue f).toNat / fragSize f % 2 * fragSize f := by
  have mask : 2 ^ (24 - (fragBits f).toNat + 1) - 2 ^ (24 - (fragBits f).toNat) = 2 ^ (24 - (fragBits f).toNat) := by
    rw [Nat.pow_succ]
    omega
  rw [BitVec.toNat_and, topBit_toNat bits, ← mask, and_highMask (le_succ _), Nat.pow_succ, mod_mul_right_div_self]
  rfl

theorem xor_eq_or {x y : BitVec 32} (apart : x &&& y = 0#32) : x ^^^ y = x ||| y := by
  ext bit
  have here := congrArg (·.getLsbD bit) apart
  grind

theorem size_step {m x y : Nat} (first : x % m = 0) (second : y % m = 0) (less : x < y) : x + m ≤ y := by
  obtain ⟨a, rfl⟩ := dvd_of_mod_eq_zero first
  obtain ⟨b, rfl⟩ := dvd_of_mod_eq_zero second
  exact mul_le_mul_left m (Nat.lt_of_mul_lt_mul_left less)

theorem FragWellFormed.aligned_of_le (wellFormed : FragWellFormed f) (finer : (fragBits f).toNat ≤ (fragBits g).toNat) :
    (fragValue f).toNat % fragSize g = 0 ∧ fragSize f % fragSize g = 0 := by
  have divides : fragSize g ∣ fragSize f := pow_dvd_pow 2 (Nat.sub_le_sub_left finer 24)
  exact ⟨mod_eq_zero_of_dvd (divides.trans (dvd_of_mod_eq_zero wellFormed.aligned)), mod_eq_zero_of_dvd divides⟩

theorem fragContainsValue_first (wellFormed : FragWellFormed f) : fragContainsValue f (fragValue f) := by
  have positive := fragSize_pos f
  have small := fragValue_lt f
  rw [fragContainsValue_iff wellFormed]
  omega

theorem fragContainsFrag_iff : fragContainsFrag f g ↔
    (fragBits f).toNat ≤ (fragBits g).toNat ∧ fragContainsValue f (fragValue g) := by
  simp [fragContainsFrag, fragContainsValue, BitVec.le_def]

/-- Of two fragments the one with more bits is inside the other one or apart from it. -/
theorem FragWellFormed.finer (first : FragWellFormed f) (second : FragWellFormed g)
    (finer : (fragBits f).toNat ≤ (fragBits g).toNat) :
    (fragValue f).toNat ≤ (fragValue g).toNat ∧
        (fragValue g).toNat + fragSize g ≤ (fragValue f).toNat + fragSize f ∨
      (fragValue f).toNat + fragSize f ≤ (fragValue g).toNat ∨
      (fragValue g).toNat + fragSize g ≤ (fragValue f).toNat := by
  obtain ⟨start, size⟩ := first.aligned_of_le finer
  have last : ((fragValue f).toNat + fragSize f) % fragSize g = 0 := by
    rw [add_mod, start, size, Nat.add_zero, zero_mod]
  rcases Nat.lt_or_ge (fragValue g).toNat (fragValue f).toNat with below | above
  · exact .inr (.inr (size_step second.aligned start below))
  rcases Nat.lt_or_ge (fragValue g).toNat ((fragValue f).toNat + fragSize f) with within | beyond
  · exact .inl ⟨above, size_step second.aligned last within⟩
  · exact .inr (.inl beyond)

theorem fragParent_spec (wellFormed : FragWellFormed f) (some : 1 ≤ (fragBits f).toNat) :
    FragWellFormed (fragParent f) ∧ (fragBits (fragParent f)).toNat + 1 = (fragBits f).toNat ∧
      (fragValue (fragParent f)).toNat = (fragValue f).toNat / (fragSize f * 2) * (fragSize f * 2) := by
  obtain ⟨bits, -⟩ := wellFormed
  have fewer : (fragBits f - 1).toNat = (fragBits f).toNat - 1 := BitVec.toNat_sub_of_le (BitVec.le_def.mpr some)
  have width : 24 - ((fragBits f).toNat - 1) = 24 - (fragBits f).toNat + 1 := by omega
  have small := fragValue_lt f
  have mask : (fragMask f <<< 1).toNat = 2 ^ 25 - 2 ^ (24 - (fragBits f).toNat + 1) := by
    have twice : 2 ^ (24 - (fragBits f).toNat + 1) = fragSize f * 2 := Nat.pow_succ _ _
    rw [BitVec.toNat_shiftLeft, fragMask_toNat bits, shiftLeft_eq, twice]
    omega
  have value : (fragValue f &&& (fragMask f <<< 1)).toNat = (fragValue f).toNat / (fragSize f * 2) * (fragSize f * 2) := by
    rw [BitVec.toNat_and, mask, and_highMask (by omega), mod_eq_of_lt (by omega)]
    rfl
  obtain ⟨formed, bitsEq, valueEq⟩ := @fragMake_spec (fragBits f - 1) (fragValue f &&& (fragMask f <<< 1)) (by omega)
    (by rw [value]; exact (div_mul_le_self _ _).trans_lt small)
    (by rw [fewer, width, value]; exact mul_mod_left _ _)
  refine ⟨formed, ?_, ?_⟩
  · rw [fragParent, bitsEq, fewer, Nat.sub_add_cancel some]
  · rw [fragParent, valueEq, value]

structure FragChild (f child : Frag) (i : Nat) : Prop where
  wellFormed : FragWellFormed child
  bits : (fragBits child).toNat = (fragBits f).toNat + 1
  value : (fragValue child).toNat = (fragValue f).toNat + i * fragSize child
  size : fragSize f = 2 * fragSize child

theorem FragWellFormed.children (wellFormed : FragWellFormed f) (inner : (fragBits f).toNat < 24) :
    FragChild f (fragLeftChild f) 0 ∧ FragChild f (fragRightChild f) 1 := by
  have left := @fragMakeChild_spec f 1 0 wellFormed inner (by decide)
  have right := @fragMakeChild_spec f 1 1 wellFormed inner (by decide)
  rw [← fragLeftChild_eq] at left
  rw [← fragRightChild_eq inner] at right
  exact ⟨⟨left.1, left.2.1, left.2.2.1, left.2.2.2⟩, ⟨right.1, right.2.1, right.2.2.1, right.2.2.2⟩⟩

theorem FragWellFormed.ofParent (wellFormed : FragWellFormed f) (some : 1 ≤ (fragBits f).toNat) :
    FragWellFormed (fragParent f) ∧ FragChild (fragParent f) f ((fragValue f).toNat / fragSize f % 2) := by
  obtain ⟨formed, fewer, value⟩ := fragParent_spec wellFormed some
  refine ⟨formed, wellFormed, fewer.symm, ?_, ?_⟩
  · rw [value, ← Nat.div_div_eq_div_mul, Nat.mul_comm (fragSize f), ← Nat.mul_assoc, ← Nat.add_mul, div_add_mod']
    exact (Nat.div_mul_cancel (dvd_of_mod_eq_zero wellFormed.aligned)).symm
  · have bits := wellFormed.bits
    rw [fragSize, fragSize, ← pow_succ']
    congr 1
    omega

theorem FragChild.unique {i : Nat} (one : FragChild f g i) (other : FragChild f h i) : g = h := by
  have bits := one.bits.trans other.bits.symm
  refine frag_ext (BitVec.eq_of_toNat_eq bits) (BitVec.eq_of_toNat_eq ?_)
  rw [one.value, other.value, fragSize, fragSize, bits]

/-- The last bit of a fragment says which child it is. -/
theorem FragChild.lowest {i : Nat} (child : FragChild f g i) (wellFormed : FragWellFormed f) (less : i < 2) :
    (fragValue g).toNat / fragSize g % 2 = i ∧ (fragValue g).toNat / (fragSize g * 2) * (fragSize g * 2) = (fragValue f).toNat := by
  have positive := fragSize_pos g
  obtain ⟨high, start⟩ := dvd_of_mod_eq_zero wellFormed.aligned
  have whole : (fragValue g).toNat / fragSize g = 2 * high + i := by
    rw [child.value, start, child.size, Nat.mul_right_comm, ← Nat.add_mul, Nat.mul_div_cancel _ positive]
  rw [← Nat.div_div_eq_div_mul, whole, start, child.size, show (2 * high + i) / 2 = high by omega, Nat.mul_comm high,
    Nat.mul_comm (fragSize g)]
  exact ⟨by omega, rfl⟩

theorem FragChild.parent {i : Nat} (child : FragChild f g i) (wellFormed : FragWellFormed f) (less : i < 2) :
    fragParent g = f := by
  obtain ⟨-, bits, value⟩ := fragParent_spec child.wellFormed (by rw [child.bits]; exact le_add_left 1 _)
  have sameBits : (fragBits (fragParent g)).toNat = (fragBits f).toNat := Nat.succ.inj (bits.trans child.bits)
  exact frag_ext (BitVec.eq_of_toNat_eq sameBits) (BitVec.eq_of_toNat_eq (value.trans (child.lowest wellFormed less).2))

theorem FragWellFormed.splits (wellFormed : FragWellFormed f) (inner : (fragBits f).toNat < 24) : FragSplits f := by
  obtain ⟨left, right⟩ := wellFormed.children inner
  have leftBits : fragBits (fragLeftChild f) = fragBits f + 1 :=
    BitVec.eq_of_toNat_eq (left.bits.trans (succBits_toNat inner).symm)
  have rightBits : fragBits (fragRightChild f) = fragBits f + 1 :=
    BitVec.eq_of_toNat_eq (right.bits.trans (succBits_toNat inner).symm)
  have leftValue : fragValue (fragLeftChild f) = fragValue f :=
    BitVec.eq_of_toNat_eq (left.value.trans (by rw [Nat.zero_mul, Nat.add_zero]))
  have apart := fun v => @fragMakeChild_contains f v 1 wellFormed inner
  refine ⟨⟨left.wellFormed, right.wellFormed⟩, ?_, ?_,
    ⟨left.parent wellFormed (by decide), right.parent wellFormed (by decide)⟩, ?_⟩
  · intro v both
    rw [fragLeftChild_eq, fragRightChild_eq inner, apart v (by decide), apart v (by decide)] at both
    exact absurd (both.1.2.symm.trans both.2.2) (by decide)
  · intro v
    rw [fragLeftChild_eq, fragRightChild_eq inner, apart v (by decide), apart v (by decide), ← and_or_left]
    refine (and_iff_left_of_imp fun within => ?_).symm
    have index := @childIndex_lt f v 1 wellFormed inner within
    rw [show (1 : BitVec 32).toNat = 1 from rfl] at index
    omega
  · have clear : fragValue f &&& (0x1000000#32 >>> (fragBits f + 1).toNat) = 0#32 := by
      apply BitVec.eq_of_toNat_eq
      have lowest := lowestBit_toNat left.wellFormed.bits
      rw [(left.lowest wellFormed (by decide)).1, leftBits, leftValue] at lowest
      rw [lowest, Nat.zero_mul]
      rfl
    have joined : fragValue (fragRightChild f) = fragValue f ^^^ (0x1000000#32 >>> (fragBits f + 1).toNat) := by
      apply BitVec.eq_of_toNat_eq
      obtain ⟨high, start⟩ := dvd_of_mod_eq_zero wellFormed.aligned
      have positive := fragSize_pos (fragRightChild f)
      have size := right.size
      rw [xor_eq_or clear, right.value, BitVec.toNat_or, topBit_toNat (leftBits ▸ left.wellFormed.bits), ← rightBits, ← fragSize,
        start, Nat.one_mul]
      exact two_pow_add_eq_or_of_lt (show fragSize (fragRightChild f) < fragSize f by omega) _
    constructor
    · rw [fragSibling, leftBits, leftValue, xor_eq_or clear, fragRightChild, BitVec.add_comm 1]
    · rw [fragSibling, rightBits, joined, BitVec.xor_assoc, BitVec.xor_self, BitVec.xor_zero, fragLeftChild]

theorem FragWellFormed.sided (wellFormed : FragWellFormed f) (some : 1 ≤ (fragBits f).toNat) :
    (fragIsLeftChild f ↔ (fragValue f).toNat / fragSize f % 2 = 0) ∧
      (fragIsRightChild f ↔ (fragValue f).toNat / fragSize f % 2 = 1 ∧ fragSize f = 1) ∧
      (f = fragLeftChild (fragParent f) ↔ (fragValue f).toNat / fragSize f % 2 = 0) ∧
      (f = fragRightChild (fragParent f) ↔ (fragValue f).toNat / fragSize f % 2 = 1) := by
  obtain ⟨formed, child⟩ := wellFormed.ofParent some
  obtain ⟨left, right⟩ := formed.children (by have := child.bits; have := wellFormed.bits; omega)
  have positive := fragSize_pos f
  have more : fragBits f > 0#32 := BitVec.lt_def.mpr some
  refine ⟨?_, ?_, ⟨fun same => ?_, fun even => ?_⟩, ⟨fun same => ?_, fun odd => ?_⟩⟩
  · rw [fragIsLeftChild, decide_eq_true_iff, ← BitVec.toNat_inj, lowestBit_toNat wellFormed.bits]
    simp [more, positive.ne']
  · rw [fragIsRightChild, decide_eq_true_iff, ← BitVec.toNat_inj, lowestBit_toNat wellFormed.bits]
    simp [more]
  · have lowest := (left.lowest formed (by decide)).1
    rwa [← same] at lowest
  · exact (even ▸ child).unique left
  · have lowest := (right.lowest formed (by decide)).1
    rwa [← same] at lowest
  · exact (odd ▸ child).unique right

theorem fragContainsFrag_iff_forall (first : FragWellFormed f) (second : FragWellFormed g) :
    fragContainsFrag f g ↔ ∀ v, fragContainsValue g v → fragContainsValue f v := by
  rw [fragContainsFrag_iff]
  have small := second.end_le
  constructor
  · rintro ⟨finer, inside⟩ v within
    have nested := first.finer second finer
    rw [fragContainsValue_iff first] at inside ⊢
    rw [fragContainsValue_iff second] at within
    lia
  · intro every
    have inside := every _ (fragContainsValue_first second)
    refine ⟨?_, inside⟩
    by_contra coarser
    have larger : fragSize f < fragSize g := Nat.pow_lt_pow_right (by decide) (by have := first.bits; omega)
    have end_ : (BitVec.ofNat 32 ((fragValue g).toNat + fragSize g - 1)).toNat = (fragValue g).toNat + fragSize g - 1 :=
      mod_eq_of_lt (by omega)
    have last := every (BitVec.ofNat 32 ((fragValue g).toNat + fragSize g - 1))
    rw [fragContainsValue_iff first, fragContainsValue_iff second, end_] at last
    rw [fragContainsValue_iff first] at inside
    lia

theorem fragsApart_iff (first : FragWellFormed f) (second : FragWellFormed g)
    (finer : (fragBits f).toNat ≤ (fragBits g).toNat) : FragsApart f g ↔ fragContainsFrag f g = false := by
  have nested := first.finer second finer
  have small := fragValue_lt g
  rw [← Bool.not_eq_true, fragContainsFrag_iff, fragContainsValue_iff first, mod_eq_of_lt small]
  constructor
  · rintro apart ⟨-, inside⟩
    refine apart (fragValue g) ⟨?_, fragContainsValue_first second⟩
    rw [fragContainsValue_iff first, mod_eq_of_lt small]
    exact inside
  · rintro outside v ⟨inFirst, inSecond⟩
    rw [fragContainsValue_iff first] at inFirst
    rw [fragContainsValue_iff second] at inSecond
    lia

theorem FragsApart.symm (apart : FragsApart f g) : FragsApart g f :=
  fun v both => apart v both.symm

theorem frag_nested (first : FragWellFormed f) (second : FragWellFormed g) :
    fragContainsFrag f g ∨ fragContainsFrag g f ∨ FragsApart f g := by
  rcases Nat.le_total (fragBits f).toNat (fragBits g).toNat with finer | finer
  · cases contains : fragContainsFrag f g with
    | true => exact .inl rfl
    | false => exact .inr (.inr ((fragsApart_iff first second finer).mpr contains))
  · cases contains : fragContainsFrag g f with
    | true => exact .inr (.inl rfl)
    | false => exact .inr (.inr ((fragsApart_iff second first finer).mpr contains).symm)

theorem FragsApart.before (apart : FragsApart f g) (first : FragWellFormed f) (second : FragWellFormed g)
    (less : (fragValue f).toNat < (fragValue g).toNat) : FragBefore f g := by
  intro v w inFirst inSecond
  have outside := apart (fragValue g)
  have small := fragValue_lt g
  rw [fragContainsValue_iff first, mod_eq_of_lt small] at outside
  have member := fragContainsValue_first second
  rw [fragContainsValue_iff first] at inFirst
  rw [fragContainsValue_iff second] at inSecond
  lia

theorem FragsApart.ordered (apart : FragsApart f g) (first : FragWellFormed f) (second : FragWellFormed g) :
    fragCompare f g = -1 ∧ FragBefore f g ∨ fragCompare f g = 1 ∧ FragBefore g f := by
  unfold fragCompare
  rcases Nat.lt_trichotomy (fragValue f).toNat (fragValue g).toNat with less | same | greater
  · left
    rw [if_pos (BitVec.lt_def.mpr less)]
    exact ⟨rfl, apart.before first second less⟩
  · have member := fragContainsValue_first second
    rw [← BitVec.eq_of_toNat_eq same] at member
    exact absurd ⟨fragContainsValue_first first, member⟩ (apart (fragValue f))
  · right
    rw [if_neg (BitVec.not_lt.mpr (BitVec.le_def.mpr greater.le)), if_pos (BitVec.lt_def.mpr greater)]
    exact ⟨rfl, apart.symm.before second first greater⟩

end

/-- The algebra holds but for the right children of fewer than 24 bits, which `ceph_frag_is_right_child` does not know. -/
theorem frag_algebra_iff {f g : Frag} (first : FragWellFormed f) (second : FragWellFormed g) :
    FragAlgebra f g ↔
      ((fragBits f).toNat = 0 ∨ (fragBits f).toNat = 24 ∨ (fragValue f).toNat / fragSize f % 2 = 0) := by
  have most := first.bits
  constructor
  · intro algebra
    by_contra inner
    obtain ⟨-, right, -, isRight⟩ := first.sided (by omega)
    have odd : (fragValue f).toNat / fragSize f % 2 = 1 := by omega
    have single := (right.mp ((algebra.sided (by omega)).right.mpr (isRight.mpr odd))).2
    have wide : 1 < fragSize f := Nat.one_lt_two_pow (by omega)
    exact wide.ne' single
  · intro known
    refine ⟨first.splits, fun some => ?_, fragContainsFrag_iff_forall first second, frag_nested first second,
      fun apart => apart.ordered first second⟩
    obtain ⟨left, right, isLeft, isRight⟩ := first.sided some
    have single : (fragValue f).toNat / fragSize f % 2 = 1 → fragSize f = 1 := by
      intro odd
      have all : (fragBits f).toNat = 24 := by omega
      rw [fragSize, all]
      rfl
    refine ⟨left.trans isLeft.symm, right.trans ((and_iff_left_of_imp single).trans isRight.symm), ?_⟩
    rw [Bool.eq_not, ne_eq, Bool.eq_iff_iff, left, right, and_iff_left_of_imp single]
    omega

/-- A left child, and a right one with all of its bits. -/
theorem frag_algebra_iff_children : FragAlgebra (fragMake 1 0) (fragMake 24 0x800001) ∧
    FragAlgebra (fragMake 24 0x800001) (fragMake 1 0) := by
  have half : FragWellFormed (fragMake 1 0) := ⟨by decide, by decide⟩
  have point : FragWellFormed (fragMake 24 0x800001) := ⟨by decide, by decide⟩
  exact ⟨(frag_algebra_iff half point).mpr (.inr (.inr (by decide))),
    (frag_algebra_iff point half).mpr (.inr (.inl (by decide)))⟩

/-- The right half of all values is a right child, and not known as one. -/
theorem frag_algebra_breaks :
    ¬ ∀ f g : Frag, FragWellFormed f → FragWellFormed g → FragAlgebra f g := by
  intro every
  have sided := (every (fragMake 1 0x800000) (fragMake 0 0) ⟨by decide, by decide⟩ ⟨by decide, by decide⟩).sided (by decide)
  exact absurd (sided.right.mpr (by decide)) (by decide)

end KmodCeph.Dir
