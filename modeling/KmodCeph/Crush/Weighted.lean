import KmodCeph.Crush.Bucket

namespace KmodCeph.Crush

open Lib List Nat

def Bucket.weightBefore (bucket : Bucket) (i : Nat) : Nat := ((bucket.itemWeights.take i).map UInt32.toNat).sum

structure Bucket.ListSums (bucket : Bucket) : Prop where
  items : bucket.items.length = bucket.size.toNat
  itemWeights : bucket.itemWeights.length = bucket.size.toNat
  sumWeights : bucket.sumWeights.length = bucket.size.toNat
  sums : ∀ i < bucket.size.toNat, (bucket.sumWeights.getD i 0).toNat = bucket.weightBefore (i + 1)

def Bucket.nodeWeight (bucket : Bucket) (n : Nat) : Nat := (bucket.nodeWeights.getD n 0).toNat

/-- A tree whose inner nodes weigh as much as their children. -/
structure Bucket.TreeSums (bucket : Bucket) : Prop where
  nodes : bucket.nodeWeights.length = bucket.numNodes.toNat
  power : ∃ k, 1 ≤ k ∧ k ≤ 7 ∧ bucket.numNodes.toNat = 2 ^ k
  sums : ∀ h m, (2 * m + 1) * 2 ^ (h + 1) < bucket.numNodes.toNat →
    bucket.nodeWeight ((2 * m + 1) * 2 ^ (h + 1)) =
      bucket.nodeWeight ((2 * m + 1) * 2 ^ (h + 1) - 2 ^ h) + bucket.nodeWeight ((2 * m + 1) * 2 ^ (h + 1) + 2 ^ h)

section

variable {bucket : Bucket} {x r : UInt32}

theorem scaled_lt {draw scale weight : Nat} (below : draw < scale) (positive : 0 < weight) :
    draw * weight / scale < weight := by
  rw [div_lt_iff_lt_mul (zero_lt_of_lt below), Nat.mul_comm]
  exact Nat.mul_lt_mul_of_pos_left below positive

theorem weightBefore_succ {i : Nat} (inside : i < bucket.itemWeights.length) :
    bucket.weightBefore (i + 1) = bucket.weightBefore i + bucket.itemWeights[i].toNat := by
  unfold Bucket.weightBefore
  rw [take_add_one, getElem?_eq_getElem inside, Option.toList_some, map_append, sum_append]
  simp

theorem listChooseFrom_weighted (sums : bucket.ListSums) {i : Nat} (inside : i ≤ bucket.size.toNat)
    (positive : 0 < bucket.weightBefore i) :
    ∃ index < i, 0 < (bucket.itemWeights.getD index 0).toNat ∧
      listChooseFrom bucket x r i = readAt .outOfBounds bucket.items index := by
  induction i with
  | zero => exact absurd positive (Nat.lt_irrefl 0)
  | succ i ih =>
    have items : i < bucket.items.length := by rw [sums.items]; exact inside
    have weights : i < bucket.itemWeights.length := by rw [sums.itemWeights]; exact inside
    have totals : i < bucket.sumWeights.length := by rw [sums.sumWeights]; exact inside
    have total := sums.sums i inside
    rw [getD_eq_getElem _ _ totals] at total
    rw [listChooseFrom, readAt_eq_ok items, readAt_eq_ok totals, readAt_eq_ok weights]
    simp only [bind, Except.bind]
    split
    next drawn =>
      refine ⟨i, lt_succ_self i, ?_, (readAt_eq_ok items).symm⟩
      rw [getD_eq_getElem _ _ weights]
      exact zero_lt_of_lt drawn
    next passed =>
      -- The draw is below the sum and not below the weight of the item, so the items before it have some.
      have drawn := scaled_lt (mod_lt (crushHash32Four bucket.hash x (UInt32.ofInt bucket.items[i]) r
        (UInt32.ofInt bucket.id)).toNat (by decide : 0 < 0x10000)) positive
      rw [total] at passed
      rw [weightBefore_succ weights] at passed drawn
      obtain ⟨index, below, weighs, chosen⟩ := ih (by omega) (by lia)
      exact ⟨index, lt_succ_of_lt below, weighs, chosen⟩

/-- A subtree of a tree bucket that has a weight. -/
structure Bucket.Weighs (bucket : Bucket) (h n : Nat) : Prop where
  shape : ∃ m, n = (2 * m + 1) * 2 ^ h
  inside : n + 2 ^ h ≤ bucket.numNodes.toNat
  positive : 0 < bucket.nodeWeight n

theorem treeDescend_weighted (sums : bucket.TreeSums) {bound h n : Nat} (enough : h < bound)
    (weighs : bucket.Weighs h n) :
    Returns (treeDescend bucket x r bound n)
      (Next.Holds (fun after => ∃ lower < h, lower < bound ∧ bucket.Weighs lower after)
        fun leaf => leaf % 2 = 1 ∧ leaf < bucket.numNodes.toNat ∧ 0 < bucket.nodeWeight leaf) := by
  obtain ⟨⟨m, shape⟩, inside, positive⟩ := weighs
  have width := Nat.two_pow_pos h
  cases h with
  | zero =>
    have odd : n % 2 = 1 := by lia
    rw [treeDescend, if_pos odd]
    exact Returns.pure ⟨odd, by lia, positive⟩
  | succ h =>
    have even : ¬ n % 2 = 1 := by lia
    have left : n - 2 ^ h = (2 * (2 * m) + 1) * 2 ^ h := by
      rw [shape]
      exact Nat.sub_eq_of_eq_add (by ring)
    have right : n + 2 ^ h = (2 * (2 * m + 1) + 1) * 2 ^ h := by
      rw [shape]
      ring
    have node : n < bucket.nodeWeights.length := by rw [sums.nodes]; lia
    have child : n - 2 ^ h < bucket.nodeWeights.length := by lia
    have tall : height bound n = .ok (h + 1) := by
      rw [shape]
      exact height_of_odd_mul enough
    have total := sums.sums h m (by lia)
    have drawn := scaled_lt (crushHash32Four bucket.hash x (UInt32.ofNat n) r (UInt32.ofInt bucket.id)).toNat_lt positive
    have weight : bucket.nodeWeights[n].toNat = bucket.nodeWeight n := by
      rw [Bucket.nodeWeight, getD_eq_getElem _ _ node]
    have weightLeft : bucket.nodeWeights[n - 2 ^ h].toNat = bucket.nodeWeight (n - 2 ^ h) := by
      rw [Bucket.nodeWeight, getD_eq_getElem _ _ child]
    simp only [treeDescend, even, if_false, bind, Except.bind, readAt_eq_ok node, tall, Nat.add_sub_cancel,
      readAt_eq_ok child, weight, weightLeft]
    refine Returns.pure ⟨h, lt_succ_self h, by omega, ?_⟩
    split
    next below => exact ⟨⟨_, left⟩, by lia, zero_lt_of_lt below⟩
    next above => exact ⟨⟨_, right⟩, by lia, by lia⟩

/-- The descent of a tree ends at a leaf with a weight. -/
theorem bucketTreeChoose_weighted (sums : bucket.TreeSums) (positive : 0 < bucket.nodeWeight (bucket.numNodes.toNat / 2))
    {bound : Nat} (enough : bucket.numNodes.toNat < bound) :
    ∃ index < bucket.numNodes.toNat / 2, 0 < bucket.nodeWeight (2 * index + 1) ∧
      bucketTreeChoose bound bucket x r = readAt .outOfBounds bucket.items index := by
  obtain ⟨k, low, -, size⟩ := sums.power
  obtain ⟨h, rfl⟩ := Nat.exists_eq_add_of_le' low
  have doubled : 2 ^ (h + 1) = 2 ^ h * 2 := by ring
  have root : bucket.numNodes.toNat / 2 = 2 ^ h := by
    rw [size, doubled, Nat.mul_div_cancel _ Nat.two_pos]
  have low := @Nat.lt_two_pow_self h
  have start : bucket.Weighs h (bucket.numNodes.toNat / 2) :=
    ⟨⟨0, by rw [root]; omega⟩, by rw [root]; omega, positive⟩
  obtain ⟨leaf, ran, odd, inside, weighs⟩ :=
    Returns.loop (fun h n => h < bound ∧ bucket.Weighs h n)
      (fun h n holds => treeDescend_weighted (x := x) (r := r) sums holds.1 holds.2)
      (show h < bound by lia) ⟨by lia, start⟩
  refine ⟨leaf / 2, by lia, ?_, ?_⟩
  · have same : 2 * (leaf / 2) + 1 = leaf := by lia
    rw [same]
    exact weighs
  · rw [bucketTreeChoose, ran]
    rfl

end

/-- An item that a list or tree bucket with some weight returns has a weight of its own. -/
theorem weighted_choice (bucket : Bucket) (x r : UInt32) :
    (bucket.ListSums → 0 < bucket.weightBefore bucket.size.toNat →
      ∃ index < bucket.size.toNat, index < bucket.items.length ∧ 0 < (bucket.itemWeights.getD index 0).toNat ∧
        bucketListChoose bucket x r = readAt .outOfBounds bucket.items index) ∧
    (bucket.TreeSums → 0 < bucket.nodeWeight (bucket.numNodes.toNat / 2) →
      ∀ bound > bucket.numNodes.toNat, ∃ index < bucket.numNodes.toNat / 2, 0 < bucket.nodeWeight (2 * index + 1) ∧
        bucketTreeChoose bound bucket x r = readAt .outOfBounds bucket.items index) := by
  refine ⟨fun sums positive => ?_, fun sums positive bound enough => bucketTreeChoose_weighted sums positive enough⟩
  obtain ⟨index, below, weighs, chosen⟩ := listChooseFrom_weighted (x := x) (r := r) sums le_rfl positive
  exact ⟨index, below, by rw [sums.items]; exact below, weighs, chosen⟩

def unequal : Bucket where
  id := -1
  type := 1
  alg := crushBucketTree
  hash := crushHashRjenkins1
  size := 2
  items := [0, 1]
  itemWeights := [0, 0x10000]
  sumWeights := [0, 0x10000]
  numNodes := 4
  nodeWeights := [0, 0, 0x10000, 0x10000]
  straws := []

theorem unequal_listSums : unequal.ListSums where
  items := rfl
  itemWeights := rfl
  sumWeights := rfl
  sums := by decide

theorem unequal_treeSums : unequal.TreeSums where
  nodes := rfl
  power := ⟨2, by decide, by decide, rfl⟩
  sums := by
    intro h m inside
    have four : unequal.numNodes.toNat = 4 := rfl
    have high : 2 ≤ 2 ^ (h + 1) := by
      have positive := Nat.two_pow_pos h
      omega
    have first : m = 0 := by
      by_contra later
      have large : 3 * 2 ≤ (2 * m + 1) * 2 ^ (h + 1) := Nat.mul_le_mul (by omega) high
      omega
    subst first
    have low : h = 0 := by
      by_contra higher
      have large : 2 ^ (1 + 1) ≤ 2 ^ (h + 1) := Nat.pow_le_pow_right (by decide) (by omega)
      omega
    subst low
    rfl

theorem weighted_choice_unequal :
    (∃ index < unequal.size.toNat, index < unequal.items.length ∧ 0 < (unequal.itemWeights.getD index 0).toNat ∧
      bucketListChoose unequal 7 1 = readAt .outOfBounds unequal.items index) ∧
    ∃ index < unequal.numNodes.toNat / 2, 0 < unequal.nodeWeight (2 * index + 1) ∧
      bucketTreeChoose 5 unequal 7 1 = readAt .outOfBounds unequal.items index :=
  ⟨(weighted_choice unequal 7 1).1 unequal_listSums (by decide),
    (weighted_choice unequal 7 1).2 unequal_treeSums (by decide) 5 (by decide)⟩

end KmodCeph.Crush
