import Mathlib.Data.List.GetD
import KmodCeph.Lib.Loop
import KmodCeph.Crush.Hash

namespace KmodCeph.Crush

open Lib List

/-- Undefined behaviour of the mapper. Indices are checked: `outOfBounds` for the arrays of a bucket, `badSlot` for
those of the map, `weights` for the device weights and `scratch` for the vectors of a rule. -/
inductive Fault where
  | outOfBounds
  | badSlot
  | weights
  | scratch
  | nullBucket
  | nullRule
  | divideByZero
  | emptyBucket
  | exhausted
deriving DecidableEq

def crushBucketUniform : UInt8 := 1
def crushBucketList : UInt8 := 2
def crushBucketTree : UInt8 := 3
def crushBucketStraw : UInt8 := 4

structure Bucket where
  id : Int
  type : UInt16
  alg : UInt8
  hash : UInt8
  size : UInt32
  items : List Int
  itemWeights : List UInt32
  sumWeights : List UInt32
  numNodes : UInt8
  nodeWeights : List UInt32
  straws : List UInt32
deriving DecidableEq

/-- The cached permutation, the only part of a map that the mapper writes. -/
structure PermCache where
  permX : UInt32
  permN : UInt32
  perm : List Nat

def bucketSlot (item : Int) : Int := -1 - item

def permSwap (perm : List Nat) (p i : Nat) : Except Fault (List Nat) :=
  if i = 0 then .ok perm
  else do
    let t ← readAt .outOfBounds perm (p + i)
    let u ← readAt .outOfBounds perm p
    let perm ← writeAt .outOfBounds perm (p + i) u
    writeAt .outOfBounds perm p t

/-- The `while (bucket->perm_n <= pr)` loop, entered with `perm_n = p` and
with `count` passes left. -/
def permExtend (bucket : Bucket) (x : UInt32) : Nat → Nat → List Nat → Except Fault (List Nat)
  | 0, _, perm => .ok perm
  | count + 1, p, perm => do
    let perm ←
      if p < bucket.size.toNat - 1 then
        permSwap perm p ((crushHash32Three bucket.hash x (UInt32.ofInt bucket.id)
          (UInt32.ofNat p)).toNat % (bucket.size.toNat - p))
      else .ok perm
    permExtend bucket x count (p + 1) perm

def permFinish (bucket : Bucket) (x : UInt32) (pr : Nat) (cache : PermCache) :
    Except Fault (Int × PermCache) := do
  let perm ← permExtend bucket x (pr + 1 - cache.permN.toNat) cache.permN.toNat cache.perm
  let s ← readAt .outOfBounds perm pr
  let item ← readAt .outOfBounds bucket.items s
  .ok (item, { cache with permN := max cache.permN (UInt32.ofNat (pr + 1)), perm })

def bucketPermChoose (bucket : Bucket) (x r : UInt32) (cache : PermCache) :
    Except Fault (Int × PermCache) :=
  if bucket.size = 0 then .error .divideByZero
  else
    let size := bucket.size.toNat
    let pr := r.toNat % size
    if cache.permX ≠ x ∨ cache.permN = 0 then
      if pr = 0 then do
        let s := (crushHash32Three bucket.hash x (UInt32.ofInt bucket.id) 0).toNat % size
        let perm ← writeAt .outOfBounds cache.perm 0 s
        let item ← readAt .outOfBounds bucket.items s
        .ok (item, { permX := x, permN := 0xffff, perm })
      else permFinish bucket x pr { permX := x, permN := 0, perm := List.range size }
    else if cache.permN = 0xffff then do
      let first ← readAt .outOfBounds cache.perm 0
      let perm ← writeAt .outOfBounds (first :: range' 1 (size - 1)) first 0
      permFinish bucket x pr { cache with permN := 1, perm }
    else permFinish bucket x pr cache

def bucketUniformChoose (bucket : Bucket) (x r : UInt32) (cache : PermCache) :
    Except Fault (Int × PermCache) :=
  bucketPermChoose bucket x r cache

def listChooseFrom (bucket : Bucket) (x r : UInt32) : Nat → Except Fault Int
  | 0 => readAt .outOfBounds bucket.items 0
  | i + 1 => do
    let item ← readAt .outOfBounds bucket.items i
    let sum ← readAt .outOfBounds bucket.sumWeights i
    let weight ← readAt .outOfBounds bucket.itemWeights i
    let w := (crushHash32Four bucket.hash x (UInt32.ofInt item) r
      (UInt32.ofInt bucket.id)).toNat % 0x10000
    if w * sum.toNat / 0x10000 < weight.toNat then .ok item else listChooseFrom bucket x r i

def bucketListChoose (bucket : Bucket) (x r : UInt32) : Except Fault Int :=
  listChooseFrom bucket x r bucket.size.toNat

/-- `height`: the number of trailing zero bits, found by shifting; 0 has none
that stops the loop. -/
def height (bound n : Nat) : Except Fault Nat :=
  loop .exhausted (fun (state : Nat × Nat) =>
    .ok (if state.2 % 2 = 0 then .again (state.1 + 1, state.2 / 2) else .done state.1))
    bound (0, n)

/-- One pass of the `while (!terminal(n))` loop of `bucket_tree_choose`. -/
def treeDescend (bucket : Bucket) (x r : UInt32) (bound n : Nat) :
    Except Fault (Next Nat Nat) :=
  if n % 2 = 1 then .ok (.done n)
  else do
    let w ← readAt .outOfBounds bucket.nodeWeights n
    let t := (crushHash32Four bucket.hash x (UInt32.ofNat n) r
      (UInt32.ofInt bucket.id)).toNat * w.toNat / 2 ^ 32
    let h ← height bound n
    let wl ← readAt .outOfBounds bucket.nodeWeights (n - 2 ^ (h - 1))
    .ok (.again (if t < wl.toNat then n - 2 ^ (h - 1) else n + 2 ^ (h - 1)))

def bucketTreeChoose (bound : Nat) (bucket : Bucket) (x r : UInt32) : Except Fault Int := do
  let n ← loop .exhausted (treeDescend bucket x r bound) bound (bucket.numNodes.toNat / 2)
  readAt .outOfBounds bucket.items (n / 2)

def strawChooseFrom (bucket : Bucket) (x r : UInt32) :
    Nat → Nat → Nat → Nat → Except Fault Nat
  | 0, _, high, _ => .ok high
  | count + 1, i, high, highDraw => do
    let item ← readAt .outOfBounds bucket.items i
    let straw ← readAt .outOfBounds bucket.straws i
    let draw := (crushHash32Three bucket.hash x (UInt32.ofInt item) r).toNat % 0x10000 *
      straw.toNat
    if i = 0 ∨ draw > highDraw then strawChooseFrom bucket x r count (i + 1) i draw
    else strawChooseFrom bucket x r count (i + 1) high highDraw

def bucketStrawChoose (bucket : Bucket) (x r : UInt32) : Except Fault Int := do
  let high ← strawChooseFrom bucket x r bucket.size.toNat 0 0 0
  readAt .outOfBounds bucket.items high

def crushBucketChoose (bound : Nat) (bucket : Bucket) (x r : UInt32) (cache : PermCache) :
    Except Fault (Int × PermCache) :=
  if bucket.size = 0 then .error .emptyBucket
  else if bucket.alg = crushBucketUniform then bucketUniformChoose bucket x r cache
  else if bucket.alg = crushBucketList then
    (bucketListChoose bucket x r).map (·, cache)
  else if bucket.alg = crushBucketTree then
    (bucketTreeChoose bound bucket x r).map (·, cache)
  else if bucket.alg = crushBucketStraw then
    (bucketStrawChoose bucket x r).map (·, cache)
  else (readAt .outOfBounds bucket.items 0).map (·, cache)

/-- The arrays have the lengths `crush_decode` allocates. -/
structure Bucket.Allocated (bucket : Bucket) : Prop where
  items : bucket.items.length = bucket.size.toNat
  sumWeights : bucket.alg = crushBucketList → bucket.sumWeights.length = bucket.size.toNat
  itemWeights : bucket.alg = crushBucketList → bucket.itemWeights.length = bucket.size.toNat
  nodeWeights : bucket.alg = crushBucketTree → bucket.nodeWeights.length = bucket.numNodes.toNat
  straws : bucket.alg = crushBucketStraw → bucket.straws.length = bucket.size.toNat

/-- Every terminal node that the descent can reach from a node of height `h`
is the node of an item. A draw below the node's weight decides the branch, so
the left child needs a positive weight and the right child some weight left of
the node's own, or nothing at all in either. -/
def Bucket.TreeLeads (bucket : Bucket) : Nat → Nat → Prop
  | 0, n => n / 2 < bucket.size.toNat
  | h + 1, n =>
    let w := bucket.nodeWeights.getD n 0
    let wl := bucket.nodeWeights.getD (n - 2 ^ h) 0
    (0 < wl → bucket.TreeLeads h (n - 2 ^ h)) ∧
      (wl < w ∨ wl = 0 ∧ w = 0 → bucket.TreeLeads h (n + 2 ^ h))

def Bucket.TreeSound (bucket : Bucket) : Prop :=
  ∃ h m, bucket.numNodes.toNat / 2 = (2 * m + 1) * 2 ^ h ∧
    bucket.TreeLeads h (bucket.numNodes.toNat / 2)

structure PermCache.Fits (cache : PermCache) (bucket : Bucket) : Prop where
  length : cache.perm.length = bucket.size.toNat
  entries : ∀ entry ∈ cache.perm, entry < bucket.size.toNat

variable {bucket : Bucket} {cache : PermCache} {x r : UInt32}

variable {size p i count bound h n : Nat} {perm : List Nat}

theorem set_entries {value : Nat} (index : Nat) (entries : ∀ entry ∈ perm, entry < size) (small : value < size) :
    ∀ entry ∈ perm.set index value, entry < size := by
  intro entry member
  rcases mem_or_eq_of_mem_set member with old | rfl
  · exact entries entry old
  · exact small

theorem permSwap_returns (length : perm.length = size)
    (entries : ∀ entry ∈ perm, entry < size) (bounded : p + i < size) : Returns (permSwap perm p i) fun after =>
      after.length = size ∧ ∀ entry ∈ after, entry < size := by
  unfold permSwap
  split
  · exact Returns.pure ⟨length, entries⟩
  · have first : p + i < perm.length := by omega
    have second : p < perm.length := by omega
    have swapped := set_entries p (set_entries (p + i) entries
      (entries _ (getElem_mem second))) (entries _ (getElem_mem first))
    simp only [readAt_eq_ok first, readAt_eq_ok second, writeAt_eq_ok first, bind, Except.bind]
    rw [writeAt_eq_ok (by simpa using second)]
    exact Returns.pure ⟨by simpa using length, swapped⟩

theorem permExtend_returns (length : perm.length = bucket.size.toNat)
    (entries : ∀ entry ∈ perm, entry < bucket.size.toNat) : Returns (permExtend bucket x count p perm) fun after =>
      after.length = bucket.size.toNat ∧ ∀ entry ∈ after, entry < bucket.size.toNat := by
  induction count generalizing p perm with
  | zero => exact Returns.pure ⟨length, entries⟩
  | succ count ih =>
    rw [permExtend]
    split
    · rename_i inner
      have drawn := Nat.mod_lt (crushHash32Three bucket.hash x (UInt32.ofInt bucket.id)
        (UInt32.ofNat p)).toNat (show 0 < bucket.size.toNat - p by lia)
      exact Returns.bind (permSwap_returns length entries (by lia))
        fun after holds => ih holds.1 holds.2
    · exact ih length entries

theorem permFinish_returns {pr : Nat} (allocated : bucket.Allocated) (fits : cache.Fits bucket)
    (bounded : pr < bucket.size.toNat) :
    Returns (permFinish bucket x pr cache) fun result =>
      result.1 ∈ bucket.items ∧ result.2.Fits bucket := by
  refine Returns.bind (permExtend_returns fits.length fits.entries) fun perm holds => ?_
  have inPerm : pr < perm.length := by rw [holds.1]; exact bounded
  have inItems : perm[pr] < bucket.items.length := by
    rw [allocated.items]
    exact holds.2 _ (getElem_mem inPerm)
  simp only [readAt_eq_ok inPerm, readAt_eq_ok inItems, bind, Except.bind]
  exact Returns.pure ⟨getElem_mem inItems, ⟨holds.1, holds.2⟩⟩

theorem bucketPermChoose_returns (allocated : bucket.Allocated) (fits : cache.Fits bucket)
    (nonempty : bucket.size ≠ 0) :
    Returns (bucketPermChoose bucket x r cache) fun result =>
      result.1 ∈ bucket.items ∧ result.2.Fits bucket := by
  have positive : 0 < bucket.size.toNat :=
    Nat.pos_of_ne_zero fun zero => nonempty (UInt32.toNat_inj.mp zero)
  have drawn : ∀ draw : Nat, draw % bucket.size.toNat < bucket.size.toNat :=
    fun draw => Nat.mod_lt _ positive
  have inPerm : 0 < cache.perm.length := by rw [fits.length]; exact positive
  unfold bucketPermChoose
  simp only [nonempty, if_false]
  split
  · split
    · have small := drawn (crushHash32Three bucket.hash x (UInt32.ofInt bucket.id) 0).toNat
      simp only [writeAt_eq_ok inPerm, bind, Except.bind]
      rw [readAt_eq_ok (by simpa only [allocated.items] using small)]
      exact Returns.pure ⟨getElem_mem _,
        ⟨by rw [length_set, fits.length], set_entries 0 fits.entries small⟩⟩
    · refine permFinish_returns allocated ⟨length_range, ?_⟩ (drawn _)
      intro entry member
      exact List.mem_range.mp member
  · split
    · have small := fits.entries _ (getElem_mem inPerm)
      have cleaned : (cache.perm[0] :: range' 1 (bucket.size.toNat - 1)).length =
          bucket.size.toNat := by
        simp only [length_cons, length_range']
        omega
      simp only [readAt_eq_ok inPerm, bind, Except.bind]
      rw [writeAt_eq_ok (by rw [cleaned]; exact small)]
      refine permFinish_returns allocated ⟨by rw [length_set, cleaned], ?_⟩ (drawn _)
      refine set_entries _ (fun entry member => ?_) positive
      rcases List.mem_cons.mp member with rfl | later
      · exact small
      · simp only [mem_range'_1] at later
        lia
    · exact permFinish_returns allocated fits (drawn _)

theorem listChooseFrom_returns (allocated : bucket.Allocated) (list : bucket.alg = crushBucketList)
    (nonempty : 0 < bucket.size.toNat) (bounded : i ≤ bucket.size.toNat) :
    Returns (listChooseFrom bucket x r i) (· ∈ bucket.items) := by
  have items := allocated.items
  have sums := allocated.sumWeights list
  have weights := allocated.itemWeights list
  induction i with
  | zero =>
    rw [listChooseFrom, readAt_eq_ok (by lia)]
    exact Returns.pure (getElem_mem _)
  | succ i ih =>
    rw [listChooseFrom, readAt_eq_ok (by lia), readAt_eq_ok (by lia),
      readAt_eq_ok (by lia)]
    simp only [bind, Except.bind]
    split
    · exact Returns.pure (getElem_mem _)
    · exact ih (by lia)

theorem height_of_odd_mul {m : Nat} (enough : h < bound) : height bound ((2 * m + 1) * 2 ^ h) = .ok h := by
  suffices shifted : ∀ counted, loop Fault.exhausted (fun (state : Nat × Nat) =>
      .ok (if state.2 % 2 = 0 then .again (state.1 + 1, state.2 / 2) else .done state.1))
      bound (counted, (2 * m + 1) * 2 ^ h) = .ok (counted + h) by
    simpa [height] using shifted 0
  induction h generalizing bound with
  | zero =>
    intro counted
    obtain ⟨bound, rfl⟩ := Nat.exists_eq_succ_of_ne_zero (show bound ≠ 0 by omega)
    have odd : ¬ (2 * m + 1) * 2 ^ 0 % 2 = 0 := by omega
    simp only [loop, odd, if_false, Nat.add_zero]
  | succ h ih =>
    intro counted
    obtain ⟨bound, rfl⟩ := Nat.exists_eq_succ_of_ne_zero (show bound ≠ 0 by omega)
    have doubled : (2 * m + 1) * 2 ^ (h + 1) = 2 * ((2 * m + 1) * 2 ^ h) := by ring
    simp only [loop, doubled, Nat.mul_mod_right, if_true, Nat.mul_div_cancel_left _ Nat.two_pos]
    rw [ih (by omega) (counted + 1)]
    congr 1
    omega

/-- A node of height `h` inside the node array from which every descent ends
at an item. -/
def Bucket.TreeNode (bucket : Bucket) (h n : Nat) : Prop :=
  (∃ m, n = (2 * m + 1) * 2 ^ h) ∧ n + 2 ^ h ≤ bucket.numNodes.toNat ∧ bucket.TreeLeads h n

theorem Bucket.TreeNode.left (node : bucket.TreeNode (h + 1) n)
    (positive : 0 < bucket.nodeWeights.getD (n - 2 ^ h) 0) : bucket.TreeNode h (n - 2 ^ h) := by
  obtain ⟨⟨m, shape⟩, inside, leads⟩ := node
  have left : n - 2 ^ h = (2 * (2 * m) + 1) * 2 ^ h := by
    rw [shape]
    exact Nat.sub_eq_of_eq_add (by ring)
  have whole : n - 2 ^ h + 2 ^ h = n := by
    rw [left, shape]
    ring
  exact ⟨⟨2 * m, left⟩, whole.le.trans ((Nat.le_add_right _ _).trans inside), leads.1 positive⟩

theorem Bucket.TreeNode.right (node : bucket.TreeNode (h + 1) n)
    (weighs : bucket.nodeWeights.getD (n - 2 ^ h) 0 < bucket.nodeWeights.getD n 0 ∨
      bucket.nodeWeights.getD (n - 2 ^ h) 0 = 0 ∧ bucket.nodeWeights.getD n 0 = 0) :
    bucket.TreeNode h (n + 2 ^ h) := by
  obtain ⟨⟨m, rfl⟩, inside, leads⟩ := node
  refine ⟨⟨2 * m + 1, by ring⟩, by omega, leads.2 weighs⟩

/-- The draw is below the weight of the node, unless that weight is 0. -/
theorem draw_weighs {hash w wl : UInt32} (right : ¬ hash.toNat * w.toNat / 2 ^ 32 < wl.toNat) :
    wl < w ∨ wl = 0 ∧ w = 0 := by
  by_cases zero : w.toNat = 0
  · refine .inr ⟨UInt32.toNat_inj.mp ?_, UInt32.toNat_inj.mp zero⟩
    have drawn : hash.toNat * w.toNat / 2 ^ 32 = 0 := by rw [zero, Nat.mul_zero, Nat.zero_div]
    have none : wl.toNat = 0 := by omega
    exact none
  · refine .inl (UInt32.lt_iff_toNat_lt.mpr ?_)
    have below : hash.toNat * w.toNat / 2 ^ 32 < w.toNat := by
      rw [Nat.div_lt_iff_lt_mul (by norm_num), Nat.mul_comm]
      exact Nat.mul_lt_mul_of_pos_left hash.toNat_lt (by omega)
    omega

theorem treeDescend_returns (nodes : bucket.nodeWeights.length = bucket.numNodes.toNat)
    (enough : h < bound) (node : bucket.TreeNode h n) : Returns (treeDescend bucket x r bound n)
      (Next.Holds (fun after => ∃ lower < h, lower < bound ∧ bucket.TreeNode lower after)
        fun leaf => leaf / 2 < bucket.size.toNat) := by
  obtain ⟨⟨m, shape⟩, inside, leads⟩ := node
  cases h with
  | zero =>
    have odd : n % 2 = 1 := by lia
    simp only [treeDescend, odd, if_true]
    exact Returns.pure leads
  | succ h =>
    have even : ¬ n % 2 = 1 := by lia
    have inNodes : n < bucket.nodeWeights.length := by
      have := Nat.two_pow_pos h
      lia
    have inLeft : n - 2 ^ h < bucket.nodeWeights.length :=
      Nat.lt_of_le_of_lt (Nat.sub_le _ _) inNodes
    have reached : height bound n = .ok (h + 1) := by
      rw [shape]
      exact height_of_odd_mul enough
    have node : bucket.TreeNode (h + 1) n := ⟨⟨m, shape⟩, inside, leads⟩
    simp only [treeDescend, even, if_false, bind, Except.bind, readAt_eq_ok inNodes, reached,
      Nat.add_sub_cancel, readAt_eq_ok inLeft]
    refine Returns.pure ⟨h, Nat.lt_succ_self h, by omega, ?_⟩
    split
    · rename_i below
      refine node.left ?_
      rw [getD_eq_getElem _ _ inLeft]
      exact UInt32.lt_iff_toNat_lt.mpr (by simpa using Nat.lt_of_le_of_lt (Nat.zero_le _) below)
    · rename_i above
      refine node.right ?_
      rw [getD_eq_getElem _ _ inLeft, getD_eq_getElem _ _ inNodes]
      exact draw_weighs above

theorem bucketTreeChoose_returns (allocated : bucket.Allocated) (tree : bucket.alg = crushBucketTree)
    (sound : bucket.TreeSound) (enough : bucket.numNodes.toNat < bound) :
    Returns (bucketTreeChoose bound bucket x r) (· ∈ bucket.items) := by
  obtain ⟨h, m, root, leads⟩ := sound
  have width : 2 ^ h ≤ bucket.numNodes.toNat / 2 := by
    rw [root]
    exact Nat.le_mul_of_pos_left _ (by omega)
  have below : h < 2 ^ h := Nat.lt_two_pow_self
  have descends : Returns (loop Fault.exhausted (treeDescend bucket x r bound) bound
      (bucket.numNodes.toNat / 2)) fun leaf => leaf / 2 < bucket.size.toNat :=
    Returns.loop (fun h n => h < bound ∧ bucket.TreeNode h n)
      (fun h n holds => treeDescend_returns (allocated.nodeWeights tree) holds.1 holds.2)
      (show h < bound by lia) ⟨by lia, ⟨m, root⟩, by lia, leads⟩
  refine Returns.bind descends fun leaf small => ?_
  rw [readAt_eq_ok (by rw [allocated.items]; exact small)]
  exact Returns.pure (getElem_mem _)

theorem strawChooseFrom_returns (allocated : bucket.Allocated)
    (straw : bucket.alg = crushBucketStraw) {high highDraw : Nat}
    (range : i + count = bucket.size.toNat) (small : high < bucket.size.toNat) :
    Returns (strawChooseFrom bucket x r count i high highDraw) (· < bucket.size.toNat) := by
  have items := allocated.items
  have straws := allocated.straws straw
  induction count generalizing i high highDraw with
  | zero => exact Returns.pure small
  | succ count ih =>
    rw [strawChooseFrom, readAt_eq_ok (by lia), readAt_eq_ok (by omega)]
    simp only [bind, Except.bind]
    split
    · exact ih (by lia) (by omega)
    · exact ih (by lia) small

theorem bucketStrawChoose_returns (allocated : bucket.Allocated)
    (straw : bucket.alg = crushBucketStraw) (nonempty : 0 < bucket.size.toNat) :
    Returns (bucketStrawChoose bucket x r) (· ∈ bucket.items) := by
  refine Returns.bind (strawChooseFrom_returns allocated straw (by omega) nonempty)
    fun high small => ?_
  rw [readAt_eq_ok (by rw [allocated.items]; exact small)]
  exact Returns.pure (getElem_mem _)

theorem Returns.withCache {choice : Except Fault Int} {post : Int → Prop} (fits : cache.Fits bucket)
    (chosen : Returns choice post) :
    Returns (choice.map (·, cache)) fun result => post result.1 ∧ result.2.Fits bucket := by
  obtain ⟨item, rfl, holds⟩ := chosen
  exact ⟨(item, cache), rfl, holds, fits⟩

/-- Every choose method of a sound bucket returns one of its items and leaves
a usable permutation. -/
theorem crushBucketChoose_returns (allocated : bucket.Allocated)
    (sound : bucket.alg = crushBucketTree → bucket.TreeSound)
    (fits : cache.Fits bucket) (nonempty : bucket.size ≠ 0)
    {bound : Nat} (enough : bucket.numNodes.toNat < bound) :
    Returns (crushBucketChoose bound bucket x r cache) fun result =>
      result.1 ∈ bucket.items ∧ result.2.Fits bucket := by
  have positive : 0 < bucket.size.toNat :=
    Nat.pos_of_ne_zero fun zero => nonempty (UInt32.toNat_inj.mp zero)
  unfold crushBucketChoose
  simp only [nonempty, if_false]
  split
  · exact bucketPermChoose_returns allocated fits nonempty
  split
  · rename_i list
    exact Returns.withCache fits (listChooseFrom_returns allocated list positive le_rfl)
  split
  · rename_i tree
    exact Returns.withCache fits (bucketTreeChoose_returns allocated tree (sound tree) enough)
  split
  · rename_i straw
    exact Returns.withCache fits (bucketStrawChoose_returns allocated straw positive)
  · refine Returns.withCache fits ?_
    rw [readAt_eq_ok (by rw [allocated.items]; exact positive)]
    exact Returns.pure (getElem_mem _)

end KmodCeph.Crush
