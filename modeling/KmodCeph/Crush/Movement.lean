import KmodCeph.Crush.Bucket
import KmodCeph.Lib.FirstMax

namespace KmodCeph.Crush

open Lib List

def strawIndex (bucket : Bucket) (x r : UInt32) : Except Fault Nat :=
  strawChooseFrom bucket x r bucket.size.toNat 0 0 0

def strawDraw (bucket : Bucket) (x r : UInt32) (i : Nat) : Nat :=
  (crushHash32Three bucket.hash x (UInt32.ofInt (bucket.items.getD i 0)) r).toNat % 0x10000 *
    (bucket.straws.getD i 0).toNat

structure Bucket.StrawSized (bucket : Bucket) : Prop where
  items : bucket.items.length = bucket.size.toNat
  straws : bucket.straws.length = bucket.size.toNat

structure Bucket.ListSized (bucket : Bucket) : Prop where
  items : bucket.items.length = bucket.size.toNat
  itemWeights : bucket.itemWeights.length = bucket.size.toNat
  sumWeights : bucket.sumWeights.length = bucket.size.toNat

namespace Bucket

def withStraw (k : Nat) (straw : UInt32) (bucket : Bucket) : Bucket :=
  { bucket with straws := bucket.straws.set k straw }

/-- A straw bucket without its item `k`; the others stay in order. -/
def without (k : Nat) (bucket : Bucket) : Bucket :=
  { bucket with
    size := bucket.size - 1
    items := bucket.items.eraseIdx k
    itemWeights := bucket.itemWeights.eraseIdx k
    straws := bucket.straws.eraseIdx k }

def append (item : Int) (weight sum : UInt32) (bucket : Bucket) : Bucket :=
  { bucket with
    size := bucket.size + 1
    items := bucket.items ++ [item]
    itemWeights := bucket.itemWeights ++ [weight]
    sumWeights := bucket.sumWeights ++ [sum] }

end Bucket

/-- What changes of item `k` do where the index `high` is chosen. -/
structure Bucket.StrawStable (bucket : Bucket) (x r : UInt32) (k high : Nat) : Prop where
  raised : ∀ straw, bucket.straws.getD k 0 ≤ straw →
    strawIndex (bucket.withStraw k straw) x r = .ok high ∨ strawIndex (bucket.withStraw k straw) x r = .ok k
  lowered : ∀ straw, straw ≤ bucket.straws.getD k 0 → high ≠ k →
    strawIndex (bucket.withStraw k straw) x r = .ok high
  removed : high ≠ k → bucketStrawChoose (bucket.without k) x r = bucketStrawChoose bucket x r

section

variable {bucket : Bucket} {x r : UInt32}

variable {i high k : Nat} {straw : UInt32}

theorem strawChooseFrom_firstMax (sized : bucket.StrawSized) {count : Nat}
    (range : i + count = bucket.size.toNat) (found : FirstMax (strawDraw bucket x r) i high) :
    ∃ last, strawChooseFrom bucket x r count i high (strawDraw bucket x r high) = .ok last ∧
      FirstMax (strawDraw bucket x r) bucket.size.toNat last := by
  induction count generalizing i high with
  | zero =>
    exact ⟨high, rfl, range ▸ found⟩
  | succ count ih =>
    have item : i < bucket.items.length := by rw [sized.items]; omega
    have straw : i < bucket.straws.length := by rw [sized.straws]; omega
    have later : ¬ i = 0 := Nat.ne_zero_of_lt found.inside
    have draw : (crushHash32Three bucket.hash x (UInt32.ofInt bucket.items[i]) r).toNat % 0x10000 *
        bucket.straws[i].toNat = strawDraw bucket x r i := by
      rw [strawDraw, getD_eq_getElem _ _ item, getD_eq_getElem _ _ straw]
    have next := found.step
    rw [strawChooseFrom, readAt_eq_ok item, readAt_eq_ok straw]
    simp only [bind, Except.bind, draw, later, false_or]
    by_cases more : strawDraw bucket x r high < strawDraw bucket x r i
    · rw [if_pos more] at next
      rw [if_pos more]
      exact ih (by omega) next
    · rw [if_neg more] at next
      rw [if_neg more]
      exact ih (by omega) next

theorem strawIndex_firstMax (sized : bucket.StrawSized) (nonempty : 0 < bucket.size.toNat) :
    ∃ high, strawIndex bucket x r = .ok high ∧ FirstMax (strawDraw bucket x r) bucket.size.toNat high := by
  obtain ⟨count, size⟩ := Nat.exists_eq_add_of_lt nonempty
  have item : 0 < bucket.items.length := by rw [sized.items]; exact nonempty
  have straw : 0 < bucket.straws.length := by rw [sized.straws]; exact nonempty
  have draw : (crushHash32Three bucket.hash x (UInt32.ofInt bucket.items[0]) r).toNat % 0x10000 *
      bucket.straws[0].toNat = strawDraw bucket x r 0 := by
    rw [strawDraw, getD_eq_getElem _ _ item, getD_eq_getElem _ _ straw]
  rw [strawIndex, size, strawChooseFrom, readAt_eq_ok item, readAt_eq_ok straw]
  simp only [bind, Except.bind, draw, true_or, if_true]
  rw [← size]
  exact strawChooseFrom_firstMax sized (by omega) (FirstMax.first _)

theorem strawIndex_eq (sized : bucket.StrawSized)
    (found : FirstMax (strawDraw bucket x r) bucket.size.toNat high) : strawIndex bucket x r = .ok high := by
  obtain ⟨other, chosen, foundOther⟩ := @strawIndex_firstMax bucket x r sized (Nat.zero_lt_of_lt found.inside)
  rw [chosen, foundOther.unique found]

theorem withStraw_sized (sized : bucket.StrawSized) (k : Nat) (straw : UInt32) : (bucket.withStraw k straw).StrawSized :=
  ⟨sized.items, (length_set ..).trans sized.straws⟩

theorem strawDraw_withStraw_ne (other : i ≠ k) :
    strawDraw (bucket.withStraw k straw) x r i = strawDraw bucket x r i := by
  have kept : (bucket.straws.set k straw).getD i 0 = bucket.straws.getD i 0 := by
    rw [getD_eq_getElem?_getD, getElem?_set_ne other.symm, getD_eq_getElem?_getD]
  unfold strawDraw Bucket.withStraw
  rw [kept]

theorem strawDraw_withStraw_self (inside : k < bucket.straws.length) : strawDraw (bucket.withStraw k straw) x r k =
      (crushHash32Three bucket.hash x (UInt32.ofInt (bucket.items.getD k 0)) r).toNat % 0x10000 * straw.toNat := by
  have new : (bucket.straws.set k straw).getD k 0 = straw := by
    rw [getD_eq_getElem?_getD, getElem?_set_self inside, Option.getD_some]
  unfold strawDraw Bucket.withStraw
  rw [new]

theorem without_size (nonempty : 0 < bucket.size.toNat) (k : Nat) :
    (bucket.without k).size.toNat + 1 = bucket.size.toNat := by
  have one : (1 : UInt32) ≤ bucket.size := UInt32.le_iff_toNat_le.mpr nonempty
  have less : (bucket.size - 1).toNat = bucket.size.toNat - 1 := UInt32.toNat_sub_of_le _ _ one
  change (bucket.size - 1).toNat + 1 = bucket.size.toNat
  lia

theorem without_sized (sized : bucket.StrawSized) (inside : k < bucket.size.toNat) :
    (bucket.without k).StrawSized := by
  have size := without_size (Nat.zero_lt_of_lt inside) k
  have items := sized.items
  have straws := sized.straws
  constructor
  · change (bucket.items.eraseIdx k).length = _
    rw [length_eraseIdx_of_lt (by lia)]
    lia
  · change (bucket.straws.eraseIdx k).length = _
    rw [length_eraseIdx_of_lt (by lia)]
    lia

theorem getD_eraseIdx {α : Type} (values : List α) (k i : Nat) (other : α) :
    (values.eraseIdx k).getD i other = values.getD (shifted k i) other := by
  rw [getD_eq_getElem?_getD, getElem?_eraseIdx, getD_eq_getElem?_getD, shifted]
  split
  · rfl
  · rfl

theorem strawDraw_without (k i : Nat) : strawDraw (bucket.without k) x r i = strawDraw bucket x r (shifted k i) := by
  unfold strawDraw Bucket.without
  rw [getD_eraseIdx, getD_eraseIdx]

theorem bucketStrawChoose_eq (sized : bucket.StrawSized)
    (found : FirstMax (strawDraw bucket x r) bucket.size.toNat high) :
    bucketStrawChoose bucket x r = .ok (bucket.items.getD high 0) := by
  have inside : high < bucket.items.length := by rw [sized.items]; exact found.inside
  have chosen : strawChooseFrom bucket x r bucket.size.toNat 0 0 0 = .ok high := strawIndex_eq sized found
  rw [bucketStrawChoose, chosen, getD_eq_getElem _ _ inside]
  exact readAt_eq_ok inside

theorem strawStable (sized : bucket.StrawSized) (inside : k < bucket.size.toNat)
    (found : FirstMax (strawDraw bucket x r) bucket.size.toNat high) : bucket.StrawStable x r k high := by
  have straw : k < bucket.straws.length := by rw [sized.straws]; exact inside
  have others (value : UInt32) : ∀ i, i ≠ k → strawDraw (bucket.withStraw k value) x r i = strawDraw bucket x r i :=
    fun i other => strawDraw_withStraw_ne other
  refine ⟨fun value more => ?_, fun value less elsewhere => ?_, fun elsewhere => ?_⟩
  · obtain ⟨later, chosen, foundLater⟩ := @strawIndex_firstMax (bucket.withStraw k value) x r
      (withStraw_sized sized k value) (Nat.zero_lt_of_lt inside)
    have grown : strawDraw bucket x r k ≤ strawDraw (bucket.withStraw k value) x r k := by
      rw [strawDraw_withStraw_self straw]
      exact Nat.mul_le_mul_left _ (UInt32.le_iff_toNat_le.mp more)
    rcases found.raised (others value) grown foundLater with same | taken
    · exact .inl (chosen.trans (congrArg _ same))
    · exact .inr (chosen.trans (congrArg _ taken))
  · have shrunk : strawDraw (bucket.withStraw k value) x r k ≤ strawDraw bucket x r k := by
      rw [strawDraw_withStraw_self straw]
      exact Nat.mul_le_mul_left _ (UInt32.le_iff_toNat_le.mp less)
    exact strawIndex_eq (withStraw_sized sized k value) (found.lowered (others value) shrunk elsewhere)
  · have size := without_size (Nat.zero_lt_of_lt inside) k
    rw [← size] at found
    obtain ⟨foundLater, back⟩ := found.removed (strawDraw_without k) (by omega) elsewhere
    rw [size] at found
    rw [bucketStrawChoose_eq (without_sized sized inside) foundLater, bucketStrawChoose_eq sized found]
    change Except.ok ((bucket.items.eraseIdx k).getD _ 0) = _
    rw [getD_eraseIdx, back]

theorem listChooseFrom_append (sized : bucket.ListSized) {item : Int} {weight sum : UInt32}
    (inside : i ≤ bucket.size.toNat) (nonempty : 0 < bucket.size.toNat) :
    listChooseFrom (bucket.append item weight sum) x r i = listChooseFrom bucket x r i := by
  have early {α : Type} {values : List α} {new : α} {i : Nat} (here : i < values.length) :
      readAt Fault.outOfBounds (values ++ [new]) i = readAt .outOfBounds values i := by
    unfold readAt
    rw [getElem?_append_left here]
  induction i with
  | zero =>
    exact early (by rw [sized.items]; exact nonempty)
  | succ i ih =>
    rw [listChooseFrom, listChooseFrom, ih (by omega)]
    unfold Bucket.append
    rw [early (by rw [sized.items]; exact inside), early (by rw [sized.sumWeights]; exact inside),
      early (by rw [sized.itemWeights]; exact inside)]

theorem listAppend_moves (sized : bucket.ListSized) (room : bucket.size.toNat + 1 < 2 ^ 32) (item : Int)
    (weight sum : UInt32) :
    bucketListChoose (bucket.append item weight sum) x r = bucketListChoose bucket x r ∨
      bucketListChoose (bucket.append item weight sum) x r = .ok item := by
  have size : (bucket.append item weight sum).size.toNat = bucket.size.toNat + 1 := by
    change (bucket.size + 1).toNat = _
    exact Nat.mod_eq_of_lt room
  have last {α : Type} {values : List α} {new : α} (here : values.length = bucket.size.toNat) :
      readAt Fault.outOfBounds (values ++ [new]) bucket.size.toNat = .ok new := by
    unfold readAt
    rw [getElem?_append_right here.le, here, Nat.sub_self]
    rfl
  have items : readAt Fault.outOfBounds (bucket.append item weight sum).items bucket.size.toNat = .ok item :=
    last sized.items
  have sums : readAt Fault.outOfBounds (bucket.append item weight sum).sumWeights bucket.size.toNat = .ok sum :=
    last sized.sumWeights
  have weights : readAt Fault.outOfBounds (bucket.append item weight sum).itemWeights bucket.size.toNat = .ok weight :=
    last sized.itemWeights
  rw [bucketListChoose, size, listChooseFrom, items, sums, weights]
  simp only [bind, Except.bind]
  split
  next => exact .inr rfl
  next =>
    rcases Nat.eq_zero_or_pos bucket.size.toNat with zero | nonempty
    · -- A list that was empty has only the new item to fall back to.
      rw [zero] at items ⊢
      exact .inr items
    · exact .inl (listChooseFrom_append sized le_rfl nonempty)

end

/-- A straw bucket moves what is drawn only to and from the item that changes, and an appended item of a list bucket
takes what moves. -/
theorem movement_optimal (bucket : Bucket) (x r : UInt32) :
    (bucket.StrawSized → ∀ k < bucket.size.toNat,
      ∃ high, strawIndex bucket x r = .ok high ∧ bucket.StrawStable x r k high) ∧
    (bucket.ListSized → bucket.size.toNat + 1 < 2 ^ 32 → ∀ item weight sum,
      bucketListChoose (bucket.append item weight sum) x r = bucketListChoose bucket x r ∨
        bucketListChoose (bucket.append item weight sum) x r = .ok item) := by
  refine ⟨fun sized k inside => ?_, fun sized room item weight sum => listAppend_moves sized room item weight sum⟩
  obtain ⟨high, chosen, found⟩ := @strawIndex_firstMax bucket x r sized (Nat.zero_lt_of_lt inside)
  exact ⟨high, chosen, strawStable sized inside found⟩

def twoDevices : Bucket where
  id := -1
  type := 1
  alg := crushBucketStraw
  hash := crushHashRjenkins1
  size := 2
  items := [0, 1]
  itemWeights := [0x10000, 0x10000]
  sumWeights := [0x10000, 0x20000]
  numNodes := 0
  nodeWeights := []
  straws := [0x10000, 0x10000]

theorem movement_optimal_two :
    (∃ high, strawIndex twoDevices 7 1 = .ok high ∧ twoDevices.StrawStable 7 1 1 high) ∧
    (bucketListChoose (twoDevices.append 2 0x10000 0x30000) 7 1 = bucketListChoose twoDevices 7 1 ∨
      bucketListChoose (twoDevices.append 2 0x10000 0x30000) 7 1 = .ok 2) :=
  ⟨(movement_optimal twoDevices 7 1).1 ⟨rfl, rfl⟩ 1 (by decide),
    (movement_optimal twoDevices 7 1).2 ⟨rfl, rfl, rfl⟩ (by decide) 2 0x10000 0x30000⟩

end KmodCeph.Crush
