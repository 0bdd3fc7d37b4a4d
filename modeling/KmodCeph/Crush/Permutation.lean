import KmodCeph.Lib.Reached
import KmodCeph.Lib.Shuffle
import KmodCeph.Crush.Bucket

namespace KmodCeph.Crush

open Lib Nat

def permDraw (hash : UInt8) (id : Int) (size : Nat) (x : UInt32) (p : Nat) : Nat :=
  if p < size - 1 then
    (crushHash32Three hash x (UInt32.ofInt id) (UInt32.ofNat p)).toNat % (size - p)
  else 0

/-- The indices of a bucket's items after `count` positions of the permutation
for `x` are known. -/
def permuted (hash : UInt8) (id : Int) (size : Nat) (x : UInt32) (count : Nat) : List Nat :=
  shuffle (permDraw hash id size x) (List.range size) count

def permutation (hash : UInt8) (id : Int) (size : Nat) (x : UInt32) : List Nat :=
  permuted hash id size x size

def permChooseAll (bucket : Bucket) : List (UInt32 × UInt32) → PermCache → Except Fault (List Int × PermCache)
  | [], cache => .ok ([], cache)
  | (x, r) :: calls, cache => do
    let (item, cache) ← bucketPermChoose bucket x r cache
    let (items, cache) ← permChooseAll bucket calls cache
    .ok (item :: items, cache)

/-- Item `item` is the one that the permutation for `x` has at `r`. -/
def Bucket.Permutes (bucket : Bucket) (x r : UInt32) (item : Int) : Prop :=
  ∃ entry, (permutation bucket.hash bucket.id bucket.size.toNat x)[r.toNat % bucket.size.toNat]? = some entry ∧
    bucket.items[entry]? = some item

/-- What the cache says of the permutation for the last `x`. A count of
0xffff vouches for the first entry only, whether it is the mark of the
shortcut or a count that was reached. -/
structure PermCache.Follows (cache : PermCache) (bucket : Bucket) : Prop where
  length : cache.perm.length = bucket.size.toNat
  first : cache.permN ≠ 0 →
    cache.perm[0]? = (permuted bucket.hash bucket.id bucket.size.toNat cache.permX 1)[0]?
  filled : cache.permN ≠ 0 → cache.permN ≠ 0xffff → cache.permN.toNat ≤ bucket.size.toNat ∧
    cache.perm = permuted bucket.hash bucket.id bucket.size.toNat cache.permX cache.permN.toNat

section

variable {hash : UInt8} {id : Int} {size : Nat} {x : UInt32}

theorem permDraw_bounded {p : Nat} (inside : p < size) : p + permDraw hash id size x p < size := by
  unfold permDraw
  split
  · have drawn := mod_lt (crushHash32Three hash x (UInt32.ofInt id) (UInt32.ofNat p)).toNat
      (show 0 < size - p by omega)
    lia
  · exact inside

@[simp] theorem permuted_length (count : Nat) : (permuted hash id size x count).length = size := by
  rw [permuted, shuffle_length, List.length_range]

theorem permuted_perm (count : Nat) : (permuted hash id size x count).Perm (List.range size) :=
  shuffle_perm count

theorem permuted_frame {count index : Nat} (filled : index < count) (bounded : count ≤ size) :
    (permuted hash id size x count)[index]? = (permutation hash id size x)[index]? :=
  (shuffle_frame filled bounded).symm

end

section

variable {bucket : Bucket} {cache : PermCache} {x r : UInt32}

theorem permSwap_eq {perm : List Nat} {p i : Nat} (inside : p + i < perm.length) :
    permSwap perm p i = .ok (swapAt perm p (p + i)) := by
  unfold permSwap
  split
  next none =>
    rw [none, Nat.add_zero, swapAt_same]
  next =>
    have before : p < perm.length := by omega
    simp only [readAt_eq_ok inside, readAt_eq_ok before, writeAt_eq_ok inside, bind, Except.bind]
    rw [writeAt_eq_ok (by simpa using before), swapAt_eq before inside]

theorem permExtend_eq {count p : Nat} (bounded : p + count ≤ bucket.size.toNat) :
    permExtend bucket x count p (permuted bucket.hash bucket.id bucket.size.toNat x p) =
      .ok (permuted bucket.hash bucket.id bucket.size.toNat x (p + count)) := by
  induction count generalizing p with
  | zero => rfl
  | succ count ih =>
    have drawn : p + permDraw bucket.hash bucket.id bucket.size.toNat x p < bucket.size.toNat :=
      permDraw_bounded (by omega)
    have filled : swapAt (permuted bucket.hash bucket.id bucket.size.toNat x p) p
        (p + permDraw bucket.hash bucket.id bucket.size.toNat x p) =
        permuted bucket.hash bucket.id bucket.size.toNat x (p + 1) := rfl
    have rest : permExtend bucket x count (p + 1)
        (permuted bucket.hash bucket.id bucket.size.toNat x (p + 1)) =
        .ok (permuted bucket.hash bucket.id bucket.size.toNat x (p + (count + 1))) := by
      rw [ih (by omega), Nat.add_right_comm, Nat.add_assoc]
    rw [permExtend]
    split
    next inner =>
      rw [permDraw, if_pos inner] at drawn filled
      rw [permSwap_eq (by simpa using drawn), filled]
      exact rest
    next last =>
      rw [permDraw, if_neg last, Nat.add_zero, swapAt_same] at filled
      rw [filled]
      exact rest

theorem max_toNat (m n : UInt32) : (max m n).toNat = max m.toNat n.toNat := by
  change (if m ≤ n then n else m).toNat = _
  split
  next ordered => rw [max_eq_right (UInt32.le_iff_toNat_le.mp ordered)]
  next ordered =>
    have reversed : n.toNat ≤ m.toNat := by
      rw [UInt32.le_iff_toNat_le] at ordered
      omega
    rw [max_eq_left reversed]

def permHead (hash : UInt8) (id : Int) (size : Nat) (x : UInt32) : Nat :=
  (crushHash32Three hash x (UInt32.ofInt id) 0).toNat % size

variable {hash : UInt8} {id : Int} {size : Nat}

theorem permDraw_zero (positive : 0 < size) : permDraw hash id size x 0 = permHead hash id size x := by
  unfold permDraw permHead
  split
  next => rfl
  next last =>
    obtain rfl : size = 1 := by omega
    rw [mod_one]

theorem swapAt_range {head : Nat} (inside : head < size) :
    swapAt (List.range size) 0 (0 + head) = (head :: List.range' 1 (size - 1)).set head 0 := by
  have split : List.range size = 0 :: List.range' 1 (size - 1) := by
    obtain ⟨less, rfl⟩ : ∃ less, size = less + 1 := ⟨size - 1, by lia⟩
    rw [List.range_eq_range', List.range'_succ, Nat.add_sub_cancel]
  cases head with
  | zero => rw [Nat.add_zero, swapAt_same, split, List.set_cons_zero]
  | succ head =>
    rw [swapAt_eq (by rw [List.length_range]; omega) (by rw [List.length_range]; omega)]
    simp only [List.getElem_range, Nat.zero_add]
    rw [split, List.set_cons_succ, List.set_cons_zero, List.set_cons_succ]

theorem permuted_one (positive : 0 < size) :
    permuted hash id size x 1 = (permHead hash id size x :: List.range' 1 (size - 1)).set (permHead hash id size x) 0 := by
  rw [← swapAt_range (show permHead hash id size x < size from mod_lt _ positive), ← permDraw_zero positive]
  rfl

theorem permuted_one_head (positive : 0 < size) :
    (permuted hash id size x 1)[0]? = some (permHead hash id size x) := by
  rw [permuted_one positive]
  cases permHead hash id size x with
  | zero => rw [List.set_cons_zero, List.getElem?_cons_zero]
  | succ head => rw [List.set_cons_succ, List.getElem?_cons_zero]

/-- Carried on from any count the permutation is the same. -/
theorem permFinish_follows {pr : Nat} (items : bucket.items.length = bucket.size.toNat)
    (known : cache.perm = permuted bucket.hash bucket.id bucket.size.toNat cache.permX cache.permN.toNat)
    (counted : cache.permN.toNat ≤ bucket.size.toNat) (inside : pr < bucket.size.toNat) :
    Returns (permFinish bucket cache.permX pr cache) fun result =>
      (∃ entry, (permutation bucket.hash bucket.id bucket.size.toNat cache.permX)[pr]? = some entry ∧
        bucket.items[entry]? = some result.1) ∧ result.2.Follows bucket := by
  have small : pr + 1 < 2 ^ 32 := Nat.lt_of_le_of_lt inside bucket.size.toNat_lt
  have count : (max cache.permN (UInt32.ofNat (pr + 1))).toNat =
      cache.permN.toNat + (pr + 1 - cache.permN.toNat) := by
    rw [max_toNat, UInt32.toNat_ofNat_of_lt' small]
    lia
  have bounded : (max cache.permN (UInt32.ofNat (pr + 1))).toNat ≤ bucket.size.toNat := by lia
  have extended := @permExtend_eq bucket cache.permX (pr + 1 - cache.permN.toNat) cache.permN.toNat (by omega)
  rw [← count, ← known] at extended
  let later := permuted bucket.hash bucket.id bucket.size.toNat cache.permX
    (max cache.permN (UInt32.ofNat (pr + 1))).toNat
  have inPerm : pr < later.length := by simpa only [later, permuted_length] using inside
  have inItems : later[pr] < bucket.items.length := by
    rw [items]
    exact List.mem_range.mp ((permuted_perm _).mem_iff.mp (List.getElem_mem inPerm))
  unfold permFinish
  rw [extended]
  change Returns (readAt Fault.outOfBounds later pr >>= _) _
  rw [readAt_eq_ok inPerm]
  change Returns (readAt Fault.outOfBounds bucket.items later[pr] >>= _) _
  rw [readAt_eq_ok inItems]
  refine Returns.pure ⟨⟨later[pr], ?_, List.getElem?_eq_getElem inItems⟩, ?_, fun _ => ?_, fun _ _ => ?_⟩
  · rw [← permuted_frame (show pr < _ by lia) bounded]
    exact List.getElem?_eq_getElem inPerm
  · exact permuted_length _
  · exact (permuted_frame (by lia) bounded).trans (permuted_frame Nat.zero_lt_one (by omega)).symm
  · exact ⟨bounded, rfl⟩

/-- One call answers by the permutation alone, whatever came before. -/
theorem bucketPermChoose_permutes (items : bucket.items.length = bucket.size.toNat)
    (nonempty : bucket.size ≠ 0) (follows : cache.Follows bucket) :
    Returns (bucketPermChoose bucket x r cache) fun result =>
      bucket.Permutes x r result.1 ∧ result.2.Follows bucket := by
  have positive : 0 < bucket.size.toNat :=
    Nat.pos_of_ne_zero fun zero => nonempty (UInt32.toNat_inj.mp zero)
  have inside := mod_lt r.toNat positive
  unfold bucketPermChoose
  simp only [nonempty, if_false]
  have head : permHead bucket.hash bucket.id bucket.size.toNat x < bucket.size.toNat := mod_lt _ positive
  have inPerm : 0 < cache.perm.length := by
    rw [follows.length]
    exact positive
  split
  next fresh =>
    split
    next zero =>
      have inItems : permHead bucket.hash bucket.id bucket.size.toNat x < bucket.items.length := by
        rw [items]
        exact head
      have stored : (cache.perm.set 0 (permHead bucket.hash bucket.id bucket.size.toNat x))[0]? =
          (permuted bucket.hash bucket.id bucket.size.toNat x 1)[0]? := by
        rw [permuted_one_head positive, List.getElem?_set_self inPerm]
      have read := @readAt_eq_ok _ _ Fault.outOfBounds _ _ inItems
      unfold permHead at read
      simp only [writeAt_eq_ok inPerm, bind, Except.bind]
      rw [read]
      refine Returns.pure ⟨⟨_, ?_, List.getElem?_eq_getElem inItems⟩, ?_, fun _ => stored, fun _ unmarked => ?_⟩
      · rw [zero, ← permuted_frame Nat.zero_lt_one positive]
        exact permuted_one_head positive
      · rw [List.length_set]
        exact follows.length
      · exact absurd rfl unmarked
    next =>
      have started : (List.range bucket.size.toNat) =
          permuted bucket.hash bucket.id bucket.size.toNat x (0 : UInt32).toNat := rfl
      exact @permFinish_follows bucket ⟨x, 0, _⟩ _ items started (zero_le _) inside
  next kept =>
    obtain ⟨rfl, started⟩ : cache.permX = x ∧ cache.permN ≠ 0 := by
      rw [not_or, not_not] at kept
      exact kept
    split
    next marked =>
      have first : cache.perm[0] = permHead bucket.hash bucket.id bucket.size.toNat cache.permX := by
        have known := follows.first started
        rw [permuted_one_head positive, List.getElem?_eq_getElem inPerm] at known
        exact Option.some.inj known
      simp only [readAt_eq_ok inPerm, first, bind, Except.bind]
      rw [writeAt_eq_ok (by
        rw [List.length_cons, List.length_range']
        lia), ← permuted_one positive]
      exact @permFinish_follows bucket ⟨cache.permX, 1, _⟩ _ items rfl positive inside
    next unmarked =>
      obtain ⟨counted, known⟩ := follows.filled started unmarked
      exact permFinish_follows items known counted inside

theorem permChooseAll_permutes (items : bucket.items.length = bucket.size.toNat)
    (nonempty : bucket.size ≠ 0) (follows : cache.Follows bucket) (calls : List (UInt32 × UInt32)) :
    Returns (permChooseAll bucket calls cache) fun result =>
      List.Forall₂ (fun call item => bucket.Permutes call.1 call.2 item) calls result.1 := by
  induction calls generalizing cache with
  | nil => exact Returns.pure List.Forall₂.nil
  | cons call calls ih =>
    refine Returns.bind (bucketPermChoose_permutes items nonempty follows) fun chosen holds => ?_
    refine Returns.bind (ih holds.2) fun rest later => ?_
    exact Returns.pure (List.Forall₂.cons holds.1 later)

end

/-- The calls on a freshly decoded bucket return the items that one permutation
for each `x` has, in whatever order the calls come. -/
theorem permutation_invisible (bucket : Bucket) (allocated : bucket.Allocated) (nonempty : bucket.size ≠ 0)
    (cache : PermCache) (decoded : cache.permN = 0) (length : cache.perm.length = bucket.size.toNat) :
    (∀ x, (permutation bucket.hash bucket.id bucket.size.toNat x).Perm (List.range bucket.size.toNat)) ∧
      ∀ calls, Returns (permChooseAll bucket calls cache) fun result =>
        List.Forall₂ (fun call item => bucket.Permutes call.1 call.2 item) calls result.1 := by
  have follows : cache.Follows bucket :=
    ⟨length, fun started => absurd decoded started, fun started => absurd decoded started⟩
  exact ⟨fun x => permuted_perm _, permChooseAll_permutes allocated.items nonempty follows⟩

/-- A uniform bucket of three items. -/
theorem permutation_invisible_triple :
    (∀ x, (permutation 0 (-1) 3 x).Perm (List.range 3)) ∧
      ∀ calls, Returns (permChooseAll ⟨-1, 1, 1, 0, 3, [4, 5, 6], [], [], 0, [], []⟩ calls ⟨0, 0, [0, 0, 0]⟩)
        fun result => List.Forall₂ (fun call item => Bucket.Permutes
          ⟨-1, 1, 1, 0, 3, [4, 5, 6], [], [], 0, [], []⟩ call.1 call.2 item) calls result.1 :=
  permutation_invisible ⟨-1, 1, 1, 0, 3, [4, 5, 6], [], [], 0, [], []⟩
    ⟨rfl, by decide, by decide, by decide, by decide⟩ (by decide) ⟨0, 0, [0, 0, 0]⟩ rfl rfl

end KmodCeph.Crush
