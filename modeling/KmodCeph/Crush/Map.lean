import KmodCeph.Crush.Bucket

namespace KmodCeph.Crush

open Lib List

structure RuleStep where
  op : UInt32
  arg1 : Int
  arg2 : Int
deriving DecidableEq

structure Rule where
  ruleset : UInt8
  type : UInt8
  minSize : UInt8
  maxSize : UInt8
  steps : List RuleStep
deriving DecidableEq

/-- `struct crush_map`; `max_buckets` and `max_rules` are the lengths of the
two arrays, whose slots may be `NULL`. -/
structure CrushMap where
  buckets : List (Option Bucket)
  rules : List (Option Rule)
  maxDevices : Int
  chooseLocalTries : UInt32
  chooseLocalFallbackTries : UInt32
  chooseTotalTries : UInt32
  chooseleafDescendOnce : UInt32
  chooseleafVaryR : UInt8
deriving DecidableEq

abbrev Perms := Int → PermCache

def CrushMap.bucketAt (map : CrushMap) (slot : Int) : Except Fault Bucket :=
  if slot < 0 then .error .badSlot
  else
    match map.buckets[slot.toNat]? with
    | none => .error .badSlot
    | some none => .error .nullBucket
    | some (some bucket) => .ok bucket

def CrushMap.checkSlot (map : CrushMap) (slot : Int) : Except Fault Unit :=
  if slot < 0 ∨ (map.buckets.length : Int) ≤ slot then .error .badSlot else .ok ()

variable {map : CrushMap} {slot type item : Int} {bucket : Bucket}

theorem checkSlot_of_bucketAt (found : map.bucketAt slot = .ok bucket) : map.checkSlot slot = .ok () := by
  unfold CrushMap.bucketAt at found
  split at found
  · cases found
  · rename_i nonneg
    split at found
    · cases found
    · cases found
    · rename_i stored
      have bounded := (List.getElem?_eq_some_iff.mp stored).1
      exact if_neg (by lia)

def CrushMap.itemType (map : CrushMap) (item : Int) : Except Fault Int :=
  if item < 0 then (map.bucketAt (bucketSlot item)).map fun bucket => bucket.type.toNat
  else .ok 0

/-- A rank of the buckets that containment lowers. -/
def CrushMap.Ranks (map : CrushMap) (rank : Int → Nat) : Prop :=
  ∀ slot bucket, map.bucketAt slot = .ok bucket → ∀ item ∈ bucket.items, item < 0 →
    rank (bucketSlot item) < rank slot

/-- The map has the shape that the placement algorithm is written for. -/
structure CrushMap.WellFormed (map : CrushMap) : Prop where
  bucketIds : ∀ slot bucket, map.bucketAt slot = .ok bucket →
    bucket.id = -1 - slot ∧ bucket.type ≠ 0
  itemsExist : ∀ slot bucket, map.bucketAt slot = .ok bucket → ∀ item ∈ bucket.items,
    (0 ≤ item ∧ item < map.maxDevices) ∨
      (item < 0 ∧ ∃ child, map.bucketAt (bucketSlot item) = .ok child)
  finite : ∃ rank, map.Ranks rank
  itemsOnce : ∀ slot₁ slot₂ bucket₁ bucket₂ (item : Int) (index₁ index₂ : Nat),
    map.bucketAt slot₁ = .ok bucket₁ → map.bucketAt slot₂ = .ok bucket₂ →
    bucket₁.items[index₁]? = some item → bucket₂.items[index₂]? = some item →
    slot₁ = slot₂ ∧ index₁ = index₂
  devices : 0 ≤ map.maxDevices
  allocated : ∀ slot bucket, map.bucketAt slot = .ok bucket → bucket.Allocated

def CrushMap.TreesSound (map : CrushMap) : Prop :=
  ∀ slot bucket, map.bucketAt slot = .ok bucket → bucket.alg = crushBucketTree → bucket.TreeSound

def CrushMap.entries (map : CrushMap) : List (Bucket × Nat) :=
  map.buckets.zipIdx.filterMap fun entry => entry.1.map (·, entry.2)

theorem bucketAt_mem_entries (found : map.bucketAt slot = .ok bucket) :
    ∃ index : Nat, slot = index ∧ (bucket, index) ∈ map.entries := by
  unfold CrushMap.bucketAt at found
  split at found
  · cases found
  · rename_i nonneg
    refine ⟨slot.toNat, by omega, ?_⟩
    split at found
    · cases found
    · cases found
    · rename_i stored
      cases found
      simp only [CrushMap.entries, mem_filterMap]
      exact ⟨(some bucket, slot.toNat), List.mem_zipIdx_iff_getElem?.mpr stored, rfl⟩

theorem forall_bucketAt {holds : Bucket → Prop}
    (entries : ∀ entry ∈ map.entries, holds entry.1) (slot : Int) (bucket : Bucket)
    (found : map.bucketAt slot = .ok bucket) : holds bucket := by
  obtain ⟨index, -, member⟩ := bucketAt_mem_entries found
  exact entries _ member

instance (bucket : Bucket) : Decidable bucket.Allocated :=
  decidable_of_iff (bucket.items.length = bucket.size.toNat ∧
    (bucket.alg = crushBucketList → bucket.sumWeights.length = bucket.size.toNat) ∧
    (bucket.alg = crushBucketList → bucket.itemWeights.length = bucket.size.toNat) ∧
    (bucket.alg = crushBucketTree → bucket.nodeWeights.length = bucket.numNodes.toNat) ∧
    (bucket.alg = crushBucketStraw → bucket.straws.length = bucket.size.toNat))
    ⟨fun ⟨items, sums, weights, nodes, straws⟩ => ⟨items, sums, weights, nodes, straws⟩,
      fun h => ⟨h.items, h.sumWeights, h.itemWeights, h.nodeWeights, h.straws⟩⟩

def CrushMap.EntryFits (map : CrushMap) (rank : Nat → Nat) (entry : Bucket × Nat) : Prop :=
  entry.1.id = -1 - (entry.2 : Int) ∧ entry.1.type ≠ 0 ∧ entry.1.Allocated ∧
    (∀ item ∈ entry.1.items, (0 ≤ item ∧ item < map.maxDevices) ∨
      (item < 0 ∧ (map.bucketAt (bucketSlot item)).toBool = true ∧
        rank (bucketSlot item).toNat < rank entry.2)) ∧
    ∀ other ∈ map.entries, ∀ item ∈ entry.1.items.zipIdx, ∀ item' ∈ other.1.items.zipIdx,
      item.1 = item'.1 → entry.2 = other.2 ∧ item.2 = item'.2

instance (map : CrushMap) (rank : Nat → Nat) (entry : Bucket × Nat) :
    Decidable (map.EntryFits rank entry) := by
  unfold CrushMap.EntryFits
  infer_instance

/-- A finite check for `WellFormed`. -/
theorem CrushMap.wellFormed_of_entries (rank : Nat → Nat)
    (devices : 0 ≤ map.maxDevices) (fits : ∀ entry ∈ map.entries, map.EntryFits rank entry) : map.WellFormed := by
  refine ⟨?_, ?_, ⟨fun slot => rank slot.toNat, ?_⟩, ?_, devices, ?_⟩
  · intro slot bucket found
    obtain ⟨index, rfl, member⟩ := bucketAt_mem_entries found
    exact ⟨(fits _ member).1, (fits _ member).2.1⟩
  · intro slot bucket found item inside
    obtain ⟨index, rfl, member⟩ := bucketAt_mem_entries found
    rcases (fits _ member).2.2.2.1 item inside with device | ⟨negative, exists_, -⟩
    · exact .inl device
    · refine .inr ⟨negative, ?_⟩
      cases located : map.bucketAt (bucketSlot item) with
      | error fault => simp [located, Except.toBool] at exists_
      | ok child => exact ⟨child, rfl⟩
  · intro slot bucket found item inside negative
    obtain ⟨index, rfl, member⟩ := bucketAt_mem_entries found
    rcases (fits _ member).2.2.2.1 item inside with device | ⟨_, _, lower⟩
    · omega
    · exact lower
  · intro slot₁ slot₂ bucket₁ bucket₂ item index₁ index₂ found₁ found₂ stored₁ stored₂
    obtain ⟨slot₁, rfl, member₁⟩ := bucketAt_mem_entries found₁
    obtain ⟨slot₂, rfl, member₂⟩ := bucketAt_mem_entries found₂
    obtain ⟨slots, indices⟩ := (fits _ member₁).2.2.2.2 _ member₂ (item, index₁)
      (List.mem_zipIdx_iff_getElem?.mpr stored₁) (item, index₂)
      (List.mem_zipIdx_iff_getElem?.mpr stored₂) rfl
    exact ⟨congrArg Nat.cast slots, indices⟩
  · intro slot bucket found
    obtain ⟨index, rfl, member⟩ := bucketAt_mem_entries found
    exact (fits _ member).2.2.1

def Perms.Fit (perms : Perms) (map : CrushMap) : Prop :=
  ∀ slot bucket, map.bucketAt slot = .ok bucket → (perms slot).Fits bucket

theorem Perms.Fit.update {perms : Perms} (fit : perms.Fit map)
    {cache : PermCache} (found : map.bucketAt slot = .ok bucket) (fits : cache.Fits bucket) :
    Perms.Fit (Function.update perms slot cache) map := by
  intro other otherBucket otherFound
  by_cases same : other = slot
  · subst same
    rw [found] at otherFound
    cases otherFound
    simpa using fits
  · simpa [same] using fit other otherBucket otherFound

def freshPerms (map : CrushMap) : Perms := fun slot =>
  match map.bucketAt slot with
  | .ok bucket => { permX := 0, permN := 0, perm := replicate bucket.size.toNat 0 }
  | .error _ => { permX := 0, permN := 0, perm := [] }

theorem freshPerms_fit (map : CrushMap) : (freshPerms map).Fit map := by
  intro slot bucket found
  simp only [freshPerms, found]
  refine ⟨length_replicate, fun entry member => ?_⟩
  obtain ⟨nonzero, rfl⟩ := List.mem_replicate.mp member
  omega

/-- The item is reached from the bucket through buckets whose type is not
`type`; the item itself may have that type. -/
inductive Descends (map : CrushMap) (type : Int) (slot : Int) : Int → Prop where
  | direct {bucket : Bucket} {item : Int} (found : map.bucketAt slot = .ok bucket)
      (member : item ∈ bucket.items) : Descends map type slot item
  | deeper {bucket : Bucket} {middle item : Int} (reached : Descends map type slot middle)
      (negative : middle < 0) (found : map.bucketAt (bucketSlot middle) = .ok bucket)
      (passed : (bucket.type.toNat : Int) ≠ type) (member : item ∈ bucket.items) :
      Descends map type slot item

/-- The item is somewhere below the bucket: no bucket has the type -1. -/
abbrev Below (map : CrushMap) (slot item : Int) : Prop := Descends map (-1) slot item

theorem Descends.toBelow (reached : Descends map type slot item) : Below map slot item := by
  induction reached with
  | direct found member => exact .direct found member
  | deeper _ negative found _ member ih => exact .deeper ih negative found (by omega) member

theorem Descends.located (reached : Descends map type slot item) : ∃ bucket, map.bucketAt slot = .ok bucket := by
  induction reached with
  | direct found _ => exact ⟨_, found⟩
  | deeper _ _ _ _ _ ih => exact ih

theorem Below.trans {middle : Int} (upper : Below map slot middle)
    (negative : middle < 0) (lower : Below map (bucketSlot middle) item) : Below map slot item := by
  induction lower with
  | direct found member => exact .deeper upper negative found (by omega) member
  | deeper _ below found passed member ih => exact .deeper ih below found passed member

theorem bucketSlot_bucketSlot (slot : Int) : bucketSlot (bucketSlot slot) = slot := by
  unfold bucketSlot
  omega

theorem bucketAt_nonneg (found : map.bucketAt slot = .ok bucket) : 0 ≤ slot := by
  unfold CrushMap.bucketAt at found
  split at found
  · cases found
  · omega

theorem Descends.rank_lt {rank : Int → Nat}
    (ranks : map.Ranks rank) (reached : Descends map type slot item) (negative : item < 0) :
    rank (bucketSlot item) < rank slot := by
  induction reached with
  | direct found member => exact ranks _ _ found _ member negative
  | deeper _ below found _ member ih => exact (ranks _ _ found _ member negative).trans (ih below)

theorem Below.of_member (wellFormed : map.WellFormed) {parent : Int}
    (located : map.bucketAt parent = .ok bucket) (member : item ∈ bucket.items)
    (below : Below map slot item) : slot = parent ∨ Below map slot (bucketSlot parent) := by
  obtain ⟨index, stored⟩ := mem_iff_getElem?.mp member
  cases below with
  | direct found inside =>
    obtain ⟨index', stored'⟩ := mem_iff_getElem?.mp inside
    exact .inl (wellFormed.itemsOnce _ _ _ _ _ _ _ found located stored' stored).1
  | deeper reached _ found _ inside =>
    obtain ⟨index', stored'⟩ := mem_iff_getElem?.mp inside
    have same := (wellFormed.itemsOnce _ _ _ _ _ _ _ found located stored' stored).1
    rw [← same, bucketSlot_bucketSlot]
    exact .inr reached

theorem Below.chain (wellFormed : map.WellFormed) {slot₁ slot₂ : Int}
    (below₁ : Below map slot₁ item) (below₂ : Below map slot₂ item) :
    slot₁ = slot₂ ∨ Below map slot₁ (bucketSlot slot₂) ∨ Below map slot₂ (bucketSlot slot₁) := by
  induction below₁ with
  | direct found member =>
    rcases below₂.of_member wellFormed found member with same | above
    · exact .inl same.symm
    · exact .inr (.inr above)
  | @deeper bucket middle item reached negative found _ member ih =>
    rcases below₂.of_member wellFormed found member with rfl | above
    · exact .inr (.inl (by rwa [bucketSlot_bucketSlot]))
    · rw [bucketSlot_bucketSlot] at above
      exact ih above

theorem Below.not_self (wellFormed : map.WellFormed) (negative : item < 0) : ¬ Below map (bucketSlot item) item := by
  intro below
  obtain ⟨rank, ranks⟩ := wellFormed.finite
  exact lt_irrefl _ (below.rank_lt ranks negative)

/-- No bucket of the type is passed on the way down. -/
theorem Descends.not_between (wellFormed : map.WellFormed)
    {root between : Int} (reached : Descends map type root item) (negative : between < 0)
    (inside : Below map root between) (typed : map.itemType between = .ok type) :
    ¬ Below map (bucketSlot between) item := by
  have apart : ∀ slot, slot = root → bucketSlot between ≠ slot ∧
      ¬ Below map (bucketSlot between) (bucketSlot slot) := by
    rintro slot rfl
    refine ⟨fun same => ?_, fun below => ?_⟩
    · rw [← same] at inside
      exact Below.not_self wellFormed negative inside
    · refine Below.not_self wellFormed negative (below.trans ?_ ?_)
      · obtain ⟨bucket, located⟩ := inside.located
        have := bucketAt_nonneg located
        unfold bucketSlot
        omega
      · rwa [bucketSlot_bucketSlot]
  induction reached with
  | direct found member =>
    intro below
    rcases below.of_member wellFormed found member with same | above
    · exact (apart _ rfl).1 same
    · exact (apart _ rfl).2 above
  | @deeper bucket middle item reached below found passed member ih =>
    intro above
    rcases above.of_member wellFormed found member with same | above
    · have : between = middle := by
        unfold bucketSlot at same
        omega
      subst this
      simp only [CrushMap.itemType, negative, if_true, found, Except.map] at typed
      exact passed (Except.ok.inj typed)
    · rw [bucketSlot_bucketSlot] at above
      exact ih above

end KmodCeph.Crush
