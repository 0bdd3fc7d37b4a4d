import KmodCeph.Xattr.Store

namespace KmodCeph.Xattr

open Lib Function List XattrInode

abbrev Attributes := List UInt8 → Option (List UInt8)

def xattrKey (xattr : Xattr) : List Nat := nameKey xattr.name

def Represents (entries : List Xattr) (attributes : Attributes) : Prop :=
  ∀ name val, ⟨name, val⟩ ∈ entries ↔ attributes name = some val

def encodedLength (entries : List Xattr) : Nat :=
  4 + (entries.map fun xattr => 8 + xattr.name.length + xattr.val.length).sum

/-- The index is ordered by name, and the sizes are those of its entries. -/
structure Accounted (ci : XattrInode) : Prop where
  sorted : Sorted xattrKey ci.index
  noNul : ∀ xattr ∈ inorder ci.index, 0 ∉ xattr.name
  count : ci.count = (inorder ci.index).length
  namesSize : ci.namesSize = ((inorder ci.index).map fun xattr => xattr.name.length).sum
  valsSize : ci.valsSize = ((inorder ci.index).map fun xattr => xattr.val.length).sum

def OnlyIndex (ci next : XattrInode) : Prop :=
  next = { ci with
    index := next.index
    count := next.count
    namesSize := next.namesSize
    valsSize := next.valsSize }

section

variable {name val : List UInt8} {attributes : Attributes} {before behind entries : List Xattr} {old : Xattr}

theorem represents_update (apart : ∀ xattr ∈ before ++ behind, xattr.name ≠ name)
    (others : ∀ other ≠ name, ∀ val, ⟨other, val⟩ ∈ before ++ behind ↔ attributes other = some val) :
    Represents (before ++ ⟨name, val⟩ :: behind) (update attributes name (some val)) ∧
      Represents (before ++ behind) (update attributes name none) := by
  constructor
  · intro other content
    by_cases same : other = name
    · subst same
      have absent : ⟨other, content⟩ ∉ before ++ behind := fun member => apart _ member rfl
      simp only [mem_append, not_or] at absent
      simp only [mem_append, mem_cons, absent, false_or, or_false, update_self, Xattr.mk.injEq, true_and,
        Option.some.injEq]
      exact eq_comm
    · rw [update_of_ne same, ← others other same content]
      simp [same]
  · intro other content
    by_cases same : other = name
    · subst same
      rw [update_self]
      exact iff_of_false (fun member => apart _ member rfl) nofun
    · rw [update_of_ne same, others other same content]

theorem others_of_absent (represents : Represents (before ++ behind) attributes) :
    ∀ other ≠ name, ∀ val, ⟨other, val⟩ ∈ before ++ behind ↔ attributes other = some val :=
  fun other _ val => represents other val

theorem others_of_present (represents : Represents (before ++ old :: behind) attributes) (same : old.name = name) :
    ∀ other ≠ name, ∀ val, ⟨other, val⟩ ∈ before ++ behind ↔ attributes other = some val := by
  intro other differs val
  rw [← represents other val]
  have apart : (⟨other, val⟩ : Xattr) ≠ old := fun equal => differs (by rw [← same, ← equal])
  simp [apart]

theorem encodedLength_around : encodedLength (before ++ old :: behind) =
    encodedLength (before ++ behind) + (8 + old.name.length + old.val.length) := by
  simp only [encodedLength, map_append, map_cons, sum_append, sum_cons]
  lia

end

section

variable {ci : XattrInode} {name val : List UInt8} {attributes : Attributes}

theorem Accounted.size (accounted : Accounted ci) :
    4 + ci.count * (4 + 4) + ci.namesSize + ci.valsSize = encodedLength (inorder ci.index) := by
  rw [accounted.count, accounted.namesSize, accounted.valsSize, encodedLength]
  have sums : ∀ entries : List Xattr, (entries.map fun xattr => 8 + xattr.name.length + xattr.val.length).sum =
      8 * entries.length + (entries.map fun xattr => xattr.name.length).sum + (entries.map fun xattr => xattr.val.length).sum := by
    intro entries
    induction entries with
    | nil => rfl
    | cons first rest ih =>
      simp only [map_cons, sum_cons, length_cons, ih]
      lia
  rw [sums]
  push_cast
  ring

theorem Accounted.ranks (accounted : Accounted ci) (whole : 0 ∉ name) : ∀ xattr ∈ inorder ci.index,
    compareSet name xattr.name = keyOrdering (nameKey name) (xattrKey xattr) :=
  fun xattr member => compareSet_eq whole (accounted.noNul xattr member)

theorem Accounted.getXattr_eq (accounted : Accounted ci) (name : CString) :
    ci.getXattr name = findKey xattrKey (nameKey name.bytes) ci.index :=
  searchBy_eq fun xattr member => compareGet_eq name.noNul (accounted.noNul xattr member)

theorem Accounted.search_eq (accounted : Accounted ci) (name : CString) :
    searchBy (fun xattr => compareSet name.bytes xattr.name) ci.index = ci.getXattr name :=
  (searchBy_eq (accounted.ranks name.noNul)).trans (accounted.getXattr_eq name).symm

theorem Accounted.lookup (accounted : Accounted ci) (represents : Represents (inorder ci.index) attributes) (name : CString) :
    (ci.getXattr name).map Xattr.val = attributes name.bytes := by
  rw [accounted.getXattr_eq]
  cases found : findKey xattrKey (nameKey name.bytes) ci.index with
  | some xattr =>
    obtain ⟨member, same⟩ := findKey_mem found
    have equal : xattr.name = name.bytes := nameKey_injective same
    exact ((represents name.bytes xattr.val).mp (equal ▸ member)).symm
  | none =>
    cases stored : attributes name.bytes with
    | none => rfl
    | some val =>
      have member := (represents name.bytes val).mpr stored
      have present : findKey xattrKey (nameKey name.bytes) ci.index = some _ := findKey_of_mem accounted.sorted member
      rw [found] at present
      cases present

end

/-- The index has come to represent another map, and its encoding is longer by no more than `growth`. -/
structure Stored (ci next : XattrInode) (attributes : Attributes) (growth : Nat) : Prop where
  accounted : Accounted next
  represents : Represents (inorder next.index) attributes
  only : OnlyIndex ci next
  length : encodedLength (inorder next.index) ≤ encodedLength (inorder ci.index) + growth

section

variable {ci : XattrInode} {attributes : Attributes} {balancing : Balancing Xattr} {name : CString} {val : List UInt8}
variable {flags : XattrFlags} {updateXattr : Int}

theorem Stored.refl (accounted : Accounted ci) (represents : Represents (inorder ci.index) attributes) {growth : Nat} :
    Stored ci ci attributes growth :=
  ⟨accounted, represents, rfl, Nat.le_add_right _ _⟩

theorem Stored.remove (accounted : Accounted ci) (represents : Represents (inorder ci.index) attributes) {growth : Nat} :
    Stored ci (ci.removeXattr balancing (ci.getXattr name)).2 (update attributes name.bytes none) growth := by
  rw [accounted.getXattr_eq]
  cases found : findKey xattrKey (nameKey name.bytes) ci.index with
  | none =>
    have absent : attributes name.bytes = none := by
      rw [← accounted.lookup represents name, accounted.getXattr_eq, found]
      rfl
    rw [← absent, update_eq_self]
    exact .refl accounted represents
  | some xattr =>
    obtain ⟨member, same⟩ := findKey_mem found
    have equal : xattr.name = name.bytes := nameKey_injective same
    obtain ⟨before, behind, _, split, erased⟩ := exists_erase_eq member
    have apart : ∀ other ∈ before ++ behind, other.name ≠ name.bytes := by
      intro other within equal'
      exact accounted.sorted.around split other within (by rw [xattrKey, xattrKey, equal, equal'])
    have after : inorder (balancing.erase ci.index xattr) = before ++ behind := (balancing.inorder_erase _ _).trans erased
    have others := others_of_present (split ▸ represents) equal
    refine ⟨⟨balancing.sorted_erase accounted.sorted xattr, ?_, ?_, ?_, ?_⟩, ?_, rfl, ?_⟩
    all_goals simp only [removeXattr, after]
    · intro other within
      refine accounted.noNul other ?_
      rw [split]
      exact List.mem_append.mpr ((List.mem_append.mp within).imp_right (mem_cons_of_mem _))
    · rw [accounted.count, split]
      simp only [length_append, length_cons]
      omega
    · rw [accounted.namesSize, split]
      simp only [map_append, map_cons, sum_append, sum_cons]
      omega
    · rw [accounted.valsSize, split]
      simp only [map_append, map_cons, sum_append, sum_cons]
      omega
    · exact (@represents_update name.bytes [] attributes before behind apart others).2
    · rw [split, encodedLength_around]
      omega

theorem Stored.put (accounted : Accounted ci) (represents : Represents (inorder ci.index) attributes)
    (may : updateXattr = 0 ∨ (0 < updateXattr ∧ ¬ ((ci.getXattr name).isSome ∧ flags.create) ∧
      ¬ ((ci.getXattr name).isNone ∧ flags.replace))) :
    (ci.setXattr balancing name.bytes val flags updateXattr).1 = 0 ∧
    Stored ci (ci.setXattr balancing name.bytes val flags updateXattr).2
      (update attributes name.bytes (some val)) (8 + name.bytes.length + val.length) := by
  have first : ¬ (updateXattr ≠ 0 ∧ (ci.getXattr name).isSome ∧ flags.create) := by tauto
  have second : ¬ (updateXattr ≠ 0 ∧ (ci.getXattr name).isNone ∧ flags.replace) := by tauto
  have third : ¬ updateXattr < 0 := by omega
  obtain ⟨before, behind, smaller, larger, parts⟩ := @inorder_upsertBy _ _ _ xattrKey (nameKey name.bytes)
    (fun xattr : Xattr => compareSet name.bytes xattr.name) (fun old => { old with val := val }) ⟨name.bytes, val⟩ ci.index
    (accounted.ranks name.noNul) accounted.sorted
  have apart : ∀ other ∈ before ++ behind, other.name ≠ name.bytes := by
    intro other within equal
    rcases List.mem_append.mp within with member | member
    · exact (smaller other member).ne (congrArg nameKey equal)
    · exact (larger other member).ne (congrArg nameKey equal).symm
  have sorted := @sorted_upsertBy _ _ _ xattrKey (nameKey name.bytes) (fun xattr : Xattr => compareSet name.bytes xattr.name)
    (fun old => { old with val := val }) ⟨name.bytes, val⟩ ci.index (accounted.ranks name.noNul) accounted.sorted
    (fun _ => rfl) rfl
  unfold setXattr
  simp only [accounted.search_eq, first, second, third, if_false]
  rw [accounted.search_eq] at parts
  rcases parts with ⟨absent, split, after⟩ | ⟨old, found, same, split, after⟩
  · have others := @others_of_absent name.bytes _ _ _ (split ▸ represents)
    rw [absent]
    refine ⟨rfl, ⟨balancing.sorted_balance sorted, ?_, ?_, ?_, ?_⟩, ?_, rfl, ?_⟩
    all_goals simp only [balancing.inorder_balance, after]
    · intro other within
      rcases List.mem_append.mp within with member | member
      · exact accounted.noNul other (split ▸ mem_append_left _ member)
      · rcases List.mem_cons.mp member with rfl | member
        · exact name.noNul
        · exact accounted.noNul other (split ▸ mem_append_right _ member)
    · rw [accounted.count, split]
      simp only [length_append, length_cons]
      omega
    · rw [accounted.namesSize, split]
      simp only [map_append, map_cons, sum_append, sum_cons]
      lia
    · rw [accounted.valsSize, split]
      simp only [map_append, map_cons, sum_append, sum_cons]
      lia
    · exact (represents_update apart others).1
    · rw [split, encodedLength_around]
  · have equal : old.name = name.bytes := nameKey_injective same
    have others := others_of_present (split ▸ represents) equal
    rw [found]
    refine ⟨rfl, ⟨sorted, ?_, ?_, ?_, ?_⟩, ?_, rfl, ?_⟩
    all_goals simp only [after]
    · intro other within
      rcases List.mem_append.mp within with member | member
      · exact accounted.noNul other (split ▸ mem_append_left _ member)
      · rcases List.mem_cons.mp member with rfl | member
        · exact accounted.noNul old (split ▸ mem_append_right _ mem_cons_self)
        · exact accounted.noNul other (split ▸ mem_append_right _ (mem_cons_of_mem _ member))
    · rw [accounted.count, split]
      simp only [length_append, length_cons]
    · rw [accounted.namesSize, split]
      simp only [map_append, map_cons, sum_append, sum_cons, equal]
      omega
    · rw [accounted.valsSize, split]
      simp only [map_append, map_cons, sum_append, sum_cons]
      lia
    · rw [equal]
      exact (represents_update apart others).1
    · rw [split, encodedLength_around, encodedLength_around]
      lia

theorem setXattr_cases (accounted : Accounted ci) (represents : Represents (inorder ci.index) attributes)
    (value : Option (List UInt8)) :
    ((((ci.getXattr name).isSome ∧ flags.create) ∨ ((ci.getXattr name).isNone ∧ flags.replace)) ∧ ∃ err, err ≠ 0 ∧
      ci.setXattr balancing name.bytes (value.getD []) flags (if value.isSome then 1 else -1) = (err, ci)) ∨
    (¬ ((ci.getXattr name).isSome ∧ flags.create) ∧ ¬ ((ci.getXattr name).isNone ∧ flags.replace) ∧ ∃ next,
      ci.setXattr balancing name.bytes (value.getD []) flags (if value.isSome then 1 else -1) = (0, next) ∧
      Stored ci next (update attributes name.bytes value) (8 + name.bytes.length + (value.getD []).length)) := by
  have asks : (if value.isSome then 1 else -1 : Int) ≠ 0 := by split <;> decide
  by_cases exists' : (ci.getXattr name).isSome ∧ flags.create
  · refine .inl ⟨.inl exists', -17, by decide, ?_⟩
    unfold setXattr
    simp only [accounted.search_eq]
    rw [if_pos ⟨asks, exists'⟩]
  by_cases missing : (ci.getXattr name).isNone ∧ flags.replace
  · refine .inl ⟨.inr missing, -61, by decide, ?_⟩
    unfold setXattr
    simp only [accounted.search_eq]
    rw [if_neg fun both => exists' both.2, if_pos ⟨asks, missing⟩]
  · refine .inr ⟨exists', missing, ?_⟩
    cases value with
    | some val =>
      obtain ⟨zero, stored⟩ := @Stored.put ci attributes balancing name val flags 1 accounted represents
        (.inr ⟨by decide, exists', missing⟩)
      exact ⟨_, Prod.ext zero rfl, stored⟩
    | none =>
      obtain ⟨after, represented, only, length⟩ := @Stored.remove ci attributes balancing name accounted represents
        (8 + name.bytes.length + ([] : List UInt8).length)
      refine ⟨_, ?_, ⟨after, represented, only, length⟩⟩
      unfold setXattr
      simp only [accounted.search_eq]
      rw [if_neg fun both => exists' both.2, if_neg fun both => missing both.2, if_pos (by decide)]
      cases ci.getXattr name with
      | none => rfl
      | some xattr => rfl

end

end KmodCeph.Xattr
