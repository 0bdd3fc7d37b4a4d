import KmodCeph.Xattr.Index

namespace KmodCeph.Xattr

open Lib List XattrInode

def encodeXattrs (entries : List Xattr) : List UInt8 :=
  leBytes 4 entries.length ++ entries.flatMap encodeXattr

def putXattr (attributes : Attributes) (xattr : Xattr) : Attributes :=
  Function.update attributes xattr.name (some xattr.val)

/-- The map that a blob encodes. The last entry of a name counts. -/
def attributesOf (entries : List Xattr) : Attributes := entries.foldl putXattr fun _ => none

structure ValidBlob (blob : List UInt8) (entries : List Xattr) : Prop where
  encoded : blob = encodeXattrs entries
  noNul : ∀ xattr ∈ entries, 0 ∉ xattr.name
  length : blob.length < 2 ^ 31

def LoadFails (failing : Option Nat) (entries : List Xattr) : Prop :=
  entries ≠ [] ∧ failing.any (fun index => index ≤ entries.length)

instance decidableLoadFails (failing : Option Nat) (entries : List Xattr) : Decidable (LoadFails failing entries) :=
  inferInstanceAs (Decidable (_ ∧ _))

structure Loaded (ci next : XattrInode) (attributes : Attributes) : Prop where
  accounted : Accounted next
  represents : Represents (inorder next.index) attributes
  frame : next = { ci with
    index := next.index
    count := next.count
    namesSize := next.namesSize
    valsSize := next.valsSize
    indexVersion := ci.version
    dirty := false }

section

variable {entries : List Xattr} {xattr : Xattr} {before rest blob : List UInt8}

theorem length_encodeXattr : (encodeXattr xattr).length = 8 + xattr.name.length + xattr.val.length := by
  simp only [encodeXattr, length_append, length_leBytes]
  omega

theorem length_encodeXattrs : (encodeXattrs entries).length = encodedLength entries := by
  simp only [encodeXattrs, encodedLength, length_append, length_leBytes, length_flatMap, length_encodeXattr]

theorem length_le_encodedLength : 4 + 8 * entries.length ≤ encodedLength entries := by
  unfold encodedLength
  induction entries with
  | nil => exact le_rfl
  | cons first others ih =>
    simp only [map_cons, sum_cons, length_cons] at ih ⊢
    lia

theorem decode32_leBytes {value : Nat} (bounded : value < 2 ^ 32) :
    decode32 (before ++ (leBytes 4 value ++ rest)) before.length = some (value, before.length + 4) := by
  have room : before.length ≤ (before ++ (leBytes 4 value ++ rest)).length ∧
      4 ≤ (before ++ (leBytes 4 value ++ rest)).length - before.length := by
    simp only [length_append, length_leBytes]
    lia
  have taken : (leBytes 4 value ++ rest).take 4 = leBytes 4 value := by
    simp
  unfold decode32
  rw [if_pos room, drop_left, taken, leValue_leBytes, Nat.mod_eq_of_lt (by simpa using bounded)]

theorem decodeEntry_encodeXattr (bounded : (encodeXattr xattr).length < 2 ^ 32) :
    ∃ entry, decodeEntry (before ++ (encodeXattr xattr ++ rest)) before.length =
        some (entry, (before ++ encodeXattr xattr).length) ∧
      entry.xattr (before ++ (encodeXattr xattr ++ rest)) = xattr := by
  rw [length_encodeXattr] at bounded
  have nameAt : before ++ (encodeXattr xattr ++ rest) =
      before ++ (leBytes 4 xattr.name.length ++ (xattr.name ++ (leBytes 4 xattr.val.length ++ (xattr.val ++ rest)))) := by
    simp only [encodeXattr, append_assoc]
  have valAt : before ++ (encodeXattr xattr ++ rest) =
      (before ++ leBytes 4 xattr.name.length ++ xattr.name) ++ (leBytes 4 xattr.val.length ++ (xattr.val ++ rest)) := by
    simp only [encodeXattr, append_assoc]
  have first : decode32 (before ++ (encodeXattr xattr ++ rest)) before.length = some (xattr.name.length, before.length + 4) := by
    rw [nameAt]
    exact decode32_leBytes (by omega)
  have second : decode32 (before ++ (encodeXattr xattr ++ rest)) (before.length + 4 + xattr.name.length) =
      some (xattr.val.length, before.length + 4 + xattr.name.length + 4) := by
    have here : (before ++ leBytes 4 xattr.name.length ++ xattr.name).length = before.length + 4 + xattr.name.length := by
      simp only [length_append, length_leBytes]
    rw [valAt, ← here]
    exact decode32_leBytes (by omega)
  refine ⟨⟨before.length + 4, xattr.name.length, before.length + 4 + xattr.name.length + 4, xattr.val.length⟩, ?_, ?_⟩
  · unfold decodeEntry
    simp only [first, second, length_append, length_encodeXattr]
    congr 2
    omega
  · have name : ((before ++ (encodeXattr xattr ++ rest)).drop (before.length + 4)).take xattr.name.length = xattr.name := by
      have here : (before ++ leBytes 4 xattr.name.length).length = before.length + 4 := by
        simp only [length_append, length_leBytes]
      rw [nameAt, ← here, ← append_assoc, drop_left, take_left]
    have val : ((before ++ (encodeXattr xattr ++ rest)).drop (before.length + 4 + xattr.name.length + 4)).take xattr.val.length =
        xattr.val := by
      have here : (before ++ leBytes 4 xattr.name.length ++ xattr.name ++ leBytes 4 xattr.val.length).length =
          before.length + 4 + xattr.name.length + 4 := by
        simp only [length_append, length_leBytes]
      rw [valAt, ← here, ← append_assoc, drop_left, take_left]
    rw [Entry.xattr, name, val]

theorem flatMap_encodeXattr_injective {others : List Xattr} (bounded : (before ++ entries.flatMap encodeXattr).length < 2 ^ 32)
    (same : entries.flatMap encodeXattr = others.flatMap encodeXattr) : entries = others := by
  induction entries generalizing others before with
  | nil =>
    cases others with
    | nil => rfl
    | cons other others =>
      have lengths := congrArg List.length same
      simp only [flatMap_nil, flatMap_cons, length_append, length_nil, length_encodeXattr] at lengths
      omega
  | cons xattr entries ih =>
    cases others with
    | nil =>
      have lengths := congrArg List.length same
      simp only [flatMap_nil, flatMap_cons, length_append, length_nil, length_encodeXattr] at lengths
      omega
    | cons other others =>
      rw [flatMap_cons, flatMap_cons] at same
      rw [flatMap_cons] at bounded
      have lengths := congrArg List.length same
      simp only [length_append] at bounded lengths
      obtain ⟨entry, decoded, here⟩ := @decodeEntry_encodeXattr xattr before (entries.flatMap encodeXattr) (by lia)
      obtain ⟨entry', decoded', here'⟩ := @decodeEntry_encodeXattr other before (others.flatMap encodeXattr) (by lia)
      rw [← same, decoded, Option.some.injEq, Prod.mk.injEq] at decoded'
      rw [← same, ← decoded'.1, here] at here'
      subst here'
      rw [ih (by rw [append_assoc]; simpa only [length_append] using bounded) (append_cancel_left same)]

theorem ValidBlob.unique {others : List Xattr} (valid : ValidBlob blob entries) (valid' : ValidBlob blob others) :
    entries = others := by
  have bounded := valid.length
  have same : encodeXattrs entries = encodeXattrs others := valid.encoded.symm.trans valid'.encoded
  rw [valid.encoded, encodeXattrs] at bounded
  have parts := append_inj same (by rw [length_leBytes, length_leBytes])
  exact @flatMap_encodeXattr_injective _ (leBytes 4 entries.length) _ (by omega) parts.2

end

section

variable {balancing : Balancing Xattr} {entries : List Xattr} {before blob : List UInt8} {ci : XattrInode}
variable {attributes : Attributes} {failing : Option Nat}

/-- The decoding loop puts the entries that are left into the index. -/
theorem decodeXattrs_loads {err : Int} (noNul : ∀ xattr ∈ entries, 0 ∉ xattr.name)
    (bounded : (before ++ entries.flatMap encodeXattr).length < 2 ^ 32) (accounted : Accounted ci)
    (represents : Represents (inorder ci.index) attributes) :
    ∃ next, ci.decodeXattrs balancing (before ++ entries.flatMap encodeXattr) entries.length before.length err =
        (if entries = [] then err else 0, next) ∧
      Loaded ci next (entries.foldl putXattr attributes) ∧
      encodedLength (inorder next.index) ≤ encodedLength (inorder ci.index) + (entries.flatMap encodeXattr).length := by
  induction entries generalizing before ci attributes err with
  | nil =>
    have entries : Represents (inorder ci.index) attributes := represents
    exact ⟨_, rfl, ⟨⟨accounted.sorted, accounted.noNul, accounted.count, accounted.namesSize, accounted.valsSize⟩,
      entries, rfl⟩, Nat.le_add_right _ _⟩
  | cons first rest ih =>
    have whole := noNul first mem_cons_self
    rw [flatMap_cons] at bounded ⊢
    obtain ⟨entry, decoded, same⟩ := @decodeEntry_encodeXattr first before (rest.flatMap encodeXattr)
      (by simp only [length_append] at bounded; omega)
    obtain ⟨zero, stored⟩ := @Stored.put ci attributes balancing ⟨first.name, whole⟩ first.val ⟨false, false⟩ 0 accounted
      represents (.inl rfl)
    obtain ⟨next, ran, loaded, length⟩ := @ih (before ++ encodeXattr first)
      (ci.setXattr balancing first.name first.val ⟨false, false⟩ 0).2 (putXattr attributes first) 0
      (fun xattr member => noNul xattr (mem_cons_of_mem _ member)) (by rwa [append_assoc])
      stored.accounted stored.represents
    have result : ci.setXattr balancing first.name first.val ⟨false, false⟩ 0 =
        (0, (ci.setXattr balancing first.name first.val ⟨false, false⟩ 0).2) := Prod.ext zero rfl
    refine ⟨next, ?_, ⟨loaded.accounted, loaded.represents, ?_⟩, ?_⟩
    · rw [length_cons, decodeXattrs, decoded]
      simp only [same]
      rw [result, if_neg (lt_irrefl (0 : Int)), ← append_assoc]
      rw [ran]
      simp
    · rw [loaded.frame, stored.only]
    · have grown := stored.length
      have size := @length_encodeXattr first
      simp only [length_append]
      lia

theorem ValidBlob.size (valid : ValidBlob blob entries) : blob.length = encodedLength entries := by
  rw [valid.encoded, length_encodeXattrs]

theorem ValidBlob.numattr (valid : ValidBlob blob entries) : leValue (blob.take 4) = entries.length := by
  have bounded := valid.length
  have atLeast := @length_le_encodedLength entries
  rw [valid.size] at bounded
  have taken : (leBytes 4 entries.length ++ entries.flatMap encodeXattr).take 4 = leBytes 4 entries.length := by simp
  rw [valid.encoded, encodeXattrs, taken, leValue_leBytes, Nat.mod_eq_of_lt]
  omega

theorem ValidBlob.empty_iff (valid : ValidBlob blob entries) : blob.length ≤ 4 ↔ entries = [] := by
  rw [valid.size]
  constructor
  · intro short
    have atLeast := @length_le_encodedLength entries
    exact List.length_eq_zero_iff.mp (by omega)
  · rintro rfl
    exact le_rfl

theorem Accounted.destroyed : Accounted ci.destroyXattrs :=
  ⟨sorted_nil, nofun, rfl, rfl, rfl⟩

theorem buildXattrs_upToDate (upToDate : ci.version ≤ ci.indexVersion) : ci.buildXattrs balancing failing = (0, ci) := by
  unfold buildXattrs
  rw [if_pos upToDate]

theorem buildXattrs_fails (older : ci.indexVersion < ci.version) (stored : ci.blob = some blob) (valid : ValidBlob blob entries)
    (fails : LoadFails failing entries) : ci.buildXattrs balancing failing = (-12, ci.destroyXattrs) := by
  have long : ¬ blob.length ≤ 4 := fun short => fails.1 (valid.empty_iff.mp short)
  have failed : (failing.any fun index => index ≤ leValue (blob.take 4)) = true := by
    rw [valid.numattr]
    exact fails.2
  unfold buildXattrs
  rw [if_neg older.not_ge, stored]
  simp only
  rw [if_neg long, if_pos failed]

/-- A load that does not fail gives the map that the blob encodes. -/
theorem buildXattrs_loads (older : ci.indexVersion < ci.version) (stored : ci.blob = some blob) (valid : ValidBlob blob entries)
    (works : ¬ LoadFails failing entries) : ∃ next, ci.buildXattrs balancing failing = (0, next) ∧
      Loaded ci next (attributesOf entries) ∧ encodedLength (inorder next.index) ≤ blob.length := by
  unfold buildXattrs
  rw [if_neg older.not_ge, stored]
  simp only
  by_cases short : blob.length ≤ 4
  · have none := valid.empty_iff.mp short
    subst none
    rw [if_pos short]
    refine ⟨_, rfl, ⟨⟨sorted_nil, nofun, rfl, rfl, rfl⟩, ?_, rfl⟩, ?_⟩
    · intro name val
      exact iff_of_false not_mem_nil nofun
    · rw [valid.size]
      rfl
  · have some : entries ≠ [] := fun none => short (valid.empty_iff.mpr none)
    have passes : ¬ (failing.any fun index => index ≤ leValue (blob.take 4)) = true := by
      rw [valid.numattr]
      exact fun fails => works ⟨some, fails⟩
    rw [if_neg short, if_neg passes, valid.numattr]
    have bounded := valid.length
    have four : (leBytes 4 entries.length).length = 4 := length_leBytes 4 _
    rw [valid.encoded, encodeXattrs] at bounded ⊢
    obtain ⟨next, ran, loaded, length⟩ := @decodeXattrs_loads balancing entries (leBytes 4 entries.length) ci.destroyXattrs
      (fun _ => none) (-5) valid.noNul (by omega) .destroyed (fun name val => iff_of_false not_mem_nil nofun)
    rw [four, if_neg some] at ran
    refine ⟨next, ran, ⟨loaded.accounted, loaded.represents, ?_⟩, ?_⟩
    · rw [loaded.frame]
      rfl
    · rw [length_append, four]
      exact length

theorem represents_attributesOf (apart : entries.Pairwise fun first second => first.name ≠ second.name) :
    Represents entries (attributesOf entries) := by
  have puts : ∀ attributes : Attributes, (∀ xattr ∈ entries, attributes xattr.name = none) → ∀ name val,
      entries.foldl putXattr attributes name = some val ↔ attributes name = some val ∨ ⟨name, val⟩ ∈ entries := by
    induction entries with
    | nil => simp
    | cons first rest ih =>
      intro attributes fresh name val
      obtain ⟨differs, apart⟩ := List.pairwise_cons.mp apart
      rw [foldl_cons, ih apart]
      · by_cases same : name = first.name
        · subst same
          have none := fresh first mem_cons_self
          have absent : ⟨first.name, val⟩ ∉ rest := fun member => differs _ member rfl
          simp only [putXattr, Function.update_self, Option.some.injEq, absent, or_false, none, false_or, mem_cons,
            reduceCtorEq, Xattr.ext_iff, true_and]
          exact eq_comm
        · have other : (⟨name, val⟩ : Xattr) ≠ first := fun equal => same (by rw [← equal])
          simp only [putXattr, Function.update_of_ne same, mem_cons, other, false_or]
      · intro xattr member
        rw [putXattr, Function.update_of_ne (differs xattr member).symm]
        exact fresh xattr (mem_cons_of_mem _ member)
  intro name val
  rw [attributesOf, puts _ fun _ _ => rfl]
  simp

theorem Represents.unique {other : Attributes} (represents : Represents entries attributes) (represents' : Represents entries other) :
    attributes = other := by
  funext name
  refine Option.ext fun val => ?_
  rw [← represents name val, ← represents' name val]

theorem Accounted.apart (accounted : Accounted ci) : (inorder ci.index).Pairwise fun first second => first.name ≠ second.name :=
  accounted.sorted.imp fun less same => less.ne (congrArg nameKey same)

theorem Accounted.validBlob (accounted : Accounted ci) (represents : Represents (inorder ci.index) attributes)
    (bounded : encodedLength (inorder ci.index) < 2 ^ 31) :
    ValidBlob (encodeXattrs (inorder ci.index)) (inorder ci.index) ∧ attributesOf (inorder ci.index) = attributes :=
  ⟨⟨rfl, accounted.noNul, by rwa [length_encodeXattrs]⟩, (represents_attributesOf accounted.apart).unique represents⟩

end

end KmodCeph.Xattr
