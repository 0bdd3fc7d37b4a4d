import KmodCeph.Xattr.Runs

namespace KmodCeph.Xattr

open Lib

/-- The change and the encoding after it leave the attributes as they were, or all but the one changed. -/
def Lossless (balancing : Balancing Xattr) (change : XattrChange) (ci : XattrInode) (attributes : Attributes) : Prop :=
  ∃ outcome next after stored, change.run balancing ci = .ok (outcome, next) ∧ next.buildXattrsBlob = .ok after ∧
    Holds after stored ∧ ((outcome ≠ .done 0 ∧ stored = attributes) ∨
      ∀ other ≠ change.name.bytes, ∀ val, attributes other = some val → stored other = some val)

section

variable {ci : XattrInode} {attributes other : Attributes} {balancing : Balancing Xattr} {change : XattrChange}

theorem Holds.unique (holds : Holds ci attributes) (holds' : Holds ci other) : attributes = other := by
  obtain ⟨blob, entries, stored, valid, rfl⟩ := holds
  obtain ⟨blob', entries', stored', valid', rfl⟩ := holds'
  rw [stored] at stored'
  cases stored'
  rw [valid.unique valid']

theorem apply_of_ne {name : List UInt8} (differs : name ≠ change.name.bytes) :
    change.apply attributes name = attributes name := by
  rw [XattrChange.apply, Function.update_of_ne differs]

theorem Lossless.of_sound (consistent : Consistent ci attributes) (sound : change.spoils ci = false) :
    Lossless balancing change ci attributes := by
  obtain ⟨outcome, next, ran, changed⟩ := @Consistent.run_change _ _ balancing change consistent
  obtain ⟨after, encoded, -, holds, -⟩ := (changed.kept sound).flush
  refine ⟨outcome, next, after, _, ran, encoded, holds, ?_⟩
  by_cases done : outcome = .done 0
  · rw [if_pos done]
    exact .inr fun other differs val stored => (apply_of_ne differs).trans stored
  · rw [if_neg done]
    exact .inl ⟨done, rfl⟩

theorem Lossless.spoiled_iff (consistent : Consistent ci attributes) (spoiled : change.spoils ci = true) :
    Lossless balancing change ci attributes ↔ ∀ other ≠ change.name.bytes, attributes other = none := by
  obtain ⟨outcome, next, ran, changed⟩ := @Consistent.run_change _ _ balancing change consistent
  obtain ⟨older, flushable, result⟩ := changed.spoiled spoiled
  obtain ⟨after, encoded, holds⟩ := flushable.holds
  constructor
  · rintro ⟨outcome', next', after', stored, ran', encoded', holds', kept⟩ other differs
    rw [ran] at ran'
    cases ran'
    rw [encoded] at encoded'
    cases encoded'
    have same := holds'.unique holds
    subst same
    have gone : change.apply (fun _ => none) other = none := apply_of_ne differs
    rcases kept with ⟨-, unchanged⟩ | others
    · rw [← unchanged, gone]
    · cases had : attributes other with
      | none => rfl
      | some val => rw [others other differs val had] at gone; cases gone
  · intro alone
    refine ⟨outcome, next, after, _, ran, encoded, holds, .inr fun other differs val stored => ?_⟩
    rw [alone other differs] at stored
    cases stored

/-- A change and the encoding after it lose no other attribute, unless the load has failed, the change goes
on, and there is one. -/
theorem xattrChange_lossless (balancing : Balancing Xattr) (change : XattrChange) (consistent : Consistent ci attributes) :
    Lossless balancing change ci attributes ↔
      ¬ (change.spoils ci = true ∧ ∃ other ≠ change.name.bytes, attributes other ≠ none) := by
  cases spoils : change.spoils ci with
  | false => exact iff_of_true (.of_sound consistent spoils) fun both => Bool.false_ne_true both.1
  | true =>
    rw [Lossless.spoiled_iff consistent spoils]
    simp only [true_and, not_exists, not_and, not_not]

end

def rewritten : XattrChange := .set (userName [97] (by decide)) (some [2]) ⟨false, false⟩ false scarce

/-- `user.a` is set, for the second time, without memory to load it first, and nothing else is there to be lost. -/
theorem xattrChange_lossless_alone : rewritten.spoils oneXattr = true ∧
    Lossless (Balancing.small Xattr) rewritten oneXattr (attributesOf [⟨userPrefix ++ [97], [1]⟩]) := by
  refine ⟨rfl, (xattrChange_lossless _ _ (.inr oneXattr_older)).mpr ?_⟩
  rintro ⟨-, other, differs, stored⟩
  exact stored (Function.update_of_ne differs _ fun _ => none)

/-- `user.b` is set, and `user.a` is lost. -/
theorem xattrChange_loses :
    ¬ Lossless (Balancing.small Xattr) (.set (userName [98] (by decide)) (some [2]) ⟨false, false⟩ false scarce) oneXattr
      (attributesOf [⟨userPrefix ++ [97], [1]⟩]) := by
  rw [Lossless.spoiled_iff (.inr oneXattr_older) rfl]
  intro alone
  have gone := alone (userPrefix ++ [97]) (by decide)
  cases gone

end KmodCeph.Xattr
