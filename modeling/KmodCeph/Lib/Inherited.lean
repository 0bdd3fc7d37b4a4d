import Mathlib.Tactic

namespace KmodCeph.Lib

variable {node value : Type}

abbrev Below (parent : node → Option node) : node → node → Prop :=
  Relation.ReflTransGen fun child above => parent child = some above

/-- The value of a node, as the rule makes it from the value of the parent. -/
inductive Inherited (parent : node → Option node) (rule : node → Option value → value) : node → value → Prop where
  | root {top : node} (alone : parent top = none) : Inherited parent rule top (rule top none)
  | child {below above : node} {given : value} (hangs : parent below = some above)
      (inherits : Inherited parent rule above given) : Inherited parent rule below (rule below (some given))

/-- Going down from parent to child ends. -/
def Ranked (parent : node → Option node) : Prop :=
  ∃ (rank : node → Nat) (top : Nat), (∀ child above, parent child = some above → rank above < rank child) ∧
    ∀ child, rank child ≤ top

section

variable {parent other : node → Option node} {rule newRule : node → Option value → value}

theorem Inherited.of_root {top : node} {found : value} (inherits : Inherited parent rule top found)
    (alone : parent top = none) : found = rule top none := by
  cases inherits with
  | root => rfl
  | child hangs => rw [alone] at hangs; cases hangs

theorem Inherited.of_child {below above : node} {found : value} (inherits : Inherited parent rule below found)
    (hangs : parent below = some above) :
    ∃ given, Inherited parent rule above given ∧ found = rule below (some given) := by
  cases inherits with
  | root alone => rw [alone] at hangs; cases hangs
  | child found' inherits =>
    rw [hangs] at found'
    cases found'
    exact ⟨_, inherits, rfl⟩

theorem Inherited.unique {at' : node} {first second : value} (one : Inherited parent rule at' first)
    (two : Inherited parent rule at' second) : first = second := by
  induction one generalizing second with
  | root alone => exact (two.of_root alone).symm
  | child hangs _ ih =>
    obtain ⟨given, inherits, rfl⟩ := two.of_child hangs
    rw [ih inherits]

theorem Inherited.congr (kept : node → Prop) (closed : ∀ child above, kept child → parent child = some above → kept above)
    (sameParent : ∀ child, kept child → other child = parent child)
    (sameRule : ∀ child, kept child → newRule child = rule child) {at' : node} {found : value}
    (holds : kept at') (inherits : Inherited parent rule at' found) : Inherited other newRule at' found := by
  induction inherits with
  | root alone =>
    rw [← sameRule _ holds]
    exact .root ((sameParent _ holds).trans alone)
  | child hangs _ ih =>
    rw [← sameRule _ holds]
    exact .child ((sameParent _ holds).trans hangs) (ih (closed _ _ holds hangs))

end

end KmodCeph.Lib
