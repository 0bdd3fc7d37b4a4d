import Mathlib.Order.Basic
import Mathlib.Tactic

namespace KmodCeph.Lib

variable {α : Type} [LinearOrder α]

/-- The value at `high` is the first of the greatest among the first `count`. -/
structure FirstMax (values : Nat → α) (count high : Nat) : Prop where
  inside : high < count
  before : ∀ i < high, values i < values high
  within : ∀ i < count, values i ≤ values high

section

variable {values others : Nat → α} {count high other k : Nat}

theorem FirstMax.unique (one : FirstMax values count high) (two : FirstMax values count other) : high = other := by
  rcases Nat.lt_trichotomy high other with less | same | more
  · exact absurd (two.before high less) (one.within other two.inside).not_gt
  · exact same
  · exact absurd (one.before other more) (two.within high one.inside).not_gt

theorem FirstMax.first (values : Nat → α) : FirstMax values 1 0 where
  inside := Nat.one_pos
  before := nofun
  within := by
    intro i inside
    rw [Nat.lt_one_iff.mp inside]

theorem FirstMax.step (found : FirstMax values count high) :
    FirstMax values (count + 1) (if values high < values count then count else high) := by
  split
  next more =>
    refine ⟨Nat.lt_succ_self count, fun i inside => (found.within i inside).trans_lt more, fun i inside => ?_⟩
    rcases Nat.lt_succ_iff_lt_or_eq.mp inside with old | rfl
    · exact (found.within i old).trans more.le
    · exact le_rfl
  next least =>
    refine ⟨Nat.lt_succ_of_lt found.inside, found.before, fun i inside => ?_⟩
    rcases Nat.lt_succ_iff_lt_or_eq.mp inside with old | rfl
    · exact found.within i old
    · exact not_lt.mp least

theorem FirstMax.raised (found : FirstMax values count high) (same : ∀ i, i ≠ k → others i = values i)
    (more : values k ≤ others k) (later : FirstMax others count other) : other = high ∨ other = k := by
  by_contra neither
  rw [not_or] at neither
  have kept : others other = values other := same other neither.2
  have atMost : values high ≤ others high := by
    by_cases here : high = k
    · rw [here]
      exact more
    · rw [same high here]
  rcases Nat.lt_or_gt_of_ne neither.1 with less | greater
  · have below := found.before other less
    rw [← kept] at below
    exact absurd (below.trans_le atMost) (later.within high found.inside).not_gt
  · have below := later.before high greater
    rw [kept] at below
    exact absurd (atMost.trans_lt below) (found.within other later.inside).not_gt

theorem FirstMax.lowered (found : FirstMax values count high) (same : ∀ i, i ≠ k → others i = values i)
    (less : others k ≤ values k) (elsewhere : high ≠ k) : FirstMax others count high := by
  have atMost : ∀ i, others i ≤ values i := by
    intro i
    by_cases here : i = k
    · rw [here]
      exact less
    · rw [same i here]
  have kept : others high = values high := same high elsewhere
  refine ⟨found.inside, fun i inside => ?_, fun i inside => ?_⟩
  · rw [kept]
    exact (atMost i).trans_lt (found.before i inside)
  · rw [kept]
    exact (atMost i).trans (found.within i inside)

/-- Where the values behind `k` move up by one. -/
def shifted (k i : Nat) : Nat := if i < k then i else i + 1

theorem FirstMax.removed (found : FirstMax values (count + 1) high) (moved : ∀ i, others i = values (shifted k i))
    (inside : k ≤ count) (elsewhere : high ≠ k) :
    FirstMax others count (if high < k then high else high - 1) ∧ shifted k (if high < k then high else high - 1) = high := by
  have bounded := found.inside
  have back : shifted k (if high < k then high else high - 1) = high := by
    unfold shifted
    split_ifs <;> lia
  have place : others (if high < k then high else high - 1) = values high := by
    rw [moved, back]
  refine ⟨⟨by split_ifs <;> lia, fun i before => ?_, fun i within => ?_⟩, back⟩
  · rw [place, moved]
    refine found.before _ ?_
    unfold shifted
    split_ifs at before ⊢ <;> lia
  · rw [place, moved]
    refine found.within _ ?_
    unfold shifted
    split <;> lia

end

end KmodCeph.Lib
