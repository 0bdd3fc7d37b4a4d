import Mathlib.Data.Prod.Lex
import Mathlib.Order.Bounds.Basic
import Mathlib.Tactic

namespace KmodCeph.Lib

open List

section

variable {α : Type} [LinearOrder α] {start : α} {reports others : List α}

theorem foldl_max_isGreatest (start : α) (reports : List α) :
    IsGreatest {value | value = start ∨ value ∈ reports} (reports.foldl max start) := by
  induction reports generalizing start with
  | nil => exact ⟨.inl rfl, fun value member => (member.resolve_right not_mem_nil).le⟩
  | cons report rest ih =>
    obtain ⟨attained, above⟩ := ih (max start report)
    constructor
    · rcases attained with same | later
      · rcases max_choice start report with first | second
        · exact .inl (same.trans first)
        · exact .inr (List.mem_cons.mpr (.inl (same.trans second)))
      · exact .inr (mem_cons_of_mem _ later)
    · have first : max start report ≤ rest.foldl max (max start report) := above (.inl rfl)
      rintro value (rfl | member)
      · exact (le_max_left _ _).trans first
      · rcases List.mem_cons.mp member with rfl | later
        · exact (le_max_right _ _).trans first
        · exact above (.inr later)

theorem foldl_max_congr (same : ∀ report, report ∈ reports ↔ report ∈ others) :
    reports.foldl max start = others.foldl max start := by
  have greatest := foldl_max_isGreatest start reports
  simp only [same] at greatest
  exact greatest.unique (foldl_max_isGreatest start others)

end

theorem mem_map_congr {ι υ α : Type} {field : ι → υ} {left right : List ι} {report : υ → α}
    (same : ∀ value, value ∈ left.map field ↔ value ∈ right.map field) (value : α) :
    value ∈ left.map (fun item => report (field item)) ↔ value ∈ right.map (fun item => report (field item)) := by
  have split : ∀ list : List ι, list.map (fun item => report (field item)) = (list.map field).map report :=
    fun list => (map_map).symm
  simp only [split, mem_map (f := report), same]

theorem foldl_view {σ υ α : Type} [LinearOrder α] {step : σ → υ → σ} {view : σ → α} {report : υ → α} {updates : List υ}
    (invariant : σ → Prop)
    (raises : ∀ update ∈ updates, ∀ state, invariant state →
      invariant (step state update) ∧ view (step state update) = max (view state) (report update))
    {state : σ} (start : invariant state) :
    invariant (updates.foldl step state) ∧ view (updates.foldl step state) = (updates.map report).foldl max (view state) := by
  induction updates generalizing state with
  | nil => exact ⟨start, rfl⟩
  | cons update rest ih =>
    obtain ⟨kept, raised⟩ := raises update mem_cons_self state start
    have later := ih (fun other member => raises other (mem_cons_of_mem _ member)) kept
    rw [foldl_cons, map_cons, foldl_cons, ← raised]
    exact later

section

variable {α : Type} [LinearOrder α] {seq seq' : Nat} {value value' : α}

theorem max_toLex : max (toLex (seq, value)) (toLex (seq', value')) =
    if seq < seq' then toLex (seq', value') else if seq = seq' then toLex (seq, max value value') else toLex (seq, value) := by
  have ordered : ∀ first second : α, first ≤ second → toLex (seq, first) ≤ toLex (seq, second) :=
    fun first second below => Prod.Lex.toLex_le_toLex.mpr (.inr ⟨rfl, below⟩)
  have larger : max (toLex (seq, value)) (toLex (seq, value')) = toLex (seq, max value value') := by
    rcases le_total value value' with below | above
    · rw [max_eq_right below, max_eq_right (ordered _ _ below)]
    · rw [max_eq_left above, max_eq_left (ordered _ _ above)]
  rcases lt_trichotomy seq seq' with earlier | rfl | later
  · rw [if_pos earlier]
    exact max_eq_right (Prod.Lex.toLex_le_toLex.mpr (.inl earlier))
  · rw [if_neg (lt_irrefl seq), if_pos rfl, larger]
  · rw [if_neg later.not_gt, if_neg later.ne']
    exact max_eq_left (Prod.Lex.toLex_le_toLex.mpr (.inl later))

end

end KmodCeph.Lib
