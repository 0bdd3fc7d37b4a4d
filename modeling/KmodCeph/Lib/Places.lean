import Mathlib.Data.List.Basic

namespace KmodCeph.Lib

open List

section

variable {α : Type} {first : α} {rest list : List α} {related : α → α → Prop}

theorem exists_place_cons {holds : List α → α → Prop} :
    (∃ before member behind, first :: rest = before ++ member :: behind ∧ holds before member) ↔
      holds [] first ∨ ∃ before member behind, rest = before ++ member :: behind ∧ holds (first :: before) member := by
  constructor
  · rintro ⟨before, member, behind, split, holds⟩
    cases before with
    | nil =>
      cases split
      exact .inl holds
    | cons head before =>
      rw [cons_append, List.cons.injEq] at split
      obtain ⟨rfl, split⟩ := split
      exact .inr ⟨before, member, behind, split, holds⟩
  · rintro (holds | ⟨before, member, behind, rfl, holds⟩)
    · exact ⟨[], first, rest, rfl, holds⟩
    · exact ⟨first :: before, member, behind, rfl, holds⟩

theorem pairwise_iff_places : list.Pairwise related ↔
    ∀ before member behind, list = before ++ member :: behind → ∀ earlier ∈ before, related earlier member := by
  constructor
  · rintro pairs before member behind rfl earlier within
    exact (List.pairwise_append.mp pairs).2.2 earlier within member mem_cons_self
  · intro places
    induction list with
    | nil => exact .nil
    | cons first rest ih =>
      refine .cons (fun member within => ?_) (ih fun before member behind split earlier within => ?_)
      · obtain ⟨before, behind, rfl⟩ := append_of_mem within
        exact places (first :: before) member behind rfl first mem_cons_self
      · exact places (first :: before) member behind (by rw [split, cons_append]) earlier (mem_cons_of_mem _ within)

end

end KmodCeph.Lib
