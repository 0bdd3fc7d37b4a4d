import Mathlib.Tactic

namespace KmodCeph.Lib

open List Nat

variable {κ α : Type} {size : Nat} {cell : κ → Nat → α} {pages : List κ} {contents : List α}

def Paged (size : Nat) (cell : κ → Nat → α) (pages : List κ) (contents : List α) : Prop :=
  ∀ i value, contents[i]? = some value → ∃ page, pages[i / size]? = some page ∧ cell page (i % size) = value

theorem Paged.nil : Paged size cell pages [] := by
  intro i value found
  rw [getElem?_nil] at found
  cases found

theorem Paged.more (placed : Paged size cell pages contents) (extra : List κ) :
    Paged size cell (pages ++ extra) contents := by
  intro i value found
  obtain ⟨page, here, stored⟩ := placed i value found
  refine ⟨page, ?_, stored⟩
  rw [getElem?_append_left (List.getElem?_eq_some_iff.mp here).1]
  exact here

section

variable [DecidableEq κ]

/-- The cells after `values` have been written to one page, from `offset` on. -/
def stored (cell : κ → Nat → α) (page : κ) (offset : Nat) (values : List α) : κ → Nat → α :=
  fun other i => if other = page ∧ offset ≤ i then (values[i - offset]?).getD (cell other i) else cell other i

variable {page : κ} {offset : Nat} {values : List α}

theorem stored_before {other : κ} {i : Nat} (apart : other ≠ page ∨ i < offset) :
    stored cell page offset values other i = cell other i := by
  unfold stored
  rw [if_neg]
  rintro ⟨same, behind⟩
  rcases apart with different | before
  · exact different same
  · omega

theorem stored_within {k : Nat} {value : α} (found : values[k]? = some value) :
    stored cell page offset values page (offset + k) = value := by
  unfold stored
  rw [if_pos ⟨rfl, le_add_right _ _⟩, Nat.add_sub_cancel_left, found]
  rfl

theorem Paged.append {front : List κ} (placed : Paged size cell (front ++ [page]) contents) (apart : page ∉ front)
    (behind : contents.length = size * front.length + offset) (room : offset + values.length ≤ size) :
    Paged size (stored cell page offset values) (front ++ [page]) (contents ++ values) := by
  intro i value found
  by_cases old : i < contents.length
  · rw [getElem?_append_left old] at found
    obtain ⟨other, here, held⟩ := placed i value found
    refine ⟨other, here, (stored_before ?_).trans held⟩
    by_cases before : i / size < front.length
    · rw [getElem?_append_left before] at here
      exact Or.inl fun same => apart (same ▸ mem_of_getElem? here)
    · -- the old byte is in the last page too, ahead of what is written
      have split := div_add_mod i size
      have least : size * front.length ≤ size * (i / size) := mul_le_mul_left size (by omega)
      exact Or.inr (by lia)
  · rw [getElem?_append_right (by omega)] at found
    have inside := (List.getElem?_eq_some_iff.mp found).1
    have place : i = offset + (i - contents.length) + size * front.length := by lia
    have quotient : i / size = front.length := by
      rw [place, add_mul_div_left _ _ (by lia), div_eq_of_lt (by omega), Nat.zero_add]
    have remainder : i % size = offset + (i - contents.length) := by
      rw [place, add_mul_mod_self_left, mod_eq_of_lt (by omega)]
      lia
    refine ⟨page, ?_, ?_⟩
    · rw [quotient, getElem?_append_right (Nat.le_refl _), Nat.sub_self]
      rfl
    · rw [remainder]
      exact stored_within found

end

end KmodCeph.Lib
