import Mathlib.Tactic

namespace KmodCeph.Lib

open List

variable {α : Type}

/-- The values at two positions exchanged. -/
def swapAt (values : List α) (first second : Nat) : List α :=
  match values[first]?, values[second]? with
  | some u, some t => (values.set second u).set first t
  | _, _ => values

/-- The first `count` positions filled, position `p` with the value `draw p`
places behind it. -/
def shuffle (draw : Nat → Nat) (values : List α) : Nat → List α
  | 0 => values
  | p + 1 => swapAt (shuffle draw values p) p (p + draw p)

theorem swapAt_eq {values : List α} {first second : Nat} (firstIn : first < values.length)
    (secondIn : second < values.length) :
    swapAt values first second = (values.set second values[first]).set first values[second] := by
  simp only [swapAt, getElem?_eq_getElem firstIn, getElem?_eq_getElem secondIn]

theorem swapAt_perm (values : List α) (first second : Nat) : (swapAt values first second).Perm values := by
  by_cases firstIn : first < values.length
  · by_cases secondIn : second < values.length
    · rw [swapAt_eq firstIn secondIn]
      exact set_set_perm secondIn firstIn
    · simp [swapAt, getElem?_eq_none (Nat.le_of_not_lt secondIn)]
  · simp [swapAt, getElem?_eq_none (Nat.le_of_not_lt firstIn)]

@[simp] theorem swapAt_same (values : List α) (first : Nat) : swapAt values first first = values := by
  by_cases firstIn : first < values.length
  · rw [swapAt_eq firstIn firstIn, set_set, set_getElem_self]
  · simp [swapAt, getElem?_eq_none (Nat.le_of_not_lt firstIn)]

theorem swapAt_frame {values : List α} {first second index : Nat} (notFirst : index ≠ first)
    (notSecond : index ≠ second) : (swapAt values first second)[index]? = values[index]? := by
  unfold swapAt
  split
  · rw [getElem?_set_ne notFirst.symm, getElem?_set_ne notSecond.symm]
  · rfl

section

variable {draw : Nat → Nat} {values : List α}

theorem shuffle_perm (count : Nat) : (shuffle draw values count).Perm values := by
  induction count with
  | zero => exact List.Perm.refl _
  | succ p ih => exact (swapAt_perm _ _ _).trans ih

@[simp] theorem shuffle_length (count : Nat) : (shuffle draw values count).length = values.length :=
  (shuffle_perm count).length_eq

theorem shuffle_frame {few many index : Nat} (filled : index < few) (later : few ≤ many) :
    (shuffle draw values many)[index]? = (shuffle draw values few)[index]? := by
  obtain ⟨more, rfl⟩ := Nat.exists_eq_add_of_le later
  clear later
  induction more with
  | zero => rfl
  | succ more ih =>
    rw [← Nat.add_assoc, shuffle, swapAt_frame (by omega) (by omega)]
    exact ih

end

end KmodCeph.Lib
