import Mathlib.Tactic

namespace KmodCeph.Lib

open Option

def strlen : List UInt8 → Option Nat
  | [] => none
  | byte :: rest => if byte = 0 then some 0 else (strlen rest).map (· + 1)

def strcmp : List UInt8 → List UInt8 → Option Bool
  | _, [] => none
  | [], byte :: _ => some (byte = 0)
  | letter :: name, byte :: rest => if letter = byte then strcmp name rest else some false

def skipStrings : Nat → List UInt8 → Option (List UInt8)
  | 0, block => some block
  | count + 1, block => do
    let length ← strlen block
    skipStrings count (block.drop (length + 1))

variable {block name : List UInt8} {length count : Nat}

theorem strlen_isSome : (strlen block).isSome ↔ 0 < block.count 0 := by
  induction block with
  | nil => simp [strlen]
  | cons byte rest ih =>
    by_cases ends : byte = 0
    · simp [strlen, ends]
    · simp [strlen, ends, ih]

theorem count_of_strlen_none (outside : strlen block = none) : block.count 0 = 0 := by
  have ends := @strlen_isSome block
  rw [outside] at ends
  exact Nat.eq_zero_of_not_pos (ends.not.mp (by simp))

theorem strlen_lt (found : strlen block = some length) : length < block.length := by
  induction block generalizing length with
  | nil => cases found
  | cons byte rest ih =>
    by_cases ends : byte = 0
    · simp only [strlen, ends, if_pos] at found
      cases found
      simp
    · simp only [strlen, ends, if_false, map_eq_some_iff] at found
      obtain ⟨before, inner, rfl⟩ := found
      have shorter := ih inner
      simpa using shorter

theorem count_drop_strlen (found : strlen block = some length) :
    block.count 0 = (block.drop (length + 1)).count 0 + 1 := by
  induction block generalizing length with
  | nil => cases found
  | cons byte rest ih =>
    by_cases ends : byte = 0
    · simp only [strlen, ends, if_pos] at found
      cases found
      simp [ends]
    · simp only [strlen, ends, if_false, map_eq_some_iff] at found
      obtain ⟨before, inner, rfl⟩ := found
      rw [List.count_cons_of_ne ends, ih inner, List.drop_succ_cons]

/-- Comparing stops at the end of the string in front. -/
theorem strcmp_isSome (named : 0 ∉ name) (ends : 0 < block.count 0) : (strcmp name block).isSome := by
  induction block generalizing name with
  | nil => simp at ends
  | cons byte rest ih =>
    cases name with
    | nil => rfl
    | cons letter name =>
      by_cases same : letter = byte
      · have other : byte ≠ 0 := fun zero => named (by simp [same, zero])
        rw [List.count_cons_of_ne other] at ends
        simp only [strcmp, same, if_pos]
        exact ih (fun member => named (List.mem_cons_of_mem _ member)) ends
      · simp [strcmp, same]

theorem skipStrings_isSome : (skipStrings count block).isSome ↔ count ≤ block.count 0 := by
  induction count generalizing block with
  | zero => simp [skipStrings]
  | succ count ih =>
    cases found : strlen block with
    | none =>
      have empty := count_of_strlen_none found
      simp only [skipStrings, found, bind_eq_bind, bind_none, isSome_none, Bool.false_eq_true,
        false_iff]
      omega
    | some length =>
      have fewer := count_drop_strlen found
      simp only [skipStrings, found, bind_eq_bind, bind_some, ih]
      omega

theorem count_skipStrings {rest : List UInt8} (skipped : skipStrings count block = some rest) :
    block.count 0 = rest.count 0 + count := by
  induction count generalizing block with
  | zero =>
    cases skipped
    rfl
  | succ count ih =>
    cases found : strlen block with
    | none => simp [skipStrings, found] at skipped
    | some length =>
      simp only [skipStrings, found, bind_eq_bind, bind_some] at skipped
      rw [count_drop_strlen found, ih skipped]
      omega

end KmodCeph.Lib
