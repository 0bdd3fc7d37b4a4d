import Mathlib.Data.List.Basic
import Mathlib.Tactic

namespace KmodCeph.Lib

open List

variable {α : Type}

def Even (size : Nat) (chunks : List (List α)) : Prop :=
  ∀ chunk ∈ chunks, chunk.length = size

def splice (sequence : List α) (offset : Nat) (values : List α) : List α :=
  sequence.take offset ++ values ++ sequence.drop (offset + values.length)

section

variable {sequence values : List α} {offset : Nat}

theorem length_splice (fits : offset + values.length ≤ sequence.length) :
    (splice sequence offset values).length = sequence.length := by
  simp only [splice, length_append, List.length_take, length_drop]
  lia

theorem splice_append_left {rest : List α} (fits : offset + values.length ≤ sequence.length) :
    splice (sequence ++ rest) offset values = splice sequence offset values ++ rest := by
  simp only [splice]
  rw [take_append_of_le_length (by omega), drop_append_of_le_length fits, append_assoc]
  simp only [append_assoc]

theorem splice_append_right {first : List α} :
    splice (first ++ sequence) (first.length + offset) values = first ++ splice sequence offset values := by
  simp only [splice]
  rw [take_length_add_append, Nat.add_assoc, drop_length_add_append]
  simp only [append_assoc]

theorem splice_drop {skipped : Nat} (inside : skipped ≤ sequence.length) :
    (splice sequence (skipped + offset) values).drop skipped = splice (sequence.drop skipped) offset values := by
  have split := @splice_append_right _ (sequence.drop skipped) values offset (sequence.take skipped)
  rw [take_append_drop, List.length_take, Nat.min_eq_left inside] at split
  rw [split]
  exact drop_left' (by simp [inside])

theorem splice_take {kept : Nat} (fits : offset + values.length ≤ kept) (inside : kept ≤ sequence.length) :
    (splice sequence offset values).take kept = splice (sequence.take kept) offset values := by
  have split := @splice_append_left _ (sequence.take kept) values offset (sequence.drop kept)
    (by simpa [inside] using fits)
  rw [take_append_drop] at split
  rw [split]
  refine take_left' ?_
  rw [length_splice (by simpa [inside] using fits)]
  simp [inside]

theorem drop_splice {skipped : Nat} (fits : offset + values.length ≤ sequence.length)
    (behind : offset + values.length ≤ skipped) : (splice sequence offset values).drop skipped = sequence.drop skipped := by
  obtain ⟨further, rfl⟩ := Nat.exists_eq_add_of_le behind
  have length : (sequence.take offset ++ values).length = offset + values.length := by
    rw [length_append, List.length_take, Nat.min_eq_left (by omega)]
  rw [splice, ← length, drop_length_add_append, drop_drop]

end

section

variable {size index offset count : Nat} {chunks : List (List α)}

theorem Even.length_flatten (even : Even size chunks) : chunks.flatten.length = chunks.length * size := by
  induction chunks with
  | nil => simp
  | cons chunk rest ih =>
    rw [flatten_cons, length_append, even chunk (by simp), ih fun other member => even other (by simp [member]),
      length_cons, Nat.succ_mul, Nat.add_comm]

theorem Even.sub {some_ : List (List α)} (even : Even size chunks) (part : ∀ chunk ∈ some_, chunk ∈ chunks) :
    Even size some_ :=
  fun chunk member => even chunk (part chunk member)

theorem flatten_around (bounded : index < chunks.length) :
    chunks.flatten = (chunks.take index).flatten ++ (chunks[index] ++ (chunks.drop (index + 1)).flatten) := by
  rw [← flatten_cons, ← drop_eq_getElem_cons bounded, ← flatten_append, take_append_drop]

theorem Even.length_take (even : Even size chunks) (bounded : index ≤ chunks.length) :
    (chunks.take index).flatten.length = index * size := by
  rw [(even.sub fun chunk member => mem_of_mem_take member).length_flatten, List.length_take,
    Nat.min_eq_left bounded]

theorem Even.window (even : Even size chunks) (bounded : index < chunks.length) (fits : offset + count ≤ size) :
    (chunks.flatten.drop (index * size + offset)).take count = (chunks[index].drop offset).take count := by
  have length := even.length_take bounded.le
  have chunk := even chunks[index] (getElem_mem bounded)
  rw [flatten_around bounded, ← length, drop_length_add_append,
    drop_append_of_le_length (by lia), take_append_of_le_length (by rw [length_drop]; lia)]

theorem Even.modify {values : List α} (even : Even size chunks) (bounded : index < chunks.length)
    (fits : offset + values.length ≤ size) :
    Even size (chunks.modify index fun chunk => splice chunk offset values) ∧
    (chunks.modify index fun chunk => splice chunk offset values).flatten =
      splice chunks.flatten (index * size + offset) values := by
  have chunk := even chunks[index] (getElem_mem bounded)
  have written : chunks.modify index (fun chunk => splice chunk offset values) =
      chunks.take index ++ splice chunks[index] offset values :: chunks.drop (index + 1) := by
    rw [modify_eq_take_cons_drop bounded]
  constructor
  · intro other member
    rw [written] at member
    rcases List.mem_append.mp member with member | member
    · exact even other (mem_of_mem_take member)
    · rcases List.mem_cons.mp member with rfl | member
      · rw [length_splice (by omega), chunk]
      · exact even other (mem_of_mem_drop member)
  · have length := even.length_take bounded.le
    rw [written, flatten_append, flatten_cons, flatten_around bounded, ← length, splice_append_right,
      splice_append_left (by omega)]

end

end KmodCeph.Lib
