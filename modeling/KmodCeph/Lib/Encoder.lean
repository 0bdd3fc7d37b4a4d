import KmodCeph.Lib.Bytes
import KmodCeph.Lib.Chunks
import Mathlib.Data.List.GetD

namespace KmodCeph.Lib

open List

inductive Overrun where
  | outside
  | bug
deriving DecidableEq

/-- Encoding through a position pointer; a write outside the memory ends it. -/
structure Writing where
  bytes : List UInt8
  pos : Nat

abbrev Encode (α : Type) := StateT Writing (Except Overrun) α

structure Slot where
  offset : Nat
  width : Nat

def encode (values : List UInt8) : Encode PUnit := fun state =>
  if state.pos + values.length ≤ state.bytes.length then
    .ok (⟨⟩, { bytes := splice state.bytes state.pos values, pos := state.pos + values.length })
  else .error .outside

def reserve (width : Nat) : Encode Slot := fun state =>
  .ok ({ offset := state.pos, width }, { state with pos := state.pos + width })

def encodeEach : List (List UInt8) → Encode PUnit
  | [] => pure ⟨⟩
  | values :: rest => do
    encode values
    encodeEach rest

def store (bytes : List UInt8) (offset : Nat) (values : List UInt8) : Except Overrun (List UInt8) :=
  if offset + values.length ≤ bytes.length then .ok (splice bytes offset values) else .error .outside

def storeAll : List (Slot × List UInt8) → List UInt8 → Except Overrun (List UInt8)
  | [], bytes => .ok bytes
  | (slot, values) :: rest, bytes => do
    storeAll rest (← store bytes slot.offset values)

theorem storeAll_cons {bytes next values : List UInt8} {slot : Slot} {rest : List (Slot × List UInt8)}
    (stored : store bytes slot.offset values = .ok next) :
    storeAll ((slot, values) :: rest) bytes = storeAll rest next := by
  rw [storeAll, stored]
  rfl

theorem storeAll_fails {bytes values : List UInt8} {slot : Slot} {rest : List (Slot × List UInt8)} {overrun : Overrun}
    (failed : store bytes slot.offset values = .error overrun) :
    storeAll ((slot, values) :: rest) bytes = .error overrun := by
  rw [storeAll, failed]
  rfl

variable {α β : Type}

def zeros (count : Nat) : List UInt8 := replicate count 0

/-- Behind what has been written there are zeros. -/
def Writing.ahead (done : List UInt8) (count : Nat) : Writing where
  bytes := done ++ zeros count
  pos := done.length

/-- The program lays out this text, and returns what depends on where it starts. -/
structure Lays (program : Encode α) (result : Nat → α) (text : List UInt8) : Prop where
  fits : ∀ done count, text.length ≤ count →
    program (.ahead done count) = .ok (result done.length, .ahead (done ++ text) (count - text.length))
  advances : ∀ before value after, program before = .ok (value, after) →
    after.pos = before.pos + text.length ∧ after.bytes.length = before.bytes.length ∧ value = result before.pos

theorem Lays.pure (value : α) : Lays (Pure.pure value : Encode α) (fun _ => value) [] where
  fits done count _ := by
    rw [List.append_nil]
    rfl
  advances before _ _ ran := by
    cases ran
    exact ⟨rfl, rfl, rfl⟩

theorem splice_middle {first old last values : List α} (same : old.length = values.length) :
    splice (first ++ (old ++ last)) first.length values = first ++ (values ++ last) := by
  unfold splice
  rw [take_left, ← same, ← length_append, ← append_assoc first old last, drop_left,
    append_assoc]

theorem Lays.encode (values : List UInt8) : Lays (encode values) (fun _ => ⟨⟩) values where
  fits done count enough := by
    have room : done.length + values.length ≤ (done ++ zeros count).length := by
      rw [length_append, zeros, length_replicate]
      omega
    have split : zeros count = zeros values.length ++ zeros (count - values.length) := by
      rw [zeros, zeros, zeros, replicate_append_replicate, Nat.add_sub_cancel' enough]
    unfold Lib.encode Writing.ahead
    rw [if_pos room]
    rw [split, splice_middle (by exact length_replicate ..), length_append, append_assoc]
  advances before value after ran := by
    unfold Lib.encode at ran
    split at ran
    next room =>
      cases ran
      exact ⟨rfl, length_splice room, rfl⟩
    next => cases ran

theorem Lays.reserve (width : Nat) : Lays (reserve width) (fun pos => { offset := pos, width }) (zeros width) where
  fits done count enough := by
    have length : (zeros width).length = width := length_replicate ..
    rw [length] at enough
    have split : zeros count = zeros width ++ zeros (count - width) := by
      rw [zeros, zeros, zeros, replicate_append_replicate, Nat.add_sub_cancel' enough]
    unfold Lib.reserve Writing.ahead
    rw [length, length_append, length, append_assoc, ← split]
  advances before value after ran := by
    cases ran
    exact ⟨congrArg _ (length_replicate ..).symm, rfl, rfl⟩

theorem Lays.bind {first : Encode α} {next : α → Encode β} {result : Nat → α} {last : Nat → Nat → β}
    {text more : List UInt8} (lays : Lays first result text)
    (continues : ∀ pos, Lays (next (result pos)) (last pos) more) :
    Lays (first >>= next) (fun pos => last pos (pos + text.length)) (text ++ more) where
  fits done count enough := by
    rw [length_append] at enough
    have ran := lays.fits done count (by omega)
    have rest := (continues done.length).fits (done ++ text) (count - text.length) (by lia)
    change (first (.ahead done count)).bind _ = _
    rw [ran]
    refine rest.trans ?_
    rw [length_append, length_append, append_assoc, Nat.sub_sub]
  advances before value after ran := by
    change (first before).bind _ = _ at ran
    cases here : first before with
    | error overrun =>
      rw [here] at ran
      cases ran
    | ok pair =>
      obtain ⟨middle, state⟩ := pair
      rw [here] at ran
      obtain ⟨place, size, same⟩ := lays.advances before middle state here
      subst same
      obtain ⟨placed, sized, valued⟩ := (continues before.pos).advances state value after ran
      rw [length_append]
      exact ⟨by lia, sized.trans size, by rw [valued, place]⟩

theorem Lays.each (values : List (List UInt8)) : Lays (encodeEach values) (fun _ => ⟨⟩) values.flatten := by
  induction values with
  | nil => exact .pure _
  | cons first rest ih =>
    exact @Lays.bind _ _ _ (fun _ => encodeEach rest) _ (fun _ _ => ⟨⟩) _ _ (.encode first) fun _ => ih

theorem Lays.cast {program : Encode α} {result same : Nat → α} {text : List UInt8} (lays : Lays program result text)
    (agree : ∀ pos, result pos = same pos) : Lays program same text := by
  rw [← funext agree]
  exact lays

def pieceSlot (pieces : List (List UInt8)) (index : Nat) : Slot where
  offset := (pieces.take index).flatten.length
  width := (pieces.getD index []).length

section

variable {pieces : List (List UInt8)} {index : Nat} {values tail : List UInt8}

@[simp] theorem pieceSlot_width (within : index < pieces.length) :
    (pieceSlot pieces index).width = pieces[index].length :=
  congrArg List.length (getD_eq_getElem _ _ within)

theorem set_around (within : index < pieces.length) :
    (pieces.set index values).flatten =
      (pieces.take index).flatten ++ (values ++ (pieces.drop (index + 1)).flatten) := by
  rw [set_eq_take_append_cons_drop, if_pos within, flatten_append, flatten_cons]

theorem pieceSlot_inside (within : index < pieces.length) :
    (pieceSlot pieces index).offset + (pieceSlot pieces index).width ≤ pieces.flatten.length := by
  rw [flatten_around within, length_append, length_append, pieceSlot_width within]
  exact Nat.add_le_add_left (Nat.le_add_right _ _) _

theorem store_piece (within : index < pieces.length) (same : (pieceSlot pieces index).width = values.length) :
    store (pieces.flatten ++ tail) (pieceSlot pieces index).offset values
      = .ok ((pieces.set index values).flatten ++ tail) := by
  have inside := pieceSlot_inside within
  have fits : (pieceSlot pieces index).offset + values.length ≤ (pieces.flatten ++ tail).length := by
    rw [length_append]
    lia
  unfold store
  rw [if_pos fits, flatten_around within, set_around within]
  rw [pieceSlot_width within] at same
  rw [append_assoc, append_assoc, pieceSlot, splice_middle same]
  simp only [append_assoc]

theorem store_last (last : pieces.length = index + 1) (more : (pieceSlot pieces index).width ≤ values.length) :
    store (pieces.flatten ++ tail) (pieceSlot pieces index).offset values
      = if values.length - (pieceSlot pieces index).width ≤ tail.length then
          .ok ((pieces.take index).flatten ++ (values ++ tail.drop (values.length - (pieceSlot pieces index).width)))
        else .error .outside := by
  have within : index < pieces.length := by omega
  have whole : pieces.flatten = (pieces.take index).flatten ++ pieces[index] := by
    rw [flatten_around within, drop_of_length_le (by omega), flatten_nil, List.append_nil]
  rw [pieceSlot_width within] at more ⊢
  have size : (pieceSlot pieces index).offset = (pieces.take index).flatten.length := rfl
  unfold store
  rw [whole, length_append, length_append, size]
  refine if_congr (by lia) ?_ rfl
  unfold splice
  rw [append_assoc _ pieces[index] tail, take_left, drop_length_add_append, drop_append,
    drop_of_length_le more, nil_append, append_assoc]

end

end KmodCeph.Lib
