import KmodCeph.Messenger.Basic

namespace KmodCeph.Messenger

open Lib

structure BioVec where
  page : List UInt8
  bvOffset : Nat
  bvLen : Nat
deriving DecidableEq

/-- `struct ceph_msg_data` by type. Pages are lists of `PAGE_SIZE` bytes. -/
inductive DataItem where
  | pages (pages : List (List UInt8)) (length alignment : Nat)
  | pagelist (pages : List (List UInt8)) (length : Nat)
  | bio (bios : List (List BioVec)) (length : Nat)

def DataItem.length : DataItem → Nat
  | .pages _ length _ => length
  | .pagelist _ length => length
  | .bio _ length => length

/-- `struct ceph_msg_data_cursor`; `item` is the index of `data` in the
message's list. -/
structure Cursor where
  totalResid : Nat
  item : Nat
  resid : Nat
  lastPiece : Bool
  needCrc : Bool
  pageOffset : Nat
  pageIndex : Nat
  pageCount : Nat
  page : Nat
  offset : Nat
  bio : Nat
  vectorIndex : Nat
  vectorOffset : Nat

def Cursor.blank : Cursor :=
  { totalResid := 0, item := 0, resid := 0, lastPiece := false, needCrc := false, pageOffset := 0
    pageIndex := 0, pageCount := 0, page := 0, offset := 0, bio := 0, vectorIndex := 0
    vectorOffset := 0 }

def bugOn (condition : Bool) : Except Halt Unit :=
  if condition then .error .bug else .ok ()

def orBug {α : Type} (value : Option α) : Except Halt α :=
  match value with
  | some value => .ok value
  | none => .error .bug

def calcPagesFor (off len : Nat) : Nat :=
  (off + len + pageSize - 1) / pageSize - off / pageSize

def pagesCursorInit (cursor : Cursor) (length dataLength alignment : Nat) : Except Halt Cursor := do
  bugOn (dataLength = 0)
  let pageCount := calcPagesFor alignment dataLength
  bugOn (pageCount > 65535)
  let pageOffset := alignment % pageSize
  let resid := min length dataLength
  .ok { cursor with resid, pageOffset, pageIndex := 0, pageCount
                    lastPiece := pageOffset + resid ≤ pageSize }

def pagelistCursorInit (cursor : Cursor) (length : Nat) (pages : List (List UInt8))
    (listLength : Nat) : Except Halt Cursor :=
  if length = 0 then .ok cursor
  else do
    bugOn pages.isEmpty
    let resid := min length listLength
    .ok { cursor with resid, page := 0, offset := 0, lastPiece := resid ≤ pageSize }

def bioCursorInit (cursor : Cursor) (length : Nat) (bios : List (List BioVec)) (bioLength : Nat) :
    Except Halt Cursor := do
  let bio ← orBug bios.head?
  let first ← orBug bio.head?
  .ok { cursor with resid := min length bioLength, bio := 0, vectorIndex := 0, vectorOffset := 0
                    lastPiece := length ≤ first.bvLen }

def itemCursorInit (data : List DataItem) (cursor : Cursor) : Except Halt Cursor := do
  let length := cursor.totalResid
  let cursor ←
    match data[cursor.item]? with
    | none => .error .bug
    | some (.pages _ dataLength alignment) => pagesCursorInit cursor length dataLength alignment
    | some (.pagelist pages listLength) => pagelistCursorInit cursor length pages listLength
    | some (.bio bios bioLength) => bioCursorInit cursor length bios bioLength
  .ok { cursor with needCrc := true }

def cephMsgDataCursorInit (data : List DataItem) (dataLength length : Nat) (cursor : Cursor) :
    Except Halt Cursor := do
  bugOn (length = 0)
  bugOn (length > dataLength)
  bugOn data.isEmpty
  itemCursorInit data { cursor with totalResid := length, item := 0 }

structure Piece where
  page : List UInt8
  pageOffset : Nat
  length : Nat

def Piece.bytes (piece : Piece) : List UInt8 :=
  (piece.page.drop piece.pageOffset).take piece.length

def pagesNext (cursor : Cursor) (pages : List (List UInt8)) : Except Halt Piece := do
  bugOn (cursor.pageIndex ≥ cursor.pageCount)
  bugOn (cursor.pageOffset ≥ pageSize)
  let page ← orBug pages[cursor.pageIndex]?
  .ok { page, pageOffset := cursor.pageOffset
        length := if cursor.lastPiece then cursor.resid else pageSize - cursor.pageOffset }

def pagelistNext (cursor : Cursor) (pages : List (List UInt8)) (listLength : Nat) :
    Except Halt Piece := do
  let page ← orBug pages[cursor.page]?
  bugOn (cursor.offset + cursor.resid ≠ listLength)
  let pageOffset := cursor.offset % pageSize
  .ok { page, pageOffset
        length := if cursor.lastPiece then cursor.resid else pageSize - pageOffset }

def bioNext (cursor : Cursor) (bios : List (List BioVec)) : Except Halt Piece := do
  let bio ← orBug bios[cursor.bio]?
  let vec ← orBug bio[cursor.vectorIndex]?
  bugOn (cursor.vectorOffset ≥ vec.bvLen)
  let pageOffset := vec.bvOffset + cursor.vectorOffset
  bugOn (pageOffset ≥ pageSize)
  let length := if cursor.lastPiece then cursor.resid else vec.bvLen - cursor.vectorOffset
  bugOn (length > cursor.resid)
  bugOn (pageOffset + length > pageSize)
  .ok { page := vec.page, pageOffset, length }

def cephMsgDataNext (data : List DataItem) (cursor : Cursor) : Except Halt Piece := do
  let piece ←
    match data[cursor.item]? with
    | none => .error .bug
    | some (.pages pages _ _) => pagesNext cursor pages
    | some (.pagelist pages listLength) => pagelistNext cursor pages listLength
    | some (.bio bios _) => bioNext cursor bios
  bugOn (piece.pageOffset + piece.length > pageSize)
  bugOn (piece.length = 0)
  .ok piece

def pagesAdvance (cursor : Cursor) (bytes : Nat) : Except Halt (Bool × Cursor) := do
  bugOn (cursor.pageOffset + bytes > pageSize)
  let cursor := { cursor with resid := cursor.resid - bytes
                              pageOffset := (cursor.pageOffset + bytes) % pageSize }
  if bytes = 0 ∨ cursor.pageOffset ≠ 0 then .ok (false, cursor)
  else if cursor.resid = 0 then .ok (false, cursor)
  else do
    bugOn (cursor.pageIndex ≥ cursor.pageCount)
    .ok (true, { cursor with pageIndex := cursor.pageIndex + 1, lastPiece := cursor.resid ≤ pageSize })

def pagelistAdvance (cursor : Cursor) (bytes : Nat) (pages : List (List UInt8)) (listLength : Nat) :
    Except Halt (Bool × Cursor) := do
  bugOn (cursor.offset + cursor.resid ≠ listLength)
  bugOn (cursor.offset % pageSize + bytes > pageSize)
  let cursor := { cursor with resid := cursor.resid - bytes, offset := cursor.offset + bytes }
  if bytes = 0 ∨ cursor.offset % pageSize ≠ 0 then .ok (false, cursor)
  else if cursor.resid = 0 then .ok (false, cursor)
  else do
    bugOn (cursor.page + 1 ≥ pages.length)
    .ok (true, { cursor with page := cursor.page + 1, lastPiece := cursor.resid ≤ pageSize })

def bioAdvance (cursor : Cursor) (bytes : Nat) (bios : List (List BioVec)) :
    Except Halt (Bool × Cursor) := do
  let bio ← orBug bios[cursor.bio]?
  let vec ← orBug bio[cursor.vectorIndex]?
  bugOn (cursor.resid < bytes)
  let cursor := { cursor with resid := cursor.resid - bytes
                              vectorOffset := cursor.vectorOffset + bytes }
  if cursor.vectorOffset < vec.bvLen then .ok (false, cursor)
  else do
    bugOn (cursor.vectorOffset ≠ vec.bvLen)
    let (next, index) :=
      if cursor.vectorIndex + 1 = bio.length then (cursor.bio + 1, 0)
      else (cursor.bio, cursor.vectorIndex + 1)
    let cursor := { cursor with bio := next, vectorIndex := index, vectorOffset := 0 }
    if cursor.lastPiece then .ok (true, cursor)
    else do
      bugOn (cursor.resid = 0)
      let bio ← orBug bios[next]?
      let vec ← orBug bio[index]?
      .ok (true, { cursor with lastPiece := decide (cursor.resid ≤ vec.bvLen) })

def cephMsgDataAdvance (data : List DataItem) (cursor : Cursor) (bytes : Nat) :
    Except Halt (Bool × Cursor) := do
  bugOn (bytes > cursor.resid)
  let (newPiece, cursor) ←
    match data[cursor.item]? with
    | none => .error .bug
    | some (.pages _ _ _) => pagesAdvance cursor bytes
    | some (.pagelist pages listLength) => pagelistAdvance cursor bytes pages listLength
    | some (.bio bios _) => bioAdvance cursor bytes bios
  let cursor := { cursor with totalResid := cursor.totalResid - bytes }
  if cursor.resid = 0 ∧ cursor.totalResid ≠ 0 then do
    bugOn (cursor.item + 1 ≥ data.length)
    let cursor ← itemCursorInit data { cursor with item := cursor.item + 1 }
    .ok (true, { cursor with needCrc := true })
  else .ok (newPiece, { cursor with needCrc := newPiece })

def Piece.store (page : List UInt8) (pageOffset : Nat) (bytes : List UInt8) : List UInt8 :=
  page.take pageOffset ++ bytes ++ page.drop (pageOffset + bytes.length)

def storePiece (data : List DataItem) (cursor : Cursor) (bytes : List UInt8) : List DataItem :=
  match data[cursor.item]? with
  | none => data
  | some (.pages pages length alignment) =>
    data.set cursor.item (.pages (pages.modify cursor.pageIndex
      fun page => Piece.store page cursor.pageOffset bytes) length alignment)
  | some (.pagelist pages length) =>
    data.set cursor.item (.pagelist (pages.modify cursor.page
      fun page => Piece.store page (cursor.offset % pageSize) bytes) length)
  | some (.bio bios length) =>
    data.set cursor.item (.bio (bios.modify cursor.bio fun bio =>
      bio.modify cursor.vectorIndex fun vec =>
        { vec with page := Piece.store vec.page (vec.bvOffset + cursor.vectorOffset) bytes }) length)

theorem ok_of_bugOn {condition : Bool} (ran : bugOn condition = .ok ()) : condition = false := by
  unfold bugOn at ran
  split at ran
  · cases ran
  · exact eq_false_of_ne_true ‹_›

/-- The parts of a cursor that count the bytes to go. -/
structure Cursor.Counts (cursor : Cursor) (item resid totalResid : Nat) : Prop where
  item : cursor.item = item
  resid : cursor.resid = resid
  totalResid : cursor.totalResid = totalResid

section

variable {cursor after : Cursor} {bytes : Nat} {fresh : Bool}

theorem pagesAdvance_counts (ran : pagesAdvance cursor bytes = .ok (fresh, after)) :
    after.Counts cursor.item (cursor.resid - bytes) cursor.totalResid := by
  obtain ⟨_, _, ran⟩ := ok_of_bind ran
  simp only at ran
  split at ran
  · cases ran
    exact ⟨rfl, rfl, rfl⟩
  · split at ran
    · cases ran
      exact ⟨rfl, rfl, rfl⟩
    · obtain ⟨_, _, ran⟩ := ok_of_bind ran
      cases ran
      exact ⟨rfl, rfl, rfl⟩

theorem pagelistAdvance_counts {pages : List (List UInt8)} {listLength : Nat}
    (ran : pagelistAdvance cursor bytes pages listLength = .ok (fresh, after)) :
    after.Counts cursor.item (cursor.resid - bytes) cursor.totalResid := by
  obtain ⟨_, _, ran⟩ := ok_of_bind ran
  obtain ⟨_, _, ran⟩ := ok_of_bind ran
  simp only at ran
  split at ran
  · cases ran
    exact ⟨rfl, rfl, rfl⟩
  · split at ran
    · cases ran
      exact ⟨rfl, rfl, rfl⟩
    · obtain ⟨_, _, ran⟩ := ok_of_bind ran
      cases ran
      exact ⟨rfl, rfl, rfl⟩

theorem bioAdvance_counts {bios : List (List BioVec)} (ran : bioAdvance cursor bytes bios = .ok (fresh, after)) :
    after.Counts cursor.item (cursor.resid - bytes) cursor.totalResid := by
  obtain ⟨bio, _, ran⟩ := ok_of_bind ran
  obtain ⟨vec, _, ran⟩ := ok_of_bind ran
  obtain ⟨_, _, ran⟩ := ok_of_bind ran
  simp only at ran
  split at ran
  · cases ran
    exact ⟨rfl, rfl, rfl⟩
  · obtain ⟨_, _, ran⟩ := ok_of_bind ran
    split at ran
    · cases ran
      exact ⟨rfl, rfl, rfl⟩
    · obtain ⟨_, _, ran⟩ := ok_of_bind ran
      obtain ⟨_, _, ran⟩ := ok_of_bind ran
      obtain ⟨_, _, ran⟩ := ok_of_bind ran
      cases ran
      exact ⟨rfl, rfl, rfl⟩

variable {data : List DataItem}

def startItem (data : List DataItem) (cursor : Cursor) : Except Halt Cursor :=
  match data[cursor.item]? with
  | none => .error .bug
  | some (.pages _ dataLength alignment) => pagesCursorInit cursor cursor.totalResid dataLength alignment
  | some (.pagelist pages listLength) => pagelistCursorInit cursor cursor.totalResid pages listLength
  | some (.bio bios bioLength) => bioCursorInit cursor cursor.totalResid bios bioLength

theorem itemCursorInit_eq (data : List DataItem) (cursor : Cursor) :
    itemCursorInit data cursor = startItem data cursor >>= fun cursor => .ok { cursor with needCrc := true } := by
  unfold itemCursorInit startItem
  cases data[cursor.item]? with
  | none => rfl
  | some item => cases item <;> rfl

def advanceItem (data : List DataItem) (cursor : Cursor) (bytes : Nat) : Except Halt (Bool × Cursor) :=
  match data[cursor.item]? with
  | none => .error .bug
  | some (.pages _ _ _) => pagesAdvance cursor bytes
  | some (.pagelist pages listLength) => pagelistAdvance cursor bytes pages listLength
  | some (.bio bios _) => bioAdvance cursor bytes bios

def nextItem (data : List DataItem) (newPiece : Bool) (cursor : Cursor) : Except Halt (Bool × Cursor) :=
  if cursor.resid = 0 ∧ cursor.totalResid ≠ 0 then do
    bugOn (cursor.item + 1 ≥ data.length)
    let cursor ← itemCursorInit data { cursor with item := cursor.item + 1 }
    .ok (true, { cursor with needCrc := true })
  else .ok (newPiece, { cursor with needCrc := newPiece })

theorem cephMsgDataAdvance_eq (data : List DataItem) (cursor : Cursor) (bytes : Nat) :
    cephMsgDataAdvance data cursor bytes = (do
      bugOn (bytes > cursor.resid)
      let moved ← advanceItem data cursor bytes
      nextItem data moved.1 { moved.2 with totalResid := moved.2.totalResid - bytes }) := by
  unfold cephMsgDataAdvance advanceItem
  cases data[cursor.item]? with
  | none => rfl
  | some item => cases item <;> rfl

theorem itemCursorInit_counts (ran : itemCursorInit data cursor = .ok after) (some_ : cursor.totalResid ≠ 0) :
    ∃ item ∈ data, after.Counts cursor.item (min cursor.totalResid item.length) cursor.totalResid := by
  rw [itemCursorInit_eq] at ran
  obtain ⟨started, begun, ran⟩ := ok_of_bind ran
  cases ran
  unfold startItem at begun
  split at begun
  · cases begun
  · rename_i pages length alignment found
    refine ⟨_, List.mem_of_getElem? found, ?_⟩
    obtain ⟨_, _, begun⟩ := ok_of_bind begun
    obtain ⟨_, _, begun⟩ := ok_of_bind begun
    cases begun
    exact ⟨rfl, rfl, rfl⟩
  · rename_i pages length found
    refine ⟨_, List.mem_of_getElem? found, ?_⟩
    unfold pagelistCursorInit at begun
    rw [if_neg some_] at begun
    obtain ⟨_, _, begun⟩ := ok_of_bind begun
    cases begun
    exact ⟨rfl, rfl, rfl⟩
  · rename_i bios length found
    refine ⟨_, List.mem_of_getElem? found, ?_⟩
    obtain ⟨_, _, begun⟩ := ok_of_bind begun
    obtain ⟨_, _, begun⟩ := ok_of_bind begun
    cases begun
    exact ⟨rfl, rfl, rfl⟩

theorem cephMsgDataCursorInit_counts {dataLength length : Nat}
    (ran : cephMsgDataCursorInit data dataLength length cursor = .ok after) :
    length ≠ 0 ∧ length ≤ dataLength ∧ ∃ item ∈ data, after.Counts 0 (min length item.length) length := by
  obtain ⟨_, nonzero, ran⟩ := ok_of_bind ran
  obtain ⟨_, fits, ran⟩ := ok_of_bind ran
  obtain ⟨_, _, ran⟩ := ok_of_bind ran
  have nonzero := ok_of_bugOn nonzero
  have fits := ok_of_bugOn fits
  simp only [decide_eq_false_iff_not] at nonzero fits
  exact ⟨nonzero, by omega, itemCursorInit_counts ran nonzero⟩

/-- The bytes that are advanced over are taken off what is left, and the
cursor moves to the next item where one is used up. -/
theorem cephMsgDataAdvance_counts (ran : cephMsgDataAdvance data cursor bytes = .ok (fresh, after)) :
    bytes ≤ cursor.resid ∧
      (after.Counts cursor.item (cursor.resid - bytes) (cursor.totalResid - bytes) ∧
          (cursor.resid = bytes → cursor.totalResid ≤ bytes) ∨
        cursor.resid = bytes ∧ bytes < cursor.totalResid ∧ ∃ item ∈ data,
          after.Counts (cursor.item + 1) (min (cursor.totalResid - bytes) item.length)
            (cursor.totalResid - bytes)) := by
  rw [cephMsgDataAdvance_eq] at ran
  obtain ⟨_, fits, ran⟩ := ok_of_bind ran
  obtain ⟨⟨piece, moved⟩, advanced, ran⟩ := ok_of_bind ran
  have fits := ok_of_bugOn fits
  simp only [decide_eq_false_iff_not, Nat.not_lt] at fits
  have counts : moved.Counts cursor.item (cursor.resid - bytes) cursor.totalResid := by
    unfold advanceItem at advanced
    split at advanced
    · cases advanced
    · exact pagesAdvance_counts advanced
    · exact pagelistAdvance_counts advanced
    · exact bioAdvance_counts advanced
  refine ⟨fits, ?_⟩
  unfold nextItem at ran
  split at ran
  · rename_i finished
    simp only [counts.resid, counts.totalResid] at finished
    obtain ⟨_, _, ran⟩ := ok_of_bind ran
    obtain ⟨started, begun, ran⟩ := ok_of_bind ran
    cases ran
    obtain ⟨item, member, next⟩ := itemCursorInit_counts begun (by simp only [counts.totalResid]; lia)
    simp only [counts.item, counts.totalResid] at next
    exact .inr ⟨by omega, by lia, item, member, next.item, next.resid, next.totalResid⟩
  · rename_i going
    simp only [counts.resid, counts.totalResid] at going
    cases ran
    refine .inl ⟨⟨counts.item, counts.resid, ?_⟩, by lia⟩
    simp only [counts.totalResid]

end

end KmodCeph.Messenger
