import KmodCeph.Messenger.Cursor
import KmodCeph.Lib.Chunks

namespace KmodCeph.Messenger

open Lib List Nat

namespace DataItem

def memory : DataItem → List (List UInt8)
  | .pages frames _ _ => frames
  | .pagelist frames _ => frames
  | .bio _ _ => []

def start : DataItem → Nat
  | .pages _ _ alignment => alignment % pageSize
  | .pagelist _ _ => 0
  | .bio _ _ => 0

def countable : DataItem → Prop
  | .pages _ length alignment => calcPagesFor alignment length ≤ 65535
  | .pagelist _ _ => True
  | .bio _ _ => False

def bytes (item : DataItem) : List UInt8 :=
  (item.memory.flatten.drop item.start).take item.length

/-- An item of a page array or a pagelist with the pages that its length asks
for. -/
structure Paged (item : DataItem) : Prop where
  nonempty : 0 < item.length
  even : Even pageSize item.memory
  covered : item.start + item.length ≤ item.memory.length * pageSize
  countable : item.countable

theorem Paged.length_bytes {item : DataItem} (paged : item.Paged) : item.bytes.length = item.length := by
  have covered := paged.covered
  simp only [bytes, List.length_take, length_drop, paged.even.length_flatten]
  lia

end DataItem

def dataBytes (data : List DataItem) : List UInt8 :=
  data.flatMap DataItem.bytes

def Cursor.index (cursor : Cursor) : DataItem → Nat
  | .pages _ _ _ => cursor.pageIndex
  | .pagelist _ _ => cursor.page
  | .bio _ _ => 0

def Cursor.inner (cursor : Cursor) : DataItem → Nat
  | .pages _ _ _ => cursor.pageOffset
  | .pagelist _ _ => cursor.offset % pageSize
  | .bio _ _ => 0

def Cursor.Kept (cursor : Cursor) : DataItem → Prop
  | .pages _ length alignment => cursor.pageCount = calcPagesFor alignment length
  | .pagelist _ length => cursor.offset + cursor.resid = length
  | .bio _ _ => False

/-- The cursor as a position in the bytes of the data items. -/
structure Cursor.Sits (cursor : Cursor) (item : DataItem) : Prop where
  position : cursor.index item * pageSize + cursor.inner item = item.start + (item.length - cursor.resid)
  inner : cursor.inner item < pageSize
  some_ : 0 < cursor.resid
  fits : cursor.resid ≤ item.length
  lastPiece : cursor.lastPiece = decide (cursor.inner item + cursor.resid ≤ pageSize)
  kept : cursor.Kept item

def Cursor.pieceLength (cursor : Cursor) (item : DataItem) : Nat :=
  min cursor.resid (pageSize - cursor.inner item)

theorem calcPagesFor_eq (off len : Nat) : calcPagesFor off len = (off % pageSize + len + pageSize - 1) / pageSize := by
  unfold calcPagesFor pageSize
  lia

theorem bugOn_not {condition : Bool} (fails : condition = false) : bugOn condition = .ok () := by
  rw [bugOn, fails]
  rfl

section

variable {cursor : Cursor} {item : DataItem} {data : List DataItem} {count : Nat}

theorem Cursor.Sits.index_lt (sits : cursor.Sits item) (paged : item.Paged) :
    cursor.index item < item.memory.length := by
  have position := sits.position
  have some_ := sits.some_
  have fits := sits.fits
  have covered := paged.covered
  unfold pageSize at *
  lia

theorem Cursor.Sits.pieceLength_pos (sits : cursor.Sits item) : 0 < cursor.pieceLength item := by
  have some_ := sits.some_
  have inner := sits.inner
  unfold pieceLength
  lia

theorem Cursor.Sits.length_eq (sits : cursor.Sits item) :
    (if cursor.lastPiece then cursor.resid else pageSize - cursor.inner item) = cursor.pieceLength item := by
  rw [sits.lastPiece, pieceLength]
  split
  · rename_i last
    lia
  · rename_i more
    lia

theorem itemCursorInit_sits (paged : item.Paged) (found : data[cursor.item]? = some item)
    (whole : item.length ≤ cursor.totalResid) :
    ∃ started, itemCursorInit data cursor = .ok started ∧ started.needCrc = true ∧
      started.Counts cursor.item item.length cursor.totalResid ∧ started.Sits item := by
  have nonempty := paged.nonempty
  have covered := paged.covered
  have countable := paged.countable
  rw [itemCursorInit_eq]
  unfold startItem
  rw [found]
  cases item with
  | pages pages length alignment =>
    simp only [DataItem.length] at nonempty whole
    simp only [DataItem.countable] at countable
    simp only [pagesCursorInit]
    rw [bugOn_not (by simp; omega), bugOn_not (by simp; omega)]
    refine ⟨_, rfl, rfl, ⟨rfl, ?_, rfl⟩, ?_⟩
    · simp only [DataItem.length]
      lia
    · constructor <;> simp only [Cursor.index, Cursor.inner, Cursor.Kept, DataItem.start, DataItem.length]
      · lia
      · exact mod_lt _ (by decide)
      · lia
      · omega
      · rfl
  | pagelist pages length =>
    simp only [DataItem.length] at nonempty whole
    simp only [DataItem.start, DataItem.length, DataItem.memory] at covered
    have pages_ : pages.isEmpty = false := by
      cases pages with
      | nil => simp at covered; omega
      | cons page rest => rfl
    simp only [pagelistCursorInit]
    rw [if_neg (by omega), pages_, bugOn_not rfl]
    refine ⟨_, rfl, rfl, ⟨rfl, ?_, rfl⟩, ?_⟩
    · simp only [DataItem.length]
      lia
    · constructor <;> simp only [Cursor.index, Cursor.inner, Cursor.Kept, DataItem.start, DataItem.length]
      · simp only [zero_mod, Nat.zero_mul]
        lia
      · decide
      · omega
      · omega
      · simp
      · lia
  | bio bios length => exact countable.elim

theorem cephMsgDataNext_sits (paged : item.Paged) (sits : cursor.Sits item) (found : data[cursor.item]? = some item) :
    ∃ page, item.memory[cursor.index item]? = some page ∧
      cephMsgDataNext data cursor = .ok ⟨page, cursor.inner item, cursor.pieceLength item⟩ := by
  have bounded := sits.index_lt paged
  have inner := sits.inner
  have nonempty := sits.pieceLength_pos
  have within : cursor.inner item + cursor.pieceLength item ≤ pageSize := by
    unfold Cursor.pieceLength
    lia
  have length := sits.length_eq
  have kept := sits.kept
  have position := sits.position
  have some_ := sits.some_
  have fits := sits.fits
  obtain ⟨page, there⟩ : ∃ page, item.memory[cursor.index item]? = some page :=
    ⟨_, getElem?_eq_getElem bounded⟩
  refine ⟨page, there, ?_⟩
  unfold cephMsgDataNext
  rw [found]
  cases item with
  | pages pages itemLength alignment =>
    simp only [Cursor.index, Cursor.inner, DataItem.memory, DataItem.start, DataItem.length, Cursor.Kept] at *
    have early : cursor.pageIndex < cursor.pageCount := by
      rw [kept, calcPagesFor_eq]
      unfold pageSize at *
      lia
    simp only [pagesNext]
    rw [bugOn_not (by simpa using early), bugOn_not (by simpa using inner), there, length]
    simp only [orBug, bind, Except.bind]
    rw [bugOn_not (by simpa using within), bugOn_not (by simpa using nonempty.ne')]
  | pagelist pages itemLength =>
    simp only [Cursor.index, Cursor.inner, DataItem.memory, DataItem.start, DataItem.length, Cursor.Kept] at *
    simp only [pagelistNext]
    rw [there, length]
    simp only [orBug, bind, Except.bind]
    rw [bugOn_not (by simpa using kept)]
    simp only
    rw [bugOn_not (by simpa using within), bugOn_not (by simpa using nonempty.ne')]
  | bio bios itemLength => exact kept.elim

/-- Part of the piece at the cursor is used. The cursor goes to the next page
where the piece is used up and the item is not. -/
theorem advanceItem_sits (paged : item.Paged) (sits : cursor.Sits item) (found : data[cursor.item]? = some item)
    (some_ : 0 < count) (within : count ≤ cursor.pieceLength item) :
    ∃ fresh moved, advanceItem data cursor count = .ok (fresh, moved) ∧
      moved.Counts cursor.item (cursor.resid - count) cursor.totalResid ∧
      (count < cursor.resid → moved.Sits item ∧ fresh = decide (count = cursor.pieceLength item) ∧
        (fresh = false → moved.pieceLength item = cursor.pieceLength item - count)) := by
  have kept := sits.kept
  have position := sits.position
  have fits := sits.fits
  have last := sits.lastPiece
  have covered := paged.covered
  unfold advanceItem
  rw [found]
  unfold Cursor.pieceLength at *
  cases item with
  | pages pages length alignment =>
    simp only [Cursor.index, Cursor.inner, DataItem.memory, DataItem.start, DataItem.length, Cursor.Kept] at *
    simp only [pagesAdvance]
    rw [bugOn_not (by simp; lia)]
    by_cases more : cursor.pageOffset + count < pageSize
    · simp only [bind, Except.bind]
      rw [mod_eq_of_lt more, if_pos (by lia)]
      refine ⟨false, _, rfl, ⟨rfl, rfl, rfl⟩, fun going => ⟨?_, (decide_eq_false (by lia)).symm, fun _ => ?_⟩⟩
      · constructor <;> simp only [Cursor.index, Cursor.inner, DataItem.start, DataItem.length, Cursor.Kept]
        · lia
        · omega
        · lia
        · lia
        · rw [last]
          congr 1
          lia
        · exact kept
      · simp only
        lia
    · have full : cursor.pageOffset + count = pageSize := by lia
      simp only [bind, Except.bind, full, mod_self]
      rw [if_neg (by lia)]
      by_cases finished : cursor.resid - count = 0
      · rw [if_pos finished]
        exact ⟨false, _, rfl, ⟨rfl, rfl, rfl⟩, fun going => by lia⟩
      · rw [if_neg finished, bugOn_not (by
          rw [kept, calcPagesFor_eq]
          unfold pageSize at *
          simp
          lia)]
        refine ⟨true, _, rfl, ⟨rfl, rfl, rfl⟩, fun going => ⟨?_, (decide_eq_true (by lia)).symm, fun stale => by cases stale⟩⟩
        constructor <;> simp only [Cursor.index, Cursor.inner, DataItem.start, DataItem.length, Cursor.Kept]
        · rw [succ_mul]
          lia
        · decide
        · lia
        · lia
        · simp
        · exact kept
  | pagelist pages length =>
    simp only [Cursor.index, Cursor.inner, DataItem.memory, DataItem.start, DataItem.length, Cursor.Kept] at *
    simp only [pagelistAdvance]
    rw [bugOn_not (by simpa using kept), bugOn_not (by simp; lia)]
    by_cases more : cursor.offset % pageSize + count < pageSize
    · have same : (cursor.offset + count) % pageSize = cursor.offset % pageSize + count := by
        unfold pageSize at *
        lia
      rw [if_pos (by lia)]
      refine ⟨false, _, rfl, ⟨rfl, rfl, rfl⟩, fun going => ⟨?_, (decide_eq_false (by lia)).symm, fun _ => ?_⟩⟩
      · constructor <;> simp only [Cursor.index, Cursor.inner, DataItem.start, DataItem.length, Cursor.Kept, same]
        · lia
        · omega
        · lia
        · lia
        · rw [last]
          congr 1
          lia
        · lia
      · simp only [same]
        lia
    · have crossed : cursor.offset % pageSize + count = pageSize := by lia
      have full : (cursor.offset + count) % pageSize = 0 := by
        unfold pageSize at *
        lia
      rw [if_neg (by lia)]
      by_cases finished : cursor.resid - count = 0
      · rw [if_pos finished]
        exact ⟨false, _, rfl, ⟨rfl, rfl, rfl⟩, fun going => by lia⟩
      · rw [if_neg finished, bugOn_not (by
          unfold pageSize at *
          simp
          lia)]
        refine ⟨true, _, rfl, ⟨rfl, rfl, rfl⟩, fun going => ⟨?_, (decide_eq_true (by lia)).symm, fun stale => by cases stale⟩⟩
        constructor <;> simp only [Cursor.index, Cursor.inner, DataItem.start, DataItem.length, Cursor.Kept, full]
        · rw [succ_mul]
          lia
        · decide
        · lia
        · lia
        · simp
        · lia
  | bio bios length => exact kept.elim

end

/-- The cursor has `rest` before it, of which the first `piece` bytes lie in one
page. -/
inductive Cursor.Reads (data : List DataItem) (cursor : Cursor) : List UInt8 → Nat → Prop
  | done (resid : cursor.resid = 0) : Reads data cursor [] 0
  | inside (item : DataItem) (later : List DataItem) (place : data.drop cursor.item = item :: later)
      (paged : ∀ other ∈ item :: later, other.Paged) (sits : cursor.Sits item)
      (total : cursor.totalResid = cursor.resid + (dataBytes later).length) :
      Reads data cursor (item.bytes.drop (item.length - cursor.resid) ++ dataBytes later) (cursor.pieceLength item)

section

variable {cursor : Cursor} {data : List DataItem} {rest : List UInt8} {piece count : Nat}

theorem getElem?_of_drop {α : Type} {values later : List α} {index : Nat} {value : α}
    (place : values.drop index = value :: later) : values[index]? = some value := by
  rw [← head?_drop, place]
  rfl

theorem drop_succ_of_drop {α : Type} {values later : List α} {index : Nat} {value : α}
    (place : values.drop index = value :: later) : values.drop (index + 1) = later := by
  rw [← drop_drop, place]
  rfl

theorem length_dataBytes_pos {item : DataItem} {later : List DataItem} (paged : item.Paged) :
    item.length ≤ (dataBytes (item :: later)).length := by
  rw [dataBytes, flatMap_cons, length_append, paged.length_bytes]
  omega

theorem Cursor.Reads.start {item : DataItem} {later : List DataItem} (place : data.drop cursor.item = item :: later)
    (paged : ∀ other ∈ item :: later, other.Paged)
    (total : cursor.totalResid = (dataBytes (item :: later)).length) :
    ∃ started piece, itemCursorInit data cursor = .ok started ∧ started.needCrc = true ∧
      started.item = cursor.item ∧ started.Reads data (dataBytes (item :: later)) piece := by
  have first := paged item (by simp)
  obtain ⟨started, ran, crc, counts, sits⟩ := itemCursorInit_sits first (getElem?_of_drop place)
    (by rw [total]; exact length_dataBytes_pos first)
  refine ⟨started, started.pieceLength item, ran, crc, counts.item, ?_⟩
  have reads := Cursor.Reads.inside item later (counts.item ▸ place) paged sits (by
    rw [counts.totalResid, counts.resid, total, dataBytes, flatMap_cons, length_append, first.length_bytes]
    rfl)
  rw [counts.resid, Nat.sub_self, drop_zero] at reads
  exact reads

theorem cephMsgDataCursorInit_reads (some_ : data ≠ []) (paged : ∀ item ∈ data, item.Paged) :
    ∃ started piece, cephMsgDataCursorInit data (dataBytes data).length (dataBytes data).length cursor = .ok started ∧
      started.needCrc = true ∧ started.Reads data (dataBytes data) piece := by
  cases data with
  | nil => exact absurd rfl some_
  | cons item later =>
    have nonempty := (paged item (by simp)).nonempty
    have length : item.length ≤ (dataBytes (item :: later)).length := length_dataBytes_pos (paged item (by simp))
    unfold cephMsgDataCursorInit
    rw [bugOn_not (decide_eq_false (by omega)), bugOn_not (by simp), bugOn_not (by simp)]
    obtain ⟨started, piece, ran, crc, _, reads⟩ := @Cursor.Reads.start
      { cursor with totalResid := (dataBytes (item :: later)).length, item := 0 } (item :: later) item later rfl paged rfl
    exact ⟨started, piece, ran, crc, reads⟩

theorem DataItem.drop_bytes {item : DataItem} (sits : cursor.Sits item) :
    item.bytes.drop (item.length - cursor.resid) =
      (item.memory.flatten.drop (cursor.index item * pageSize + cursor.inner item)).take cursor.resid := by
  have fits := sits.fits
  rw [sits.position, bytes, drop_take, drop_drop]
  congr 1
  lia

theorem Cursor.Reads.next (reads : cursor.Reads data rest piece) (going : cursor.resid ≠ 0) :
    0 < piece ∧ piece ≤ rest.length ∧ ∃ found, cephMsgDataNext data cursor = .ok found ∧ found.length = piece ∧
      found.bytes = rest.take piece := by
  cases reads with
  | done resid => exact absurd resid going
  | inside item later place paged sits total =>
    have first := paged item (by simp)
    have fits := sits.fits
    have piece_le : cursor.pieceLength item ≤ cursor.resid := by
      unfold Cursor.pieceLength
      omega
    have inside : cursor.inner item + cursor.pieceLength item ≤ pageSize := by
      have inner := sits.inner
      unfold Cursor.pieceLength
      lia
    have remaining : (item.bytes.drop (item.length - cursor.resid)).length = cursor.resid := by
      rw [length_drop, first.length_bytes]
      lia
    obtain ⟨page, there, found⟩ := cephMsgDataNext_sits first sits (getElem?_of_drop place)
    obtain ⟨bounded, rfl⟩ := List.getElem?_eq_some_iff.mp there
    refine ⟨sits.pieceLength_pos, ?_, _, found, rfl, ?_⟩
    · rw [length_append]
      lia
    · rw [take_append_of_le_length (by omega), DataItem.drop_bytes sits, take_take,
        Nat.min_eq_left piece_le, first.even.window bounded inside]
      rfl

theorem Cursor.Reads.advance (reads : cursor.Reads data rest piece) (some_ : 0 < count) (within : count ≤ piece) :
    ∃ fresh moved next, cephMsgDataAdvance data cursor count = .ok (fresh, moved) ∧ moved.needCrc = fresh ∧
      moved.Reads data (rest.drop count) next ∧ (moved.item = cursor.item ∨ moved.item = cursor.item + 1) ∧
      (count < piece → fresh = false ∧ next = piece - count) ∧ (count = piece → fresh = true ∨ next = 0) := by
  cases reads with
  | done resid => omega
  | inside item later place paged sits total =>
    have first := paged item (by simp)
    have fits := sits.fits
    have piece_le : cursor.pieceLength item ≤ cursor.resid := by
      unfold Cursor.pieceLength
      lia
    have remaining : (item.bytes.drop (item.length - cursor.resid)).length = cursor.resid := by
      rw [length_drop, first.length_bytes]
      lia
    have found := getElem?_of_drop place
    obtain ⟨fresh, moved, ran, counts, goes⟩ := advanceItem_sits first sits found some_ within
    rw [cephMsgDataAdvance_eq, bugOn_not (by simp; omega), ran]
    simp only [bind, Except.bind]
    unfold nextItem
    have resid := counts.resid
    have totalResid := counts.totalResid
    by_cases going : count < cursor.resid
    · obtain ⟨sits', crossed, kept⟩ := goes going
      rw [if_neg (by simp only; lia)]
      refine ⟨fresh, _, moved.pieceLength item, rfl, rfl, ?_, .inl counts.item, ?_, ?_⟩
      · rw [drop_append_of_le_length (by omega), drop_drop]
        have step : item.length - cursor.resid + count = item.length - moved.resid := by lia
        rw [step]
        refine Cursor.Reads.inside item later (by simp only [counts.item]; exact place) paged ?_ ?_
        · exact ⟨sits'.position, sits'.inner, sits'.some_, sits'.fits, sits'.lastPiece, sits'.kept⟩
        · simp only
          lia
      · intro less
        rw [crossed]
        have same : fresh = false := crossed.trans (decide_eq_false (by omega))
        exact ⟨crossed ▸ same, kept same⟩
      · intro equal
        left
        rw [crossed]
        simp [equal]
    · have all : count = cursor.resid := by lia
      have dropped : (item.bytes.drop (item.length - cursor.resid) ++ dataBytes later).drop count = dataBytes later :=
        drop_left' (by lia)
      rw [dropped]
      cases later with
      | nil =>
        simp only [dataBytes, flatMap_nil, length_nil] at total
        rw [if_neg (by simp only; lia)]
        exact ⟨fresh, _, 0, rfl, rfl, .done (by simp only; lia), .inl counts.item, by lia,
          fun _ => .inr rfl⟩
      | cons following others =>
        have nonempty := (paged following (by simp)).nonempty
        have length : following.length ≤ (dataBytes (following :: others)).length :=
          length_dataBytes_pos (paged following (by simp))
        have next := drop_succ_of_drop place
        have bounded : cursor.item + 1 < data.length := by
          by_contra outside
          rw [drop_of_length_le (by omega)] at next
          cases next
        have after : data.drop (moved.item + 1) = following :: others := by rw [counts.item, next]
        rw [if_pos (by simp only; lia), bugOn_not (by simp only [counts.item]; simp; omega)]
        obtain ⟨started, piece', ran, crc, place', reads⟩ := @Cursor.Reads.start
          { moved with totalResid := moved.totalResid - count, item := moved.item + 1 } data following others
          after (fun other member => paged other (by simp at member ⊢; tauto)) (by simp only; lia)
        simp only [ran]
        refine ⟨true, _, piece', rfl, rfl, ?_, .inr (by simp only [place', counts.item]), by lia, fun _ => .inl rfl⟩
        rw [← crc]
        exact reads

end

def DataItem.stored (cursor : Cursor) (bytes : List UInt8) : DataItem → DataItem
  | .pages frames length alignment =>
    .pages (frames.modify cursor.pageIndex fun page => splice page cursor.pageOffset bytes) length alignment
  | .pagelist frames length =>
    .pagelist (frames.modify cursor.page fun page => splice page (cursor.offset % pageSize) bytes) length
  | .bio bios length => .bio bios length

section

variable {cursor moved : Cursor} {item : DataItem} {bytes : List UInt8}

theorem DataItem.length_stored : (item.stored cursor bytes).length = item.length := by
  cases item <;> rfl

theorem DataItem.start_stored : (item.stored cursor bytes).start = item.start := by
  cases item <;> rfl

theorem Cursor.pieceLength_stored : moved.pieceLength (item.stored cursor bytes) = moved.pieceLength item := by
  cases item <;> rfl

theorem Cursor.Sits.stored (sits : moved.Sits item) : moved.Sits (item.stored cursor bytes) := by
  cases item <;> exact ⟨sits.position, sits.inner, sits.some_, sits.fits, sits.lastPiece, sits.kept⟩

theorem DataItem.memory_stored (sits : cursor.Sits item) : (item.stored cursor bytes).memory =
    item.memory.modify (cursor.index item) fun page => splice page (cursor.inner item) bytes := by
  cases item with
  | pages frames length alignment => rfl
  | pagelist frames length => rfl
  | bio bios length => exact sits.kept.elim

theorem DataItem.Paged.stored (paged : item.Paged) (sits : cursor.Sits item)
    (within : bytes.length ≤ cursor.pieceLength item) :
    (item.stored cursor bytes).Paged ∧
      (item.stored cursor bytes).bytes = splice item.bytes (item.length - cursor.resid) bytes := by
  have bounded := sits.index_lt paged
  have inside : cursor.inner item + bytes.length ≤ pageSize := by
    have inner := sits.inner
    unfold Cursor.pieceLength at within
    lia
  have short : bytes.length ≤ cursor.resid := by
    unfold Cursor.pieceLength at within
    lia
  have fits := sits.fits
  have covered := paged.covered
  obtain ⟨even, written⟩ := paged.even.modify bounded inside
  constructor
  · refine ⟨?_, ?_, ?_, ?_⟩
    · rw [length_stored]
      exact paged.nonempty
    · rw [memory_stored sits]
      exact even
    · rw [start_stored, length_stored, memory_stored sits, length_modify]
      exact covered
    · have countable := paged.countable
      cases item <;> exact countable
  · have flat := paged.even.length_flatten
    rw [DataItem.bytes, length_stored, start_stored, memory_stored sits, written, sits.position,
      splice_drop (by lia), splice_take (by lia) (by rw [length_drop]; lia)]
    rfl

theorem storePiece_eq {data : List DataItem} (sits : cursor.Sits item) (found : data[cursor.item]? = some item) :
    storePiece data cursor bytes = data.set cursor.item (item.stored cursor bytes) := by
  unfold storePiece
  rw [found]
  cases item with
  | pages frames length alignment => rfl
  | pagelist frames length => rfl
  | bio bios length => exact sits.kept.elim

theorem dataBytes_around {data later : List DataItem} {index : Nat} (place : data.drop index = item :: later) :
    dataBytes data = dataBytes (data.take index) ++ (item.bytes ++ dataBytes later) := by
  unfold dataBytes
  rw [← flatMap_cons, ← place, ← flatMap_append, take_append_drop]

/-- Bytes received into the piece at the cursor replace what was to be read
there, and nothing else. -/
theorem Cursor.Reads.store {data : List DataItem} {got rest remaining : List UInt8} {piece next : Nat}
    (reads : cursor.Reads data rest piece) (held : dataBytes data = got ++ rest)
    (within : bytes.length ≤ piece) (some_ : 0 < bytes.length)
    (after : moved.Reads data remaining next) (left : remaining = rest.drop bytes.length)
    (place : moved.item = cursor.item ∨ moved.item = cursor.item + 1) :
    dataBytes (storePiece data cursor bytes) = got ++ bytes ++ remaining ∧
      moved.Reads (storePiece data cursor bytes) remaining next := by
  cases reads with
  | done resid => omega
  | inside item later here paged sits total =>
    have found := getElem?_of_drop here
    have first := paged item (by simp)
    have fits := sits.fits
    have short : bytes.length ≤ cursor.resid := by
      unfold Cursor.pieceLength at within
      lia
    have length := first.length_bytes
    have bounded : cursor.item < data.length := (List.getElem?_eq_some_iff.mp found).1
    obtain ⟨pagedStored, bytesStored⟩ := first.stored sits within
    have behind : (data.set cursor.item (item.stored cursor bytes)).drop (cursor.item + 1) = later := by
      rw [drop_set_of_lt (by omega), drop_succ_of_drop here]
    have hereStored : (data.set cursor.item (item.stored cursor bytes)).drop cursor.item =
        item.stored cursor bytes :: later := by
      rw [drop_eq_getElem_cons (by simpa using bounded), behind, getElem_set_self]
    rw [storePiece_eq sits found]
    constructor
    · rw [dataBytes_around here] at held
      have split := take_append_drop (item.length - cursor.resid) item.bytes
      have got_ : got = dataBytes (data.take cursor.item) ++ item.bytes.take (item.length - cursor.resid) := by
        refine (append_cancel_right (held.symm.trans ?_ : _ = _ ++
          (item.bytes.drop (item.length - cursor.resid) ++ dataBytes later)))
        simp only [append_assoc]
        rw [← append_assoc (List.take _ _), split]
      rw [dataBytes_around hereStored, take_set_of_le (by omega), bytesStored, splice, left, got_,
        drop_append_of_le_length (by rw [length_drop]; lia), drop_drop]
      simp only [append_assoc]
    · cases after with
      | done resid => exact .done resid
      | inside other others there pagedAfter sitsAfter totalAfter =>
        cases place with
        | inr following =>
          rw [following, drop_succ_of_drop here] at there
          exact .inside other others (by rw [following, behind, there]) pagedAfter sitsAfter totalAfter
        | inl same =>
          rw [same, here] at there
          obtain ⟨rfl, rfl⟩ := List.cons.inj there
          have lengths := congrArg List.length left
          simp only [length_append, length_drop, length] at lengths
          have stored := @Cursor.Reads.inside (data.set cursor.item (item.stored cursor bytes)) moved
            (item.stored cursor bytes) later (by rw [same, hereStored]) (by
              intro member present
              rcases List.mem_cons.mp present with rfl | present
              · exact pagedStored
              · exact paged member (by simp [present])) sitsAfter.stored totalAfter
          rw [bytesStored, DataItem.length_stored, Cursor.pieceLength_stored,
            drop_splice (by lia) (by lia)] at stored
          exact stored

end

end KmodCeph.Messenger
