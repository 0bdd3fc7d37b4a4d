import KmodCeph.Rbd.Slices
import Mathlib.Data.List.GetD

namespace KmodCeph.Rbd

open Lib Messenger List

abbrev PageMemory := Nat × Nat → UInt8

def memset (page start count : Nat) (memory : PageMemory) : PageMemory :=
  fun byte => if byte.1 = page ∧ start ≤ byte.2 ∧ byte.2 < start + count then 0 else memory byte

inductive ReadBug where
  | noBytes
  | sizeFits
  | imgOffsetFits
  | beyond
  | endless

/-- The body of the loops of `zero_bio_chain`, with `pos`. -/
def zeroSegment (startOfs : Nat) (state : Nat × PageMemory) (bv : BioVec) : Nat × PageMemory :=
  let (pos, memory) := state
  if pos + bv.len > startOfs then
    let remainder := startOfs - pos
    (pos + bv.len, memset bv.page (bv.offset + remainder) (bv.len - remainder) memory)
  else (pos + bv.len, memory)

def zeroBioChain (chain : List Bio) (startOfs : Nat) (memory : PageMemory) : PageMemory :=
  (chain.foldl (fun state bio => bio.segments.foldl (zeroSegment startOfs) state) (0, memory)).2

structure ZeroState where
  offset : Nat
  page : Nat
  memory : PageMemory

def zeroPage (pages : List Nat) (stop : Nat) (state : ZeroState) : Except ReadBug (Next ZeroState PageMemory) :=
  if state.offset < stop then
    match pages[state.page]? with
    | none => .error .beyond
    | some page =>
      let pageOffset := state.offset % pageSize
      let length := min (pageSize - pageOffset) (stop - state.offset)
      .ok (.again
        { offset := state.offset + length
          page := state.page + 1
          memory := memset page pageOffset length state.memory })
  else .ok (.done state.memory)

def zeroPages (bound : Nat) (pages : List Nat) (offset stop : Nat) (memory : PageMemory) : Except ReadBug PageMemory := do
  haltIf (¬ stop > offset) .noBytes
  haltIf (¬ stop - offset ≤ 2 ^ 64 - 1) .sizeFits
  loop .endless (zeroPage pages stop) bound { offset := offset, page := offset / pageSize, memory := memory }

inductive ReadBuffer where
  | bio (bioList : List Bio)
  | pages (pages : List Nat)

structure ReadRequest where
  offset : Nat
  length : Nat
  imgOffset : Nat
  buffer : ReadBuffer
  xferred : Nat
  result : Int
  done : Bool

structure ReadImage where
  layered : Bool
  parentOverlap : Nat

inductive ReadNext where
  | finished (obj : ReadRequest) (memory : PageMemory)
  | parentRead
  | resubmitted

section

variable (bound : Nat) (image : ReadImage)

/-- The zeros of `rbd_img_obj_request_read_callback` from a byte on. -/
def ReadRequest.zeroFrom (obj : ReadRequest) (count : Nat) (memory : PageMemory) : Except ReadBug PageMemory :=
  match obj.buffer with
  | .bio bioList => .ok (zeroBioChain bioList count memory)
  | .pages pages => zeroPages bound pages count obj.length memory

def readCallback (obj : ReadRequest) (memory : PageMemory) : Except ReadBug ReadNext :=
  if obj.result = -2 then do
    let memory ← obj.zeroFrom bound 0 memory
    return .finished { obj with result := 0, xferred := obj.length, done := true } memory
  else if obj.xferred < obj.length ∧ obj.result = 0 then do
    let memory ← obj.zeroFrom bound obj.xferred memory
    return .finished { obj with xferred := obj.length, done := true } memory
  else .ok (.finished { obj with xferred := obj.length, done := true } memory)

def osdReadCallback (obj : ReadRequest) (memory : PageMemory) : Except ReadBug ReadNext :=
  if image.layered ∧ obj.result = -2 ∧ obj.imgOffset < image.parentOverlap then .ok .parentRead
  else readCallback bound obj memory

/-- `rbd_img_parent_read_callback`; `submitted` is what it gets when it submits the request again. -/
def parentReadCallback (submitted : Int) (imgXferred : Nat) (imgResult : Int) (obj : ReadRequest) (memory : PageMemory) :
    Except ReadBug ReadNext :=
  if image.parentOverlap = 0 ∧ submitted = 0 then .ok .resubmitted
  else
    let imgResult := if image.parentOverlap = 0 then submitted else imgResult
    let obj := { obj with result := imgResult }
    if obj.result ≠ 0 then readCallback bound obj memory
    else if ¬ obj.imgOffset < 2 ^ 64 - 1 - obj.length then .error .imgOffsetFits
    else
      let objEnd := obj.imgOffset + obj.length
      if objEnd > image.parentOverlap then
        let xferred := if obj.imgOffset < image.parentOverlap then image.parentOverlap - obj.imgOffset else 0
        readCallback bound { obj with xferred := min imgXferred xferred } memory
      else readCallback bound { obj with xferred := imgXferred } memory

inductive ReadOutcome where
  | received (xferred : Nat)
  | hole
  | parent (xferred : Nat)

def ReadOutcome.run (obj : ReadRequest) (memory : PageMemory) : ReadOutcome → Except ReadBug ReadNext
  | .received xferred => osdReadCallback bound image { obj with result := 0, xferred := xferred } memory
  | .hole => osdReadCallback bound image { obj with result := -2, xferred := 0 } memory
  | .parent xferred => parentReadCallback bound image 0 xferred 0 obj memory

end

def ReadOutcome.count (image : ReadImage) (obj : ReadRequest) : ReadOutcome → Nat
  | .received xferred => xferred
  | .hole => 0
  | .parent xferred =>
    if obj.imgOffset + obj.length > image.parentOverlap then min xferred (image.parentOverlap - obj.imgOffset) else xferred

def ReadOutcome.Possible (image : ReadImage) (obj : ReadRequest) : ReadOutcome → Prop
  | .received xferred => xferred ≤ obj.length
  | .hole => ¬ (image.layered ∧ obj.imgOffset < image.parentOverlap)
  | .parent xferred => xferred ≤ obj.length ∧ image.parentOverlap ≠ 0

def pageByte (pages : List Nat) (place : Nat) : Nat × Nat :=
  (pages.getD (place / pageSize) 0, place % pageSize)

def pageBytes (pages : List Nat) (start count : Nat) : List (Nat × Nat) :=
  (range' start count).map (pageByte pages)

def ReadRequest.bytes (obj : ReadRequest) : List (Nat × Nat) :=
  match obj.buffer with
  | .bio bioList => chainBytes bioList
  | .pages pages => pageBytes pages (obj.offset % pageSize) obj.length

structure ReadRequest.Valid (obj : ReadRequest) : Prop where
  nonempty : 0 < obj.length
  fits : obj.length < 2 ^ 64
  bio : ∀ bioList, obj.buffer = .bio bioList → (chainBytes bioList).length = obj.length
  pages : ∀ pages, obj.buffer = .pages pages → pages.Nodup ∧ obj.offset % pageSize + obj.length ≤ pages.length * pageSize

/-- The first bytes of the buffer are kept, the others are zero, and so is nothing else. -/
structure Filled (bytes : List (Nat × Nat)) (count : Nat) (memory after : PageMemory) : Prop where
  kept : ∀ byte ∈ bytes.take count, after byte = memory byte
  zero : ∀ byte ∈ bytes.drop count, after byte = 0
  others : ∀ byte, byte ∉ bytes → after byte = memory byte

def Completes (bound : Nat) (image : ReadImage) (obj : ReadRequest) (outcome : ReadOutcome) : Prop :=
  ∀ memory, ∃ obj' after, outcome.run bound image obj memory = .ok (.finished obj' after) ∧
    obj'.xferred = obj.length ∧ Filled obj.bytes (outcome.count image obj) memory after

section

variable {α : Type} [DecidableEq α] {cleared others : List α} {memory : α → UInt8}

def clear (cleared : List α) (memory : α → UInt8) : α → UInt8 :=
  fun place => if place ∈ cleared then 0 else memory place

theorem clear_nil : clear [] memory = memory := by
  funext place
  exact if_neg not_mem_nil

theorem clear_append : clear (cleared ++ others) memory = clear others (clear cleared memory) := by
  funext place
  unfold clear
  by_cases first : place ∈ cleared
  · simp [first]
  · simp [first]

end

theorem memset_eq {page start count : Nat} {memory : PageMemory} :
    memset page start count memory = clear ((range' start count).map fun place => (page, place)) memory := by
  funext ⟨page', place⟩
  unfold memset clear
  congr 1
  rw [eq_iff_iff, mem_map]
  constructor
  · rintro ⟨rfl, first, last⟩
    exact ⟨place, mem_range'_1.mpr ⟨first, last⟩, rfl⟩
  · rintro ⟨place', within, same⟩
    cases same
    exact ⟨rfl, mem_range'_1.mp within⟩

theorem filled_clear_iff {bytes cleared : List (Nat × Nat)} {count : Nat} :
    (∀ memory, Filled bytes count memory (clear cleared memory)) ↔
      (∀ byte ∈ bytes.take count, byte ∉ cleared) ∧ (∀ byte ∈ bytes.drop count, byte ∈ cleared) ∧
        ∀ byte, byte ∉ bytes → byte ∉ cleared := by
  have ones : ∀ byte, clear cleared (fun _ => 1) byte = if byte ∈ cleared then (0 : UInt8) else 1 := by
    intro byte
    unfold clear
    congr
  constructor
  · intro filled
    obtain ⟨kept, zero, others⟩ := filled fun _ => 1
    simp only [ones] at kept zero others
    refine ⟨fun byte member within => ?_, fun byte member => ?_, fun byte outside within => ?_⟩
    · have same := kept byte member
      rw [if_pos within] at same
      cases same
    · by_contra outside
      have same := zero byte member
      rw [if_neg outside] at same
      cases same
    · have same := others byte outside
      rw [if_pos within] at same
      cases same
  · rintro ⟨kept, zero, others⟩ memory
    exact ⟨fun byte member => if_neg (kept byte member), fun byte member => if_pos (zero byte member),
      fun byte outside => if_neg (others byte outside)⟩

section

variable {segments : List BioVec} {chain : List Bio} {startOfs pos : Nat} {memory : PageMemory}

theorem zeroSegments_eq : segments.foldl (zeroSegment startOfs) (pos, memory) =
    (pos + segmentsLen segments, clear ((segmentBytes segments).drop (startOfs - pos)) memory) := by
  induction segments generalizing pos memory with
  | nil => simp [segmentsLen, clear_nil]
  | cons bv rest ih =>
    have step : zeroSegment startOfs (pos, memory) bv = (pos + bv.len, clear (bv.bytes.drop (startOfs - pos)) memory) := by
      unfold zeroSegment
      dsimp only
      split_ifs with reached
      · rw [memset_eq, ← BioVec.bytes_drop]
        rfl
      · rw [drop_of_length_le (by rw [BioVec.length_bytes]; lia), clear_nil]
    rw [foldl_cons, step, ih, ← clear_append, segmentsLen_cons, segmentBytes_cons, drop_append, BioVec.length_bytes,
      Nat.add_assoc, Nat.sub_sub]

theorem zeroBioChain_eq : zeroBioChain chain startOfs memory = clear ((chainBytes chain).drop startOfs) memory := by
  have folded : ∀ state : Nat × PageMemory, chain.foldl (fun state bio => bio.segments.foldl (zeroSegment startOfs) state) state =
      (chain.flatMap Bio.segments).foldl (zeroSegment startOfs) state := by
    intro state
    rw [foldl_flatMap]
  have bytes : chainBytes chain = segmentBytes (chain.flatMap Bio.segments) := by
    unfold chainBytes segmentBytes Bio.bytes segmentBytes
    rw [flatMap_assoc]
  rw [zeroBioChain, folded, zeroSegments_eq, bytes]
  rfl

end

section

variable {pages : List Nat} {start count stop bound place place' : Nat} {memory : PageMemory}

theorem pageBytes_append {more : Nat} : pageBytes pages start (count + more) =
    pageBytes pages start count ++ pageBytes pages (start + count) more := by
  rw [pageBytes, pageBytes, pageBytes, ← map_append, range'_append_1]

theorem mem_pageBytes {byte : Nat × Nat} : byte ∈ pageBytes pages start count ↔
    ∃ place, start ≤ place ∧ place < start + count ∧ pageByte pages place = byte := by
  simp only [pageBytes, mem_map, mem_range'_1, and_assoc]

theorem pageByte_injective (distinct : pages.Nodup) (first : place < pages.length * pageSize) (second : place' < pages.length * pageSize)
    (same : pageByte pages place = pageByte pages place') : place = place' := by
  obtain ⟨page, offset⟩ := Prod.mk.inj same
  have inside : place / pageSize < pages.length := Nat.div_lt_of_lt_mul (by rwa [Nat.mul_comm])
  have inside' : place' / pageSize < pages.length := Nat.div_lt_of_lt_mul (by rwa [Nat.mul_comm])
  rw [getD_eq_getElem _ _ inside, getD_eq_getElem _ _ inside', distinct.getElem_inj_iff] at page
  rw [← Nat.div_add_mod place pageSize, ← Nat.div_add_mod place' pageSize, page, offset]

theorem zeroPages_eq (some' : start < stop) (fits : stop < 2 ^ 64) (enough : stop ≤ pages.length * pageSize) (bounded : stop - start < bound) :
    zeroPages bound pages start stop memory = .ok (clear (pageBytes pages start (stop - start)) memory) := by
  have small : pageSize = 4096 := rfl
  obtain ⟨result, run, rfl⟩ := @Returns.loop _ _ _ ReadBug.endless (zeroPage pages stop) bound
    { offset := start, page := start / pageSize, memory := memory }
    (fun variant state => variant = stop - state.offset ∧ start ≤ state.offset ∧ state.offset ≤ stop ∧
      (state.offset < stop → state.page = state.offset / pageSize) ∧
      state.memory = clear (pageBytes pages start (state.offset - start)) memory)
    (fun result => result = clear (pageBytes pages start (stop - start)) memory) (by
      rintro variant ⟨offset, page, memory'⟩ ⟨rfl, first, last, here, cleared⟩
      dsimp only at first last here cleared ⊢
      subst cleared
      by_cases more : offset < stop
      · have pageEq := here more
        have inside : page < pages.length := by
          rw [pageEq]
          exact Nat.div_lt_of_lt_mul (by rw [Nat.mul_comm]; omega)
        have positive : 0 < min (pageSize - offset % pageSize) (stop - offset) := by
          lia
        generalize lengthEq : min (pageSize - offset % pageSize) (stop - offset) = length at positive
        refine ⟨.again ⟨offset + length, page + 1, memset pages[page] (offset % pageSize) length
          (clear (pageBytes pages start (offset - start)) memory)⟩, ?_, stop - (offset + length), by lia, rfl,
          by dsimp only; lia, by dsimp only; lia, ?_, ?_⟩
        · unfold zeroPage
          rw [if_pos more, getElem?_eq_getElem inside]
          dsimp only
          rw [lengthEq]
        · dsimp only
          intro later
          lia
        · -- the bytes of one page
          have piece : ((range' (offset % pageSize) length).map fun place => (pages[page], place)) = pageBytes pages offset length := by
            rw [pageBytes]
            have shifted : range' offset length = (range' (offset % pageSize) length).map (offset / pageSize * pageSize + ·) := by
              rw [map_add_range', Nat.div_add_mod']
            rw [shifted, map_map]
            refine map_congr_left fun place member => ?_
            have bounds := mem_range'_1.mp member
            have quotient : (offset / pageSize * pageSize + place) / pageSize = page := by
              lia
            have remainder : (offset / pageSize * pageSize + place) % pageSize = place := by
              lia
            rw [Function.comp_apply, pageByte, quotient, remainder, getD_eq_getElem _ _ inside]
          rw [memset_eq, piece, ← clear_append, show offset + length - start = offset - start + length by lia, pageBytes_append,
            Nat.add_sub_cancel' first]
      · refine ⟨.done (clear (pageBytes pages start (offset - start)) memory), ?_, ?_⟩
        · unfold zeroPage
          exact if_neg more
        · have ended : offset = stop := by omega
          exact ended ▸ rfl)
    (stop - start) bounded
    ⟨rfl, le_rfl, some'.le, fun _ => rfl, by simp [pageBytes, clear_nil]⟩
  unfold zeroPages
  rw [haltIf, if_neg (by omega), haltIf, if_neg (by lia)]
  exact run

end

/-- What the callback clears behind the bytes that are there. -/
def ReadRequest.missing (obj : ReadRequest) (count : Nat) : List (Nat × Nat) :=
  match obj.buffer with
  | .bio bioList => (chainBytes bioList).drop count
  | .pages pages => pageBytes pages count (obj.length - count)

/-- What is missing shares no byte with what is there; a page array begins with the first byte if something is missing. -/
def ReadRequest.MissingApart (obj : ReadRequest) (count : Nat) : Prop :=
  match obj.buffer with
  | .bio bioList => ((chainBytes bioList).take count).Disjoint ((chainBytes bioList).drop count)
  | .pages _ => obj.offset % pageSize = 0 ∨ obj.length ≤ count

section

variable {bound count : Nat} {image : ReadImage} {obj : ReadRequest} {outcome : ReadOutcome}

theorem ReadRequest.Valid.zeroFrom_eq (valid : obj.Valid) (less : count < obj.length) (bounded : obj.length < bound) (memory : PageMemory) :
    obj.zeroFrom bound count memory = .ok (clear (obj.missing count) memory) := by
  unfold ReadRequest.zeroFrom ReadRequest.missing
  cases buffer : obj.buffer with
  | bio bioList => exact congrArg Except.ok zeroBioChain_eq
  | pages pages =>
    have room := (valid.pages pages buffer).2
    exact zeroPages_eq less valid.fits (by omega) (by lia)

theorem readCallback_received (valid : obj.Valid) (bounded : obj.length < bound) (fits : obj.xferred ≤ obj.length)
    (success : obj.result = 0) (memory : PageMemory) :
    readCallback bound obj memory =
      .ok (.finished { obj with xferred := obj.length, done := true } (clear (obj.missing obj.xferred) memory)) := by
  unfold readCallback
  rw [if_neg (by omega)]
  by_cases short : obj.xferred < obj.length
  · rw [if_pos ⟨short, success⟩, valid.zeroFrom_eq short bounded]
    rfl
  · have all : obj.xferred = obj.length := by omega
    have nothing : obj.missing obj.xferred = [] := by
      unfold ReadRequest.missing
      cases buffer : obj.buffer with
      | bio bioList => exact drop_of_length_le (by rw [valid.bio bioList buffer, all])
      | pages pages => rw [all, Nat.sub_self]; rfl
    rw [if_neg fun both => short both.1, nothing, clear_nil]

theorem readCallback_hole (valid : obj.Valid) (bounded : obj.length < bound) (hole : obj.result = -2) (memory : PageMemory) :
    readCallback bound obj memory =
      .ok (.finished { obj with result := 0, xferred := obj.length, done := true } (clear (obj.missing 0) memory)) := by
  unfold readCallback
  rw [if_pos hole, valid.zeroFrom_eq valid.nonempty bounded]
  rfl

/-- The missing bytes are those of the buffer. -/
theorem ReadRequest.Valid.filled_iff (valid : obj.Valid) (fits : count ≤ obj.length) :
    (∀ memory, Filled obj.bytes count memory (clear (obj.missing count) memory)) ↔ obj.MissingApart count := by
  rw [filled_clear_iff]
  unfold ReadRequest.missing ReadRequest.MissingApart ReadRequest.bytes
  cases buffer : obj.buffer with
  | bio bioList =>
    constructor
    · exact fun clears byte first second => clears.1 byte first second
    · exact fun apart => ⟨fun byte first second => apart first second, fun byte => id,
        fun byte outside within => outside (mem_of_mem_drop within)⟩
  | pages pages =>
    obtain ⟨distinct, room⟩ := valid.pages pages buffer
    have parts : pageBytes pages (obj.offset % pageSize) obj.length = pageBytes pages (obj.offset % pageSize) count ++
        pageBytes pages (obj.offset % pageSize + count) (obj.length - count) := by
      rw [← pageBytes_append, Nat.add_sub_cancel' fits]
    have size : (pageBytes pages (obj.offset % pageSize) count).length = count := by simp [pageBytes]
    dsimp only
    rw [parts, take_left' size, drop_left' size, ← parts]
    constructor
    · rintro ⟨-, zero, -⟩
      rw [or_iff_not_imp_right, not_le]
      intro short
      obtain ⟨place, -, last, same⟩ := mem_pageBytes.mp (zero _ (mem_pageBytes.mpr
        ⟨obj.offset % pageSize + obj.length - 1, by lia, by lia, rfl⟩))
      have equal := pageByte_injective distinct (by lia) (by lia) same
      lia
    · rintro (aligned | all)
      · rw [aligned, Nat.zero_add] at *
        refine ⟨fun byte first second => ?_, fun byte => id, fun byte outside within => ?_⟩
        · obtain ⟨place, -, below, rfl⟩ := mem_pageBytes.mp first
          obtain ⟨place', above, last, same⟩ := mem_pageBytes.mp second
          have equal := pageByte_injective distinct (by lia) (by lia) same
          lia
        · obtain ⟨place, above, last, rfl⟩ := mem_pageBytes.mp within
          exact outside (mem_pageBytes.mpr ⟨place, by omega, by lia, rfl⟩)
      · have nothing : ∀ start, pageBytes pages start (obj.length - count) = [] := by
          intro start
          rw [Nat.sub_eq_zero_of_le all]
          rfl
        rw [nothing, nothing]
        exact ⟨fun byte _ => not_mem_nil, nofun, fun byte _ => not_mem_nil⟩

theorem ReadOutcome.count_le (possible : outcome.Possible image obj) : outcome.count image obj ≤ obj.length := by
  cases outcome with
  | received xferred => exact possible
  | hole => exact Nat.zero_le _
  | parent xferred =>
    have fits := possible.1
    unfold ReadOutcome.count
    split_ifs <;> lia

/-- A read that ends clears what is missing, unless the parent's bytes end with the last place that there is. -/
theorem ReadOutcome.run_eq (valid : obj.Valid) (possible : outcome.Possible image obj) (bounded : obj.length < bound) :
    ((∀ xferred, outcome = .parent xferred → obj.imgOffset + obj.length < 2 ^ 64 - 1) ∧
      ∀ memory, ∃ obj', outcome.run bound image obj memory = .ok (.finished obj' (clear (obj.missing (outcome.count image obj)) memory)) ∧
        obj'.xferred = obj.length) ∨
    (∃ xferred, outcome = .parent xferred) ∧ 2 ^ 64 - 1 ≤ obj.imgOffset + obj.length ∧
      ∀ memory, outcome.run bound image obj memory = .error .imgOffsetFits := by
  cases outcome with
  | received xferred =>
    refine .inl ⟨nofun, fun memory => ⟨{ obj with result := 0, xferred := obj.length, done := true }, ?_, rfl⟩⟩
    have same : ({ obj with result := 0, xferred := xferred } : ReadRequest).Valid := ⟨valid.nonempty, valid.fits, valid.bio, valid.pages⟩
    unfold ReadOutcome.run osdReadCallback
    dsimp only
    rw [if_neg (by omega)]
    exact readCallback_received same bounded possible rfl memory
  | hole =>
    refine .inl ⟨nofun, fun memory => ⟨{ obj with result := 0, xferred := obj.length, done := true }, ?_, rfl⟩⟩
    have same : ({ obj with result := -2, xferred := 0 } : ReadRequest).Valid := ⟨valid.nonempty, valid.fits, valid.bio, valid.pages⟩
    unfold ReadOutcome.run osdReadCallback
    rw [if_neg fun usable => possible ⟨usable.1, usable.2.2⟩]
    exact readCallback_hole same bounded rfl memory
  | parent xferred =>
    obtain ⟨fits, overlap⟩ := possible
    by_cases last : obj.imgOffset < 2 ^ 64 - 1 - obj.length
    · refine .inl ⟨fun _ _ => by lia, fun memory => ⟨{ obj with result := 0, xferred := obj.length, done := true }, ?_, rfl⟩⟩
      have same : ∀ count, ({ obj with result := 0, xferred := count } : ReadRequest).Valid :=
        fun count => ⟨valid.nonempty, valid.fits, valid.bio, valid.pages⟩
      unfold ReadOutcome.run parentReadCallback ReadOutcome.count
      dsimp only
      rw [if_neg fun both => overlap both.1, if_neg overlap, if_neg (not_not.mpr rfl), if_neg (not_not.mpr last)]
      by_cases beyond : obj.imgOffset + obj.length > image.parentOverlap
      · have clipped : (if obj.imgOffset < image.parentOverlap then image.parentOverlap - obj.imgOffset else 0) =
            image.parentOverlap - obj.imgOffset := by
          split_ifs <;> lia
        rw [if_pos beyond, if_pos beyond, clipped]
        exact readCallback_received (same _) bounded (by dsimp only; lia) rfl memory
      · rw [if_neg beyond, if_neg beyond]
        exact readCallback_received (same _) bounded fits rfl memory
    · refine .inr ⟨⟨xferred, rfl⟩, by lia, fun memory => ?_⟩
      unfold ReadOutcome.run parentReadCallback
      dsimp only
      rw [if_neg fun both => overlap both.1, if_neg overlap, if_neg (not_not.mpr rfl), if_pos last]

/-- A read ends with zeros behind what it has brought, if and only if no sum wraps and what is missing is apart from
what is there. -/
theorem readCompletes_iff (valid : obj.Valid) (possible : outcome.Possible image obj) (bounded : obj.length < bound) :
    Completes bound image obj outcome ↔
      (∀ xferred, outcome = .parent xferred → obj.imgOffset + obj.length < 2 ^ 64 - 1) ∧
        obj.MissingApart (outcome.count image obj) := by
  rw [← valid.filled_iff (ReadOutcome.count_le possible)]
  rcases ReadOutcome.run_eq valid possible bounded with ⟨below, runs⟩ | ⟨⟨xferred, rfl⟩, last, fails⟩
  · rw [and_iff_right below]
    refine forall_congr' fun memory => ?_
    obtain ⟨obj', run, xferred⟩ := runs memory
    rw [run]
    constructor
    · rintro ⟨obj', after, same, -, filled⟩
      cases same
      exact filled
    · exact fun filled => ⟨obj', _, rfl, xferred, filled⟩
  · refine iff_of_false (fun completes => ?_) fun both => ?_
    · obtain ⟨obj', after, run, -⟩ := completes fun _ => 0
      rw [fails] at run
      cases run
    · exact absurd (both.1 xferred rfl) (by omega)

end

def secondHalf (buffer : ReadBuffer) : ReadRequest where
  offset := 2048
  length := 512
  imgOffset := 2048
  buffer := buffer
  xferred := 0
  result := 0
  done := false

theorem secondHalf_valid : (secondHalf (.bio [⟨1, 4, 0, false, 512, 0, [⟨7, 1024, 512⟩]⟩])).Valid :=
  ⟨by decide, by decide, fun bioList same => by cases same; simp [chainBytes, Bio.bytes, Bio.segments, secondHalf], nofun⟩

/-- The bio has 100 bytes. -/
theorem readCompletes_iff_short : Completes 513 ⟨false, 0⟩ (secondHalf (.bio [⟨1, 4, 0, false, 512, 0, [⟨7, 1024, 512⟩]⟩])) (.received 100) := by
  have possible : (ReadOutcome.received 100).Possible ⟨false, 0⟩ (secondHalf (.bio [⟨1, 4, 0, false, 512, 0, [⟨7, 1024, 512⟩]⟩])) :=
    show 100 ≤ 512 by decide
  refine (readCompletes_iff secondHalf_valid possible (by decide)).mpr ⟨nofun, ?_⟩
  have distinct : (chainBytes [⟨1, 4, 0, false, 512, 0, [⟨7, 1024, 512⟩]⟩]).Nodup := by
    have bytes : chainBytes [⟨1, 4, 0, false, 512, 0, [⟨7, 1024, 512⟩]⟩] = (range' 1024 512).map fun place => (7, place) := by
      simp [chainBytes, Bio.bytes, Bio.segments, segmentBytes, BioVec.bytes]
    rw [bytes]
    exact List.Nodup.map (fun _ _ same => (Prod.mk.inj same).2) nodup_range'
  exact disjoint_take_drop distinct le_rfl

/-- The zeros go to the first bytes of the page. -/
theorem readCallback_misplaced : ¬ Completes 513 ⟨false, 0⟩ (secondHalf (.pages [7])) .hole := by
  intro completes
  obtain ⟨obj', after, run, -, filled⟩ := completes fun _ => 1
  have cleared : ReadOutcome.run 513 ⟨false, 0⟩ (secondHalf (.pages [7])) (fun _ => 1) .hole =
      .ok (.finished { secondHalf (.pages [7]) with result := 0, xferred := 512, done := true } (memset 7 0 512 fun _ => 1)) := rfl
  rw [cleared] at run
  cases run
  have outside : (7, 0) ∉ (secondHalf (.pages [7])).bytes := by
    intro member
    obtain ⟨place, first, last, same⟩ := mem_pageBytes.mp member
    have remainder : place % 4096 = 0 := (Prod.mk.inj same).2
    have start : 2048 ≤ place := first
    have stop : place < 2560 := last
    omega
  exact absurd (filled.others (7, 0) outside) (by decide)

end KmodCeph.Rbd
