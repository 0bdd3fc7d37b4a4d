import KmodCeph.Basic
import KmodCeph.Lib.Bytes
import KmodCeph.Lib.Strings
import KmodCeph.Lib.Triple

namespace KmodCeph.Rbd

open Lib List

def enxio : Int := 6

/-- Memory from the start of the buffer on. What follows the buffer is not from the object. -/
abbrev HeaderImage := Nat → UInt8

namespace HeaderImage

def bytes (image : HeaderImage) (offset length : Nat) : List UInt8 :=
  (range' offset length).map image

def number (image : HeaderImage) (offset length : Nat) : Nat := leValue (image.bytes offset length)

def order (image : HeaderImage) : Nat := image.number 76 1

def snapCount (image : HeaderImage) : Nat := image.number 96 4

def snapNamesLen (image : HeaderImage) : Nat := image.number 104 8

def names (image : HeaderImage) : List UInt8 := image.bytes (112 + 16 * image.snapCount) image.snapNamesLen

end HeaderImage

/-- `RBD_HEADER_TEXT`, "<<< Rados Block Device Image >>>", a line feed and the zero byte. -/
def rbdHeaderText : List UInt8 :=
  [60, 60, 60, 32, 82, 97, 100, 111, 115, 32, 66, 108, 111, 99, 107, 32, 68, 101, 118, 105, 99, 101, 32,
    73, 109, 97, 103, 101, 32, 62, 62, 62, 10, 0]

def rbdDevOndiskValid (ondisk : HeaderImage) : Bool :=
  let size := 2 ^ 64 - 1 - 24
  if ondisk.bytes 0 34 ≠ rbdHeaderText then false
  else if ondisk.order < 9 then false
  else if ondisk.order > 31 then false
  else if ondisk.snapCount > size / 8 then false
  else if size - ondisk.snapCount * 8 < ondisk.snapNamesLen then false
  else true

structure RbdImageHeader where
  objectPrefix : List UInt8
  objOrder : Nat
  cryptType : Nat
  compType : Nat
  stripeUnit : Nat
  stripeCount : Nat
  features : Nat
  imageSize : Nat
  seq : Nat
  snaps : List Nat
  snapNames : List UInt8
  snapSizes : List Nat

/-- Which allocations of `rbd_header_from_disk` find memory. -/
structure HeaderMemory where
  objectPrefix : Bool
  snapc : Bool
  snapNames : Bool
  snapSizes : Bool

abbrev FromDisk (α : Type) := EStateM Int (List Nat) α

def readDisk (ondisk : HeaderImage) (offset length : Nat) : FromDisk (List UInt8) := do
  modify (range' offset length ++ ·)
  pure (ondisk.bytes offset length)

def readNumber (ondisk : HeaderImage) (offset length : Nat) : FromDisk Nat := do
  let bytes ← readDisk ondisk offset length
  pure (leValue bytes)

-- Irreducible, as a bound on a number of eight bytes is not to be evaluated where a proof takes a step.
@[irreducible] def failIf (condition : Prop) [Decidable condition] (err : Int) : FromDisk Unit :=
  if condition then throw err else pure ()

def kmalloc (kmallocMax : Nat) (memory : Bool) (size : Nat) : FromDisk Unit :=
  failIf (¬ (memory ∧ size ≤ kmallocMax)) (-enomem)

/-- The object prefix, which need not end with a zero byte, the first time. -/
def copyObjectPrefix (kmallocMax : Nat) (memory firstTime : Bool) (ondisk : HeaderImage) : FromDisk (List UInt8) :=
  if firstTime then do
    let len := (strlen (ondisk.bytes 40 24)).getD 24
    let _ ← readDisk ondisk 40 (min (len + 1) 24)
    kmalloc kmallocMax memory (len + 1)
    readDisk ondisk 40 len
  else pure []

def readSnaps (ondisk : HeaderImage) : Nat → Nat → FromDisk (List (Nat × Nat))
  | _, 0 => pure []
  | i, count + 1 => do
    let id ← readNumber ondisk (112 + 16 * i) 8
    let imageSize ← readNumber ondisk (112 + 16 * i + 8) 8
    let rest ← readSnaps ondisk (i + 1) count
    pure ((id, imageSize) :: rest)

/-- The names of the snapshots and the snapshots, where there are some. -/
def copySnaps (kmallocMax : Nat) (memory : HeaderMemory) (ondisk : HeaderImage) (snapCount : Nat) :
    FromDisk (List UInt8 × List (Nat × Nat)) :=
  if snapCount ≠ 0 then do
    let snapNamesLen ← readNumber ondisk 104 8
    failIf (snapNamesLen > 2 ^ 64 - 1) (-eio)
    kmalloc kmallocMax memory.snapNames snapNamesLen
    kmalloc kmallocMax memory.snapSizes (snapCount * 8)
    let snapNames ← readDisk ondisk (112 + 16 * snapCount) snapNamesLen
    let snaps ← readSnaps ondisk 0 snapCount
    pure (snapNames, snaps)
  else pure ([], [])

/-- The header with the fields that are only filled the first time. -/
def firstHeader (objectPrefix : List UInt8) (ondisk : HeaderImage) : Option RbdImageHeader → FromDisk RbdImageHeader
  | some header => pure header
  | none => do
    let objOrder ← readNumber ondisk 76 1
    let cryptType ← readNumber ondisk 77 1
    let compType ← readNumber ondisk 78 1
    pure
      { objectPrefix, objOrder, cryptType, compType
        stripeUnit := 0
        stripeCount := 0
        features := 0
        imageSize := 0
        seq := 0
        snaps := []
        snapNames := []
        snapSizes := [] }

def rbdHeaderFromDisk (kmallocMax : Nat) (memory : HeaderMemory) (before : Option RbdImageHeader) (ondisk : HeaderImage) :
    FromDisk RbdImageHeader := do
  let objectPrefix ← copyObjectPrefix kmallocMax memory.objectPrefix before.isNone ondisk
  let snapCount ← readNumber ondisk 96 4
  kmalloc kmallocMax memory.snapc (24 + snapCount * 8)
  let seq ← readNumber ondisk 88 8
  let (snapNames, snaps) ← copySnaps kmallocMax memory ondisk snapCount
  let header ← firstHeader objectPrefix ondisk before
  let imageSize ← readNumber ondisk 80 8
  pure
    { header with
      imageSize, seq, snapNames
      snaps := snaps.map Prod.fst
      snapSizes := snaps.map Prod.snd }

/-- What a pass of the loop of `rbd_dev_v1_header_info` meets: memory for the buffer,
the result of `rbd_obj_read_sync` and what is in memory then. -/
structure HeaderRead where
  memory : Bool
  ret : Int
  ondisk : HeaderImage

/-- The size of the buffer, in the 64 bits of a `size_t`. -/
def headerSize (snapCount namesSize : Nat) : Nat := (112 + snapCount * 16 + namesSize) % 2 ^ 64

/-- The loop of `rbd_dev_v1_header_info` and what follows it: the size of the last buffer and the result.
There is no result while the number of snapshots still changes. -/
def readHeader (kmallocMax : Nat) (memory : HeaderMemory) (before : Option RbdImageHeader) :
    List HeaderRead → Nat → Nat → Option (Nat × EStateM.Result Int (List Nat) RbdImageHeader)
  | [], _, _ => none
  | read :: reads, snapCount, namesSize =>
    let size := headerSize snapCount namesSize
    if ¬ (read.memory ∧ size ≤ kmallocMax) then some (size, .error (-enomem) [])
    else if read.ret < 0 then some (size, .error read.ret [])
    else if read.ret < size then some (size, .error (-enxio) [])
    else if ¬ rbdDevOndiskValid read.ondisk then some (size, .error (-enxio) [])
    else if read.ondisk.snapCount ≠ snapCount then
      readHeader kmallocMax memory before reads read.ondisk.snapCount read.ondisk.snapNamesLen
    else some (size, rbdHeaderFromDisk kmallocMax memory before read.ondisk [])

def rbdDevV1HeaderInfo (kmallocMax : Nat) (memory : HeaderMemory) (before : Option RbdImageHeader)
    (reads : List HeaderRead) : Option (Nat × EStateM.Result Int (List Nat) RbdImageHeader) :=
  readHeader kmallocMax memory before reads 0 0

/-- `_rbd_dev_v1_snap_name`. The name is null where there is no memory for its copy. -/
def rbdDevV1SnapName (memory : Bool) (header : RbdImageHeader) (which : Nat) : Option (Option (List UInt8)) := do
  let block ← skipStrings which header.snapNames
  let length ← strlen block
  pure (if memory then some (block.take length) else none)

def searchSnapNames (name : List UInt8) : List Nat → List UInt8 → Option Nat
  | [], _ => some (2 ^ 64 - 2)
  | snap :: snaps, snapNames => do
    let same ← strcmp name snapNames
    if same then pure snap
    else
      let length ← strlen snapNames
      searchSnapNames name snaps (snapNames.drop (length + 1))

def rbdV1SnapIdByName (header : RbdImageHeader) (name : List UInt8) : Option Nat :=
  searchSnapNames name header.snaps header.snapNames

def RbdImageHeader.LookupsInside (header : RbdImageHeader) : Prop :=
  (∀ memory, ∀ which < header.snaps.length, (rbdDevV1SnapName memory header which).isSome) ∧
    ∀ name, 0 ∉ name → (rbdV1SnapIdByName header name).isSome

/-- Whatever memory there is and whatever the header was, the code reads inside the buffer and inside the names. -/
def HeaderReadsInside (kmallocMax : Nat) (reads : List HeaderRead) : Prop :=
  ∀ memory before size result, rbdDevV1HeaderInfo kmallocMax memory before reads = some (size, result) →
    (∀ place ∈ finalState result, place < size) ∧ ∀ header, valueOf result = some header → header.LookupsInside

def announced (snapCount namesSize : Nat) : List HeaderRead → Nat × Nat
  | [] => (snapCount, namesSize)
  | read :: reads => announced read.ondisk.snapCount read.ondisk.snapNamesLen reads

def announcedSize (snapCount namesSize : Nat) (reads : List HeaderRead) : Nat :=
  headerSize (announced snapCount namesSize reads).1 (announced snapCount namesSize reads).2

def HeaderRead.Complete (kmallocMax size : Nat) (read : HeaderRead) : Prop :=
  (read.memory ∧ size ≤ kmallocMax) ∧ size ≤ read.ret ∧ rbdDevOndiskValid read.ondisk

instance {kmallocMax size : Nat} {read : HeaderRead} : Decidable (read.Complete kmallocMax size) :=
  inferInstanceAs (Decidable (_ ∧ _))

def Rereads (kmallocMax : Nat) : Nat → Nat → List HeaderRead → Prop
  | _, _, [] => True
  | snapCount, namesSize, read :: reads =>
    read.Complete kmallocMax (headerSize snapCount namesSize) ∧ read.ondisk.snapCount ≠ snapCount ∧
      Rereads kmallocMax read.ondisk.snapCount read.ondisk.snapNamesLen reads

def FitsBuffer (kmallocMax size : Nat) (ondisk : HeaderImage) : Prop :=
  100 ≤ size ∧ (ondisk.snapCount ≠ 0 → 24 + ondisk.snapCount * 8 ≤ kmallocMax →
    112 ≤ size ∧ (ondisk.snapNamesLen ≤ kmallocMax →
      112 + 16 * ondisk.snapCount + ondisk.snapNamesLen ≤ size ∧ ondisk.snapCount ≤ ondisk.names.count 0))

structure LastRead (kmallocMax snapCount namesSize : Nat) (reads earlier : List HeaderRead) (last : HeaderRead) : Prop where
  reads_eq : ∃ rest, reads = earlier ++ last :: rest
  repeated : Rereads kmallocMax snapCount namesSize earlier
  complete : last.Complete kmallocMax (announcedSize snapCount namesSize earlier)
  same : last.ondisk.snapCount = (announced snapCount namesSize earlier).1

section

variable {kmallocMax snapCount namesSize size : Nat} {memory : HeaderMemory} {before : Option RbdImageHeader}
variable {read : HeaderRead} {reads earlier rest : List HeaderRead} {ondisk : HeaderImage}

theorem readHeader_again (complete : read.Complete kmallocMax (headerSize snapCount namesSize))
    (changed : read.ondisk.snapCount ≠ snapCount) :
    readHeader kmallocMax memory before (read :: reads) snapCount namesSize =
      readHeader kmallocMax memory before reads read.ondisk.snapCount read.ondisk.snapNamesLen := by
  obtain ⟨room, full, valid⟩ := complete
  have good : ¬ read.ret < 0 := by omega
  have whole : ¬ read.ret < headerSize snapCount namesSize := by omega
  simp only [readHeader, room, good, whole, valid, changed, and_self, not_true_eq_false, if_false, ne_eq, not_false_eq_true,
    if_true]

theorem readHeader_last (complete : read.Complete kmallocMax (headerSize snapCount namesSize))
    (same : read.ondisk.snapCount = snapCount) :
    readHeader kmallocMax memory before (read :: reads) snapCount namesSize =
      some (headerSize snapCount namesSize, rbdHeaderFromDisk kmallocMax memory before read.ondisk []) := by
  obtain ⟨room, full, valid⟩ := complete
  have good : ¬ read.ret < 0 := by omega
  have whole : ¬ read.ret < headerSize snapCount namesSize := by omega
  simp only [readHeader, room, good, whole, valid, same, and_self, not_true_eq_false, if_false, ne_eq]

theorem readHeader_of_lastRead {last : HeaderRead} (found : LastRead kmallocMax snapCount namesSize reads earlier last) :
    readHeader kmallocMax memory before reads snapCount namesSize =
      some (announcedSize snapCount namesSize earlier, rbdHeaderFromDisk kmallocMax memory before last.ondisk []) := by
  obtain ⟨⟨rest, rfl⟩, repeated, complete, same⟩ := found
  induction earlier generalizing snapCount namesSize with
  | nil => exact readHeader_last complete same
  | cons read earlier ih =>
    obtain ⟨first, changed, repeated⟩ := repeated
    rw [cons_append, readHeader_again first changed]
    exact ih repeated complete same

/-- The loop fails before it reads the header, or ends behind a last read. -/
theorem readHeader_cases {result : EStateM.Result Int (List Nat) RbdImageHeader}
    (ended : readHeader kmallocMax memory before reads snapCount namesSize = some (size, result)) :
    (∃ err, result = .error err []) ∨
      ∃ earlier last, LastRead kmallocMax snapCount namesSize reads earlier last ∧
        size = announcedSize snapCount namesSize earlier ∧
        result = rbdHeaderFromDisk kmallocMax memory before last.ondisk [] := by
  induction reads generalizing snapCount namesSize with
  | nil => cases ended
  | cons read reads ih =>
    by_cases complete : read.Complete kmallocMax (headerSize snapCount namesSize)
    · by_cases same : read.ondisk.snapCount = snapCount
      · rw [readHeader_last complete same] at ended
        obtain ⟨rfl, rfl⟩ := Prod.mk.inj (Option.some.inj ended)
        exact .inr ⟨[], read, ⟨⟨reads, rfl⟩, trivial, complete, same⟩, rfl, rfl⟩
      · rw [readHeader_again complete same] at ended
        rcases ih ended with failed | ⟨earlier, last, ⟨⟨rest, rfl⟩, repeated, whole, kept⟩, sized, ran⟩
        · exact .inl failed
        · exact .inr ⟨read :: earlier, last, ⟨⟨rest, rfl⟩, ⟨complete, same, repeated⟩, whole, kept⟩, sized, ran⟩
    · left
      simp only [readHeader] at ended
      split_ifs at ended with room failed short valid changed
      · exact ⟨_, (Prod.mk.inj (Option.some.inj ended)).2.symm⟩
      · exact ⟨_, (Prod.mk.inj (Option.some.inj ended)).2.symm⟩
      · exact absurd ⟨room, by omega, valid⟩ complete
      · exact absurd ⟨room, by omega, valid⟩ complete
      · exact ⟨_, (Prod.mk.inj (Option.some.inj ended)).2.symm⟩
      · exact ⟨_, (Prod.mk.inj (Option.some.inj ended)).2.symm⟩

end

section

variable {kmallocMax size offset length : Nat} {ondisk : HeaderImage} {log : List Nat}

def Inside (size : Nat) (places : List Nat) : Prop := ∀ place ∈ places, place < size

abbrev ReadsInside {α : Type} (size : Nat) (program : FromDisk α) (log : List Nat) (post : α → Prop) : Prop :=
  Triple program log (fun result after => post result ∧ Inside size after) fun _ after => Inside size after

theorem inside_append {first second : List Nat} : Inside size (first ++ second) ↔ Inside size first ∧ Inside size second := by
  simp only [Inside, mem_append, or_imp, forall_and]

theorem inside_range' : Inside size (range' offset length) ↔ length = 0 ∨ offset + length ≤ size := by
  simp only [Inside, mem_range'_1]
  constructor
  · intro inside
    by_contra outside
    have last := inside (offset + length - 1) (by lia)
    lia
  · intro bound place member
    omega

theorem readDisk_inside (inside : Inside size log) (bound : offset + length ≤ size) :
    ReadsInside size (readDisk ondisk offset length) log fun bytes => bytes = ondisk.bytes offset length := by
  refine Triple.bind (fun _ after => Inside size after)
    (Triple.modify (inside_append.mpr ⟨inside_range'.mpr (.inr bound), inside⟩)) fun _ after kept => ?_
  exact Triple.pure ⟨rfl, kept⟩

theorem readNumber_inside (inside : Inside size log) (bound : offset + length ≤ size) :
    ReadsInside size (readNumber ondisk offset length) log fun value => value = ondisk.number offset length := by
  refine Triple.bind _ (readDisk_inside inside bound) fun bytes after read => ?_
  exact Triple.pure ⟨by rw [read.1, HeaderImage.number], read.2⟩

variable {condition : Prop} {err : Int} {i count snapCount : Nat} {before : Option RbdImageHeader}
variable {header : RbdImageHeader}

theorem failIf_inside [Decidable condition] (inside : Inside size log) :
    ReadsInside size (failIf condition err) log fun _ => ¬ condition := by
  unfold failIf
  split_ifs with fails
  · exact Triple.throw inside
  · exact Triple.pure ⟨fails, inside⟩

theorem kmalloc_inside {memory : Bool} (inside : Inside size log) :
    ReadsInside size (kmalloc kmallocMax memory length) log fun _ => length ≤ kmallocMax :=
  (failIf_inside inside).weaken fun _ _ passed => ⟨(not_not.mp passed.1).2, passed.2⟩

theorem copyObjectPrefix_inside {memory firstTime : Bool} (inside : Inside size log) (bound : 64 ≤ size) :
    ReadsInside size (copyObjectPrefix kmallocMax memory firstTime ondisk) log fun _ => True := by
  have short : (strlen (ondisk.bytes 40 24)).getD 24 ≤ 24 := by
    cases found : strlen (ondisk.bytes 40 24) with
    | none => simp
    | some length =>
      have within := strlen_lt found
      simp only [HeaderImage.bytes, length_map, length_range'] at within
      simp only [Option.getD_some]
      omega
  unfold copyObjectPrefix
  split_ifs
  · refine Triple.bind _ (readDisk_inside inside (by lia)) fun _ after read => ?_
    refine Triple.bind _ (kmalloc_inside read.2) fun _ after room => ?_
    exact (readDisk_inside room.2 (by omega)).weaken fun _ _ copied => ⟨trivial, copied.2⟩
  · exact Triple.pure ⟨trivial, inside⟩

theorem readSnaps_inside (inside : Inside size log) (bound : 112 + 16 * (i + count) ≤ size) :
    ReadsInside size (readSnaps ondisk i count) log fun snaps => snaps.length = count := by
  induction count generalizing i log with
  | zero => exact Triple.pure ⟨rfl, inside⟩
  | succ count ih =>
    refine Triple.bind _ (readNumber_inside inside (by omega)) fun id after first => ?_
    refine Triple.bind _ (readNumber_inside first.2 (by omega)) fun imageSize after second => ?_
    refine Triple.bind _ (ih second.2 (by omega)) fun rest after later => ?_
    exact Triple.pure ⟨by simp [later.1], later.2⟩

theorem firstHeader_inside {text : List UInt8} (inside : Inside size log)
    (bound : 79 ≤ size) : ReadsInside size (firstHeader text ondisk before) log fun _ => True := by
  cases before with
  | some header => exact Triple.pure ⟨trivial, inside⟩
  | none =>
    refine Triple.bind _ (readNumber_inside inside (by omega)) fun objOrder after first => ?_
    refine Triple.bind _ (readNumber_inside first.2 (by omega)) fun cryptType after second => ?_
    refine Triple.bind _ (readNumber_inside second.2 (by omega)) fun compType after third => ?_
    exact Triple.pure ⟨trivial, third.2⟩

theorem copySnaps_inside {memory : HeaderMemory} (inside : Inside size log)
    (bound : ondisk.snapCount ≠ 0 → 112 ≤ size ∧ (ondisk.snapNamesLen ≤ kmallocMax →
      112 + 16 * ondisk.snapCount + ondisk.snapNamesLen ≤ size)) :
    ReadsInside size (copySnaps kmallocMax memory ondisk ondisk.snapCount) log fun copied =>
      copied.2.length = ondisk.snapCount ∧
        (ondisk.snapCount ≠ 0 → copied.1 = ondisk.names ∧ ondisk.snapNamesLen ≤ kmallocMax) := by
  unfold copySnaps
  split_ifs with present
  · obtain ⟨field, fits⟩ := bound present
    refine Triple.bind _ (readNumber_inside inside field) fun snapNamesLen after read => ?_
    obtain ⟨rfl, kept⟩ := read
    refine Triple.bind _ (failIf_inside kept) fun _ after small => ?_
    refine Triple.bind _ (kmalloc_inside small.2) fun _ after namesRoom => ?_
    refine Triple.bind _ (kmalloc_inside namesRoom.2) fun _ after sizesRoom => ?_
    have whole := fits namesRoom.1
    refine Triple.bind _ (readDisk_inside sizesRoom.2 whole) fun snapNames after copied => ?_
    refine Triple.bind _ (readSnaps_inside copied.2 (by omega)) fun snaps after read => ?_
    exact Triple.pure ⟨⟨read.1, fun _ => ⟨copied.1, namesRoom.1⟩⟩, read.2⟩
  · exact Triple.pure ⟨⟨by simp_all, fun others => absurd others present⟩, inside⟩

theorem rbdDevV1SnapName_isSome {memory : Bool} {which : Nat} :
    (rbdDevV1SnapName memory header which).isSome ↔ which < header.snapNames.count 0 := by
  cases skipped : skipStrings which header.snapNames with
  | none =>
    have fewer : ¬ which ≤ header.snapNames.count 0 := by
      rw [← skipStrings_isSome, skipped]
      simp
    simp only [rbdDevV1SnapName, skipped, Option.bind_eq_bind, Option.bind_none, Option.isSome_none, Bool.false_eq_true,
      false_iff]
    omega
  | some block =>
    have left := count_skipStrings skipped
    cases found : strlen block with
    | none =>
      have none := count_of_strlen_none found
      simp only [rbdDevV1SnapName, skipped, found, Option.bind_eq_bind, Option.bind_some, Option.bind_none,
        Option.isSome_none, Bool.false_eq_true, false_iff]
      omega
    | some length =>
      have ends := strlen_isSome.mp (Option.isSome_of_eq_some found)
      simp only [rbdDevV1SnapName, skipped, found, Option.bind_eq_bind, Option.bind_some, Option.pure_def,
        Option.isSome_some, true_iff]
      omega

theorem searchSnapNames_isSome {name snapNames : List UInt8} {snaps : List Nat} (named : 0 ∉ name)
    (enough : snaps.length ≤ snapNames.count 0) : (searchSnapNames name snaps snapNames).isSome := by
  induction snaps generalizing snapNames with
  | nil => rfl
  | cons snap snaps ih =>
    have ends : 0 < snapNames.count 0 := by
      rw [length_cons] at enough
      omega
    obtain ⟨same, compared⟩ := Option.isSome_iff_exists.mp (strcmp_isSome named ends)
    obtain ⟨length, found⟩ := Option.isSome_iff_exists.mp (strlen_isSome.mpr ends)
    have fewer := count_drop_strlen found
    rw [length_cons] at enough
    simp only [searchSnapNames, compared, found, Option.bind_eq_bind, Option.bind_some]
    split_ifs
    · rfl
    · exact ih (by omega)

theorem lookups_inside : header.LookupsInside ↔ header.snaps.length ≤ header.snapNames.count 0 := by
  constructor
  · intro inside
    by_contra fewer
    have last := rbdDevV1SnapName_isSome.mp (inside.1 true (header.snaps.length - 1) (by omega))
    omega
  · intro enough
    exact ⟨fun memory which below => rbdDevV1SnapName_isSome.mpr (by omega),
      fun name named => searchSnapNames_isSome named enough⟩

theorem rbdHeaderFromDisk_inside {memory : HeaderMemory} (fits : FitsBuffer kmallocMax size ondisk) :
    ReadsInside size (rbdHeaderFromDisk kmallocMax memory before ondisk) [] RbdImageHeader.LookupsInside := by
  obtain ⟨fixed, snapshots⟩ := fits
  refine Triple.bind _ (copyObjectPrefix_inside (by simp [Inside]) (by omega)) fun text after copied => ?_
  refine Triple.bind _ (readNumber_inside copied.2 (by omega)) fun snapCount after counted => ?_
  obtain ⟨rfl, kept⟩ := counted
  refine Triple.bind _ (kmalloc_inside kept) fun _ after room => ?_
  refine Triple.bind _ (readNumber_inside room.2 (by omega)) fun seq after read => ?_
  have bound : ondisk.snapCount ≠ 0 → 112 ≤ size ∧ (ondisk.snapNamesLen ≤ kmallocMax →
      112 + 16 * ondisk.snapCount + ondisk.snapNamesLen ≤ size) := fun present =>
    have named := snapshots present room.1
    ⟨named.1, fun short => (named.2 short).1⟩
  refine Triple.bind _ (copySnaps_inside read.2 bound) fun stored after copied => ?_
  refine Triple.bind _ (firstHeader_inside copied.2 (by omega)) fun header after filled => ?_
  refine Triple.bind _ (readNumber_inside filled.2 (by omega)) fun imageSize after read => ?_
  refine Triple.pure ⟨lookups_inside.mpr ?_, read.2⟩
  simp only [length_map, copied.1.1]
  by_cases present : ondisk.snapCount = 0
  · omega
  · obtain ⟨names, short⟩ := copied.1.2 present
    rw [names]
    exact ((snapshots present room.1).2 short).2

def fullMemory : HeaderMemory := ⟨true, true, true, true⟩

theorem readNumber_run : readNumber ondisk offset length log =
    .ok (ondisk.number offset length) (range' offset length ++ log) := rfl

theorem readDisk_run : readDisk ondisk offset length log =
    .ok (ondisk.bytes offset length) (range' offset length ++ log) := rfl

theorem failIf_run [Decidable condition] (fails : ¬ condition) : failIf condition err log = .ok () log := by
  rw [failIf, if_neg fails]
  rfl

theorem kmalloc_run (room : length ≤ kmallocMax) : kmalloc kmallocMax true length log = .ok () log :=
  failIf_run fun none => none ⟨rfl, room⟩

theorem kmalloc_fails {memory : Bool} (large : kmallocMax < length) :
    kmalloc kmallocMax memory length log = .error (-enomem) log := by
  rw [kmalloc, failIf, if_pos fun room => absurd room.2 (by omega)]
  rfl

theorem readSnaps_run : ∃ snaps places, readSnaps ondisk i count log = .ok snaps (places ++ log) ∧
    snaps.length = count := by
  induction count generalizing i log with
  | zero => exact ⟨[], [], rfl, rfl⟩
  | succ count ih =>
    obtain ⟨snaps, places, ran, counted⟩ := ih (i := i + 1)
    refine ⟨(ondisk.number (112 + 16 * i) 8, ondisk.number (112 + 16 * i + 8) 8) :: snaps,
      places ++ (range' (112 + 16 * i + 8) 8 ++ range' (112 + 16 * i) 8), ?_, by simp [counted]⟩
    rw [readSnaps, bind_of_ok readNumber_run, bind_of_ok readNumber_run, bind_of_ok ran, append_assoc,
      append_assoc]
    rfl

theorem snapNamesLen_le (ondisk : HeaderImage) : ondisk.snapNamesLen ≤ 2 ^ 64 - 1 := by
  have bound := leValue_lt (ondisk.bytes 104 8)
  rw [HeaderImage.bytes, length_map, length_range'] at bound
  exact Nat.le_of_lt_succ bound

theorem copySnaps_run (present : snapCount ≠ 0) (room : snapCount * 8 ≤ kmallocMax)
    (short : ondisk.snapNamesLen ≤ kmallocMax) : ∃ snaps places, snaps.length = snapCount ∧
      copySnaps kmallocMax fullMemory ondisk snapCount log =
        .ok (ondisk.bytes (112 + 16 * snapCount) ondisk.snapNamesLen, snaps)
          (places ++ (range' (112 + 16 * snapCount) ondisk.snapNamesLen ++ (range' 104 8 ++ log))) := by
  obtain ⟨snaps, places, ran, counted⟩ := readSnaps_run (i := 0)
  refine ⟨snaps, places, counted, ?_⟩
  have measured : readNumber ondisk 104 8 log = .ok ondisk.snapNamesLen (range' 104 8 ++ log) := readNumber_run
  have named : kmalloc kmallocMax fullMemory.snapNames ondisk.snapNamesLen (range' 104 8 ++ log) =
      .ok () (range' 104 8 ++ log) := kmalloc_run short
  have sized : kmalloc kmallocMax fullMemory.snapSizes (snapCount * 8) (range' 104 8 ++ log) =
      .ok () (range' 104 8 ++ log) := kmalloc_run room
  rw [copySnaps, if_pos present, bind_of_ok measured, bind_of_ok (failIf_run (snapNamesLen_le ondisk).not_gt),
    bind_of_ok named, bind_of_ok sized, bind_of_ok readDisk_run, bind_of_ok ran]
  rfl

theorem copySnaps_long (present : snapCount ≠ 0) (long : kmallocMax < ondisk.snapNamesLen) :
    copySnaps kmallocMax fullMemory ondisk snapCount log = .error (-enomem) (range' 104 8 ++ log) := by
  have measured : readNumber ondisk 104 8 log = .ok ondisk.snapNamesLen (range' 104 8 ++ log) := readNumber_run
  rw [copySnaps, if_pos present, bind_of_ok measured, bind_of_ok (failIf_run (snapNamesLen_le ondisk).not_gt),
    bind_of_error (kmalloc_fails long)]

def fixedPlaces : List Nat := range' 88 8 ++ range' 96 4

/-- Where there is memory, a refresh is decided by its snapshots. -/
theorem rbdHeaderFromDisk_refresh {header : RbdImageHeader} (room : 24 + ondisk.snapCount * 8 ≤ kmallocMax) :
    rbdHeaderFromDisk kmallocMax fullMemory (some header) ondisk [] =
      match copySnaps kmallocMax fullMemory ondisk ondisk.snapCount fixedPlaces with
      | .error err places => .error err places
      | .ok (snapNames, snaps) places =>
        .ok { header with
          imageSize := ondisk.number 80 8
          seq := ondisk.number 88 8
          snapNames := snapNames
          snaps := snaps.map Prod.fst
          snapSizes := snaps.map Prod.snd } (range' 80 8 ++ places) := by
  have skipped : copyObjectPrefix kmallocMax fullMemory.objectPrefix (some header).isNone ondisk [] = .ok [] [] := rfl
  have counted : readNumber ondisk 96 4 [] = .ok ondisk.snapCount (range' 96 4) := rfl
  have held : kmalloc kmallocMax fullMemory.snapc (24 + ondisk.snapCount * 8) (range' 96 4) =
      .ok () (range' 96 4) := kmalloc_run room
  have read : readNumber ondisk 88 8 (range' 96 4) = .ok (ondisk.number 88 8) fixedPlaces := rfl
  rw [rbdHeaderFromDisk, bind_of_ok skipped, bind_of_ok counted, bind_of_ok held, bind_of_ok read]
  cases stored : copySnaps kmallocMax fullMemory ondisk ondisk.snapCount fixedPlaces with
  | error err places => rw [bind_of_error stored]
  | ok kept places =>
    rw [bind_of_ok stored]
    rfl

theorem fitsBuffer_of_inside
    (inside : Inside size (finalState (rbdHeaderFromDisk kmallocMax fullMemory (some header) ondisk [])))
    (lookups : ∀ after, valueOf (rbdHeaderFromDisk kmallocMax fullMemory (some header) ondisk []) = some after →
      after.LookupsInside) : FitsBuffer kmallocMax size ondisk := by
  by_cases room : 24 + ondisk.snapCount * 8 ≤ kmallocMax
  · rw [rbdHeaderFromDisk_refresh room] at inside lookups
    by_cases present : ondisk.snapCount = 0
    · have none : copySnaps kmallocMax fullMemory ondisk ondisk.snapCount fixedPlaces = .ok ([], []) fixedPlaces := by
        rw [copySnaps, if_neg (not_not.mpr present)]
        rfl
      rw [none] at inside
      simp only [finalState, fixedPlaces, inside_append, inside_range'] at inside
      exact ⟨by omega, fun others => absurd present others⟩
    · by_cases short : ondisk.snapNamesLen ≤ kmallocMax
      · obtain ⟨snaps, places, length, ran⟩ := copySnaps_run present (by omega) short
        rw [ran] at inside lookups
        have served := lookups_inside.mp (lookups _ rfl)
        simp only [length_map, length] at served
        simp only [finalState, fixedPlaces, inside_append, inside_range'] at inside
        have some : ondisk.snapNamesLen ≠ 0 := by
          intro none
          rw [none] at served
          simp only [HeaderImage.bytes, range'_zero, map_nil, count_nil] at served
          lia
        obtain ⟨_, _, named, field, _, counted⟩ := inside
        refine ⟨by omega, fun _ _ => ⟨by lia, fun _ => ⟨by lia, served⟩⟩⟩
      · rw [copySnaps_long present (by omega)] at inside
        simp only [finalState, fixedPlaces, inside_append, inside_range'] at inside
        exact ⟨by omega, fun _ _ => ⟨by lia, fun named => absurd named short⟩⟩
  · have skipped : copyObjectPrefix kmallocMax fullMemory.objectPrefix (some header).isNone ondisk [] = .ok [] [] := rfl
    have counted : readNumber ondisk 96 4 [] = .ok ondisk.snapCount (range' 96 4) := rfl
    rw [rbdHeaderFromDisk, bind_of_ok skipped, bind_of_ok counted, bind_of_error (kmalloc_fails (by omega))] at inside
    simp only [finalState, inside_range'] at inside
    exact ⟨by omega, fun _ fits => absurd fits room⟩

end

theorem HeaderReadsInside.fitsBuffer {kmallocMax : Nat} {reads earlier : List HeaderRead} {last : HeaderRead}
    (inside : HeaderReadsInside kmallocMax reads) (found : LastRead kmallocMax 0 0 reads earlier last) :
    FitsBuffer kmallocMax (announcedSize 0 0 earlier) last.ondisk := by
  let header : RbdImageHeader := ⟨[], 22, 0, 0, 0, 0, 0, 0, 0, [], [], []⟩
  have ran := @readHeader_of_lastRead _ _ _ fullMemory (some header) _ _ _ found
  obtain ⟨places, lookups⟩ := inside fullMemory (some header) _ _ ran
  exact fitsBuffer_of_inside places lookups

/-- The code reads inside the buffer and the names exactly if the last header fits the buffer made for the one before. -/
theorem headerReads_inside_iff (kmallocMax : Nat) (reads : List HeaderRead) :
    HeaderReadsInside kmallocMax reads ↔
      ∀ earlier last, LastRead kmallocMax 0 0 reads earlier last →
        FitsBuffer kmallocMax (announcedSize 0 0 earlier) last.ondisk := by
  refine ⟨fun inside earlier last found => inside.fitsBuffer found, fun fits memory before size result ended => ?_⟩
  rcases readHeader_cases ended with ⟨err, rfl⟩ | ⟨earlier, last, found, rfl, rfl⟩
  · exact ⟨by simp [finalState], fun header none => by cases none⟩
  · have kept := @rbdHeaderFromDisk_inside _ _ _ before memory (fits earlier last found)
    cases ran : rbdHeaderFromDisk kmallocMax memory before last.ondisk [] with
    | ok header places =>
      obtain ⟨served, inside⟩ := kept.ok ran
      exact ⟨inside, fun after same => by cases same; exact served⟩
    | error err places => exact ⟨kept.error ran, fun header none => by cases none⟩

def oneSnapshot (snapNamesLen : Nat) : HeaderImage := fun place =>
  (rbdHeaderText ++ replicate 42 0 ++ [22, 0, 0, 0] ++ leBytes 8 4194304 ++ leBytes 8 1 ++ leBytes 4 1 ++ leBytes 4 0 ++
    leBytes 8 snapNamesLen ++ leBytes 8 1 ++ leBytes 8 4194304 ++ replicate (snapNamesLen - 1) 97 ++ [0]).getD place 0

def replacedSnapshot : List HeaderRead := [⟨true, 112, oneSnapshot 5⟩, ⟨true, 133, oneSnapshot 100⟩]

theorem headerReads_overrun : ¬ HeaderReadsInside 4194304 replacedSnapshot := by
  intro inside
  have found : LastRead 4194304 0 0 replacedSnapshot [⟨true, 112, oneSnapshot 5⟩] ⟨true, 133, oneSnapshot 100⟩ :=
    { reads_eq := ⟨[], rfl⟩
      repeated := ⟨by decide +kernel, by decide +kernel, trivial⟩
      complete := by decide +kernel
      same := by decide +kernel }
  have fits := (inside.fitsBuffer found).2 (by decide +kernel) (by decide +kernel)
  have count : (oneSnapshot 100).snapCount = 1 := by decide +kernel
  have length : (oneSnapshot 100).snapNamesLen = 100 := by decide +kernel
  have size : announcedSize 0 0 [⟨true, 112, oneSnapshot 5⟩] = 133 := by decide +kernel
  simp only [count, length, size] at fits
  omega

end KmodCeph.Rbd
