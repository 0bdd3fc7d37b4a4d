import KmodCeph.Osdmap.Decode

namespace KmodCeph.Osdmap

open Lib List

def nextByte (rest : List UInt8) : UInt8 := UInt8.ofNat (leValue (rest.take 1))

def nextWord (rest : List UInt8) : UInt32 := UInt32.ofNat (leValue (rest.take 4))

/-- What is left of a message behind so many entries. -/
def behindEntries (size : List UInt8 → Nat) : Nat → List UInt8 → List UInt8
  | 0, rest => rest
  | count + 1, rest => behindEntries size count (rest.drop (size rest))

/-- What is left behind a section: its entries come after their number. -/
def behindSection (size : List UInt8 → Nat) (rest : List UInt8) : List UInt8 :=
  behindEntries size (nextWord rest).toNat (rest.drop 4)

def readEntries {α : Type} (size : Nat) (read : List UInt8 → α) : Nat → List UInt8 → List α
  | 0, _ => []
  | count + 1, rest => read rest :: readEntries size read count (rest.drop size)

/-- The versions and lengths of both encodings of the client's data. -/
def behindVersions (message : List UInt8) : List UInt8 := message.drop (if nextByte message ≥ 7 then 12 else 2)

def behindCrush (rest : List UInt8) : List UInt8 := rest.drop (4 + (nextWord rest).toInt32.toInt.toNat)

def poolSize (rest : List UInt8) : Nat := 8 + 6 + (nextWord (rest.drop 10)).toNat

def poolNameSize (rest : List UInt8) : Nat := 8 + 4 + (nextWord (rest.drop 8)).toNat

def newUpSize : Nat := 4 + sizeofCephEntityAddr

def newStateSize : Nat := 4 + 1

/-- The number of the osds in `new_up`, and what follows, in an incremental
without a full map: behind its header, the crush map, `new_max_osd`, the pools,
their names and the old pools. -/
def newUpSection (message : List UInt8) : List UInt8 :=
  let header := (behindVersions message).drop (sizeofCephFsid + 4 + sizeofCephTimespec + 8 + 4 + 4)
  let pools := (behindCrush header).drop 4
  behindSection (fun _ => 8) (behindSection poolNameSize (behindSection poolSize pools))

def newUpEntry (rest : List UInt8) : UInt32 × List UInt8 :=
  (nextWord rest, cephDecodeAddr ((rest.drop 4).take sizeofCephEntityAddr))

/-- A byte of zero stands for `CEPH_OSD_UP`. -/
def newStateEntry (rest : List UInt8) : UInt32 × UInt8 :=
  (nextWord rest, if nextByte (rest.drop 4) = 0 then cephOsdUpFlag else nextByte (rest.drop 4))

/-- The osds of a section `new_up` with their addresses. -/
def upsOf (rest : List UInt8) : List (UInt32 × List UInt8) :=
  readEntries newUpSize newUpEntry (nextWord rest).toNat (rest.drop 4)

/-- The osds of a section `new_state` with what their states are xor-ed with. -/
def statesOf (rest : List UInt8) : List (UInt32 × UInt8) :=
  readEntries newStateSize newStateEntry (nextWord rest).toNat (rest.drop 4)

/-- What the bytes of an incremental list in `new_up`. -/
def newUps (message : List UInt8) : List (UInt32 × List UInt8) := upsOf (newUpSection message)

/-- What they list in `new_state`, which is behind `new_up`. -/
def newStates (message : List UInt8) : List (UInt32 × UInt8) :=
  statesOf (behindSection (fun _ => newUpSize) (newUpSection message))

/-- The position is at the start of these bytes of the memory. -/
structure Facing (region : Region) (rest : List UInt8) (state : Reading MapNote TreeMap) : Prop where
  nonneg : 0 ≤ state.pos
  here : region.memory.drop state.pos.toNat = rest

section

variable {balancings : Balancings} {region : Region} {state after : Reading MapNote TreeMap} {rest : List UInt8}
variable {α β : Type} {program : MapDecoder α} {count : Nat}

theorem Facing.ahead (facing : Facing region rest state) {distance : Nat} (ahead : after.pos = state.pos + distance) :
    Facing region (rest.drop distance) after := by
  have nonneg := facing.nonneg
  have place : after.pos.toNat = state.pos.toNat + distance := by lia
  exact ⟨by lia, by rw [place, ← facing.here, drop_drop]⟩

theorem Facing.move (facing : Facing region rest state) (distance : Nat) :
    Facing region (rest.drop distance) { state with pos := state.pos + distance } :=
  facing.ahead rfl

theorem Facing.fetched (facing : Facing region rest state) (positive : 0 < count) : Triple (fetch region count) state
      (fun bytes after => count ≤ rest.length ∧ bytes = rest.take count ∧
        after = { state with pos := state.pos + count })
      fun reason after => rest.length < count ∧ reason = .damage .read ∧ after = state := by
  have nonneg := facing.nonneg
  have length : rest.length = region.memory.length - state.pos.toNat := by rw [← facing.here, length_drop]
  refine Triple.fetch (fun _ high => ⟨by lia, by rw [facing.here], rfl⟩) fun outside => ⟨?_, rfl, rfl⟩
  by_contra enough
  exact outside ⟨nonneg, by lia⟩

/-- From here on, the program reads this value, leaves this rest and keeps the map. -/
def Reads (region : Region) (program : MapDecoder α) (value : α) (state : Reading MapNote TreeMap)
    (rest : List UInt8) : Prop :=
  Triple program state (fun result after => result = value ∧ Facing region rest after ∧ after.data = state.data)
    fun _ _ => True

theorem Facing.bytes (facing : Facing region rest state) (positive : 0 < count) :
    Reads region (fetch region count) (rest.take count) state (rest.drop count) :=
  (facing.fetched positive).mono (fun _ _ kept => ⟨kept.2.1, kept.2.2 ▸ facing.move count, by rw [kept.2.2]⟩)
    fun _ _ _ => trivial

theorem Facing.read8 (facing : Facing region rest state) :
    Reads region (fetch8 region) (nextByte rest) state (rest.drop 1) :=
  Triple.bind _ (facing.bytes (by decide)) fun _ _ kept => Triple.pure ⟨by rw [kept.1]; rfl, kept.2⟩

theorem Facing.read32 (facing : Facing region rest state) :
    Reads region (fetch32 region) (nextWord rest) state (rest.drop 4) :=
  Triple.bind _ (facing.bytes (by decide)) fun _ _ kept => Triple.pure ⟨by rw [kept.1]; rfl, kept.2⟩

theorem Facing.needed (facing : Facing region rest state) {code : Int} :
    Reads region (need region code count) ⟨⟩ state rest :=
  Triple.need (fun _ => ⟨rfl, facing, rfl⟩) fun _ => trivial

theorem Facing.needRead32 (facing : Facing region rest state) :
    Reads region (needFetch32 region) (nextWord rest) state (rest.drop 4) := by
  refine Triple.bind _ facing.needed fun _ first kept => ?_
  exact kept.2.1.read32.weaken fun _ _ later => ⟨later.1, later.2.1, later.2.2.trans kept.2.2⟩

theorem Facing.needRead8 (facing : Facing region rest state) :
    Reads region (needFetch8 region) (nextByte rest) state (rest.drop 1) := by
  refine Triple.bind _ facing.needed fun _ first kept => ?_
  exact kept.2.1.read8.weaken fun _ _ later => ⟨later.1, later.2.1, later.2.2.trans kept.2.2⟩

/-- The program ends at the position where it starts. -/
def Stays (program : MapDecoder α) : Prop :=
  ∀ state, Triple program state (fun _ after => after.pos = state.pos) fun _ _ => True

theorem Stays.pure (result : α) : Stays (Pure.pure result) := fun _ => Triple.pure rfl

theorem Stays.fail (code : Int) : Stays (fail code : MapDecoder α) := fun _ => Triple.fail trivial

theorem Stays.record (change : Update) : Stays (record balancings change) := fun _ => Triple.modify rfl

theorem Stays.allocate (code : Int) (size : Nat) : Stays (allocate code size : MapDecoder PUnit) :=
  fun _ => Triple.allocate (fun _ => rfl) trivial

theorem Stays.bind {next : α → MapDecoder β} (stays : Stays program) (continues : ∀ result, Stays (next result)) :
    Stays (program >>= next) := by
  intro state
  refine Triple.bind _ (stays state) fun result middle same => ?_
  exact (continues result middle).weaken fun _ _ later => later.trans same

theorem Stays.read {next : Reading MapNote TreeMap → MapDecoder α} (continues : ∀ state, Stays (next state)) :
    Stays (get >>= next) :=
  fun state => Triple.read (continues state state)

theorem Stays.onlyIf {condition : Bool} {program : MapDecoder PUnit} (stays : Stays program) :
    Stays (onlyIf condition program) := by
  unfold Osdmap.onlyIf
  split
  · exact stays
  · exact .pure _

theorem osdmapSetMaxOsd_stays {max : UInt32} : Stays (osdmapSetMaxOsd balancings max) :=
  .bind (.allocate _ _) fun _ => .bind (.record _) fun _ => .bind (.allocate _ _) fun _ => .bind (.record _) fun _ =>
    .bind (.allocate _ _) fun _ => .bind (.record _) fun _ =>
    .bind (.read fun _ => .onlyIf (.bind (.allocate _ _) fun _ => .record _)) fun _ => .record _

theorem advance_stays {modified : List UInt8} {newcrush : Option Crush.CrushMap} :
    Stays (advance balancings modified newcrush) := by
  refine .bind (.record _) fun _ => ?_
  cases newcrush with
  | none => exact .pure _
  | some crush => exact .record _

theorem addPool_stays {id : UInt64} : Stays (addPool balancings id) := by
  refine .bind (.allocate _ _) fun _ => .read fun state => ?_
  split
  · exact .fail _
  · exact .bind (.record _) fun _ => .pure _

theorem crushAt_stays {len : Int} : Stays (crushAt region len) := by
  refine .read fun here => .bind (fun state => ?_) fun _ => .pure _
  unfold Triple nested
  split
  next result after ran =>
    split at ran
    · cases ran
      rfl
    · cases ran
    · cases ran
  next => trivial

/-- From the start of some bytes, the program gets to what is behind. -/
def Passes (region : Region) (program : MapDecoder α) (behind : List UInt8 → List UInt8) : Prop :=
  ∀ state rest, Facing region rest state →
    Triple program state (fun _ after => Facing region (behind rest) after) fun _ _ => True

theorem Stays.passes (stays : Stays program) : Passes region program id := by
  intro state rest facing
  exact (stays state).weaken fun _ after same => ⟨same ▸ facing.nonneg, by rw [same, facing.here]; rfl⟩

theorem Passes.times {entry : MapDecoder PUnit} {size : List UInt8 → Nat}
    (passes : Passes region entry fun rest => rest.drop (size rest)) (count : Nat) :
    Passes region (times count entry) (behindEntries size count) := by
  induction count with
  | zero => exact fun _ _ facing => Triple.pure facing
  | succ count ih =>
    intro state rest facing
    exact Triple.bind _ (passes state rest facing) fun _ middle facing => ih middle _ facing

theorem Passes.entries {entry : MapDecoder PUnit} {size : List UInt8 → Nat}
    (passes : Passes region entry fun rest => rest.drop (size rest)) :
    Passes region (decodeSection region entry) (behindSection size) := by
  intro state rest facing
  refine Triple.bind _ facing.needRead32 fun len middle kept => ?_
  rw [kept.1]
  exact passes.times _ middle _ kept.2.1

theorem Facing.needRead64 (facing : Facing region rest state) :
    Triple (needFetch64 region) state (fun _ after => Facing region (rest.drop 8) after) fun _ _ => True := by
  refine Triple.bind _ facing.needed fun _ first kept => ?_
  exact Triple.bind _ (kept.2.1.bytes (by decide)) fun _ _ kept => Triple.pure kept.2.1

theorem decodeOldPool_passes : Passes region (decodeOldPool balancings region) (drop 8) := by
  intro state rest facing
  refine Triple.bind _ facing.needRead64 fun pool middle facing => Triple.read ?_
  split
  · exact Triple.pure facing
  · exact (Stays.record _).passes _ _ facing

theorem decodePoolName_passes :
    Passes region (decodePoolName balancings region) fun rest => rest.drop (poolNameSize rest) := by
  intro state rest facing
  refine Triple.bind _ facing.needRead64 fun pool first facing => ?_
  refine Triple.bind _ facing.needRead32 fun len second kept => ?_
  obtain ⟨rfl, facing, -⟩ := kept
  refine Triple.bind _ facing.needed fun _ third kept => Triple.read ?_
  obtain ⟨-, facing, -⟩ := kept
  have size : drop (nextWord (rest.drop 8)).toNat (drop 4 (drop 8 rest)) = rest.drop (poolNameSize rest) := by
    rw [drop_drop, drop_drop, ← Nat.add_assoc]
    rfl
  beta_reduce
  rw [← size]
  split
  · exact Triple.skip (facing.move _)
  · refine Triple.bind (fun _ after => Facing region _ after) (Triple.fetch (fun _ _ => facing.move _) fun _ => trivial)
      fun bytes fourth facing => ?_
    exact (Stays.bind (.allocate _ _) fun _ => .record _).passes _ _ facing

/-- Whatever the fields are, it goes on at the end that is said of the pool. -/
theorem decodePool_passes {pi : PgPoolInfo} :
    Passes region (decodePool balancings region pi) fun rest => rest.drop (6 + (nextWord (rest.drop 2)).toNat) := by
  intro state rest facing
  refine Triple.bind _ facing.needed fun _ first kept => ?_
  obtain ⟨-, facing, -⟩ := kept
  refine Triple.bind _ facing.read8 fun ev second kept => ?_
  obtain ⟨-, facing, -⟩ := kept
  refine Triple.bind _ facing.read8 fun cv third kept => ?_
  obtain ⟨-, facing, -⟩ := kept
  split
  · exact Triple.fail trivial
  split
  · exact Triple.fail trivial
  refine Triple.bind _ facing.read32 fun len fourth kept => ?_
  obtain ⟨rfl, facing, -⟩ := kept
  refine Triple.bind _ facing.needed fun _ fifth kept => Triple.read ?_
  obtain ⟨-, facing, -⟩ := kept
  refine Triple.bind (fun _ _ => True) Triple.any fun _ sixth _ => ?_
  refine Triple.bind (fun _ _ => True) Triple.any fun pi seventh _ => ?_
  have moved := facing.move (nextWord (rest.drop 2)).toNat
  simp only [drop_drop, Nat.reduceAdd] at moved ⊢
  refine Triple.bind _ (Triple.modify ?_) fun _ eighth facing => (Stays.record _).passes _ _ facing
  exact ⟨moved.nonneg, moved.here⟩

theorem decodeOnePool_passes :
    Passes region (decodeOnePool balancings region true) fun rest => rest.drop (poolSize rest) := by
  intro state rest facing
  refine Triple.bind _ facing.needRead64 fun pool first facing => Triple.read ?_
  have size : drop (6 + (nextWord (drop 2 (drop 8 rest))).toNat) (drop 8 rest) = rest.drop (poolSize rest) := by
    rw [drop_drop, drop_drop, ← Nat.add_assoc]
    rfl
  beta_reduce
  rw [← size]
  split
  · exact Triple.bind _ (addPool_stays.passes _ _ facing) fun pi second facing => decodePool_passes _ _ facing
  · exact decodePool_passes _ _ facing

theorem decodeNewCrush_passes : Passes region (decodeNewCrush region) behindCrush := by
  intro state rest facing
  refine Triple.bind _ facing.needRead32 fun len first kept => ?_
  obtain ⟨rfl, facing, -⟩ := kept
  have size : drop (nextWord rest).toInt32.toInt.toNat (drop 4 rest) = behindCrush rest := drop_drop
  rw [← size]
  split
  next some =>
    refine Triple.bind _ (crushAt_stays.passes _ _ facing) fun crush second facing => ?_
    have moved := facing.move (nextWord rest).toInt32.toInt.toNat
    rw [Int.toNat_of_nonneg (Int.le_of_lt some)] at moved
    exact Triple.bind _ (Triple.skip moved) fun _ third facing => Triple.pure facing
  next none =>
    rw [Int.toNat_eq_zero.mpr (Int.not_lt.mp none)]
    exact Triple.pure facing

/-- The first byte of the old encoding is read once more. -/
theorem getOsdmapClientDataV_passes : Passes region (getOsdmapClientDataV region) behindVersions := by
  intro state rest facing
  refine Triple.bind (fun structV after => structV = nextByte rest ∧ after.pos = state.pos + 1) ?_
    fun structV first kept => ?_
  · refine Triple.bind (fun _ after => after = state) (Triple.need (fun _ => rfl) fun _ => trivial) fun _ _ same => ?_
    rw [same]
    refine Triple.bind _ ((facing.fetched (by decide)).mono (fun _ _ kept => kept) fun _ _ _ => trivial)
      fun bytes after kept => Triple.pure ⟨?_, ?_⟩
    · rw [kept.2.1]
      rfl
    · rw [kept.2.2]
      rfl
  obtain ⟨rfl, pos⟩ := kept
  unfold behindVersions
  split
  next new =>
    refine Triple.bind _ (@Facing.ahead _ _ _ _ facing 1 pos).needRead8 fun structCompat second kept => ?_
    split
    · exact Triple.fail trivial
    refine Triple.bind (fun _ after => Facing region _ after) (Triple.skip (kept.2.1.move 4)) fun _ third facing => ?_
    refine Triple.bind _ facing.needRead8 fun structV fourth kept => ?_
    refine Triple.bind _ kept.2.1.needRead8 fun structCompat fifth kept => ?_
    split
    · exact Triple.fail trivial
    refine Triple.bind (fun _ after => Facing region _ after) (Triple.skip (kept.2.1.move 4)) fun _ sixth facing => Triple.pure ?_
    simpa only [drop_drop] using facing
  next old =>
    have again : Facing region rest { first with pos := first.pos + -1 } :=
      ⟨by rw [pos]; have := facing.nonneg; simp; omega, by rw [pos]; simpa using facing.here⟩
    refine Triple.bind (fun _ after => Facing region rest after) (Triple.skip again) fun _ second facing => ?_
    refine Triple.bind _ facing.needed fun _ third kept => ?_
    refine Triple.bind (fun _ after => Facing region (rest.drop 2) after) ?_ fun version fourth facing => ?_
    · exact Triple.bind _ (kept.2.1.bytes (by decide)) fun _ _ kept => Triple.pure kept.2.1
    split
    · exact Triple.fail trivial
    · exact Triple.pure facing

theorem getOsdmapClientDataV_nonneg :
    Triple (getOsdmapClientDataV region) state (fun _ _ => 0 ≤ state.pos) fun _ _ => True := by
  refine Triple.bind (fun _ _ => 0 ≤ state.pos) ?_ fun structV first nonneg => Triple.any.weaken fun _ _ _ => nonneg
  refine Triple.bind (fun _ after => after = state) (Triple.need (fun _ => rfl) fun _ => trivial) fun _ _ same => ?_
  rw [same]
  exact Triple.bind (fun _ _ => 0 ≤ state.pos) (Triple.fetch (fun nonneg _ => nonneg) fun _ => trivial) fun _ _ nonneg =>
    Triple.pure nonneg

end

end KmodCeph.Osdmap
