import KmodCeph.Osdmap.UpState

namespace KmodCeph.Osdmap

open Lib List

def behindSnaps : Nat → List UInt8 → Option (List UInt8)
  | 0, rest => some rest
  | count + 1, rest =>
    if 14 ≤ rest.length then behindSnaps count (rest.drop (14 + (nextWord (rest.drop 10)).toNat)) else none

def tiersFit (ev : UInt8) (rest : List UInt8) : Bool :=
  ev < 9 || (4 ≤ rest.length && 4 + (nextWord rest * 8).toNat + 9 + 16 ≤ rest.length)

def sizesLength (ev : UInt8) : Nat := (if ev ≥ 7 then 1 else 0) + if ev ≥ 8 then 16 else 0

def setsFit (ev : UInt8) (rest : List UInt8) : Bool :=
  4 ≤ rest.length && 4 + (nextWord rest * 16).toNat + 8 + 8 ≤ rest.length &&
    tiersFit ev (rest.drop (4 + (nextWord rest * 16).toNat + 8 + 8 + 4 + sizesLength ev))

def poolFits (ev : UInt8) (rest : List UInt8) : Bool :=
  40 ≤ rest.length && (behindSnaps (nextWord (rest.drop 36)).toNat (rest.drop 40)).any (setsFit ev)

/-- The condition that is met: the fields of a pool and the byte of a state are in the message, an osd is in the map, a
full map names a placement group once, and an incremental has the epoch that must come. -/
def MapNote.Sound : MapNote → Prop
  | .update _ => True
  | .pool ev rest => poolFits ev rest = true
  | .state room => 1 ≤ room
  | .osd listed maxOsd => listed < maxOsd
  | .temp first => first = true
  | .epoch announced next => announced = next

instance : DecidablePred MapNote.Sound
  | .update _ => inferInstanceAs (Decidable True)
  | .pool ev rest => inferInstanceAs (Decidable (poolFits ev rest = true))
  | .state room => inferInstanceAs (Decidable (1 ≤ room))
  | .osd osd maxOsd => inferInstanceAs (Decidable (osd < maxOsd))
  | .temp first => inferInstanceAs (Decidable (first = true))
  | .epoch epoch next => inferInstanceAs (Decidable (epoch = next))

structure Calm (state : Reading MapNote TreeMap) : Prop where
  nonneg : 0 ≤ state.pos
  sound : ∀ entry ∈ state.trail, entry.Sound

def Ends (reason : Stop) (state : Reading MapNote TreeMap) : Prop :=
  match reason with
  | .error _ | .damage .nested => ∀ entry ∈ state.trail, entry.Sound
  | .damage _ => ∃ entry ∈ state.trail, ¬entry.Sound

structure Ahead (region : Region) (count : Nat) (state : Reading MapNote TreeMap) : Prop where
  calm : Calm state
  room : state.pos + count ≤ region.memory.length

def Guarded {α : Type} (program : MapDecoder α) : Prop :=
  ∀ state, Calm state → Triple program state (fun _ after => Calm after) Ends

section

variable {balancings : Balancings} {region : Region} {state : Reading MapNote TreeMap} {α β : Type}

theorem Calm.of_eq (calm : Calm state) {after : Reading MapNote TreeMap} (pos : after.pos = state.pos)
    (trail : after.trail = state.trail) : Calm after :=
  ⟨pos ▸ calm.nonneg, trail ▸ calm.sound⟩

theorem Calm.move (calm : Calm state) {distance : Int} (ahead : 0 ≤ distance) :
    Calm { state with pos := state.pos + distance } :=
  ⟨Int.add_nonneg calm.nonneg ahead, calm.sound⟩

theorem Calm.notes (calm : Calm state) {entry : MapNote} (sound : entry.Sound) :
    Calm { state with trail := entry :: state.trail } := by
  refine ⟨calm.nonneg, fun other member => ?_⟩
  rcases List.mem_cons.mp member with same | member
  · exact same ▸ sound
  · exact calm.sound other member

theorem Guarded.pure (result : α) : Guarded (Pure.pure result : MapDecoder α) := fun _ calm => Triple.pure calm

theorem Guarded.fail (code : Int) : Guarded (fail code : MapDecoder α) := fun _ calm => Triple.fail calm.sound

theorem Guarded.bind {first : MapDecoder α} {next : α → MapDecoder β} (guarded : Guarded first)
    (continues : ∀ result, Guarded (next result)) : Guarded (first >>= next) :=
  fun state calm => Triple.bind _ (guarded state calm) fun result middle calm => continues result middle calm

theorem Guarded.read {next : Reading MapNote TreeMap → MapDecoder α} (continues : ∀ state, Guarded (next state)) :
    Guarded (get >>= next) :=
  fun state calm => Triple.read (continues state state calm)

theorem Guarded.allocate (code : Int) (size : Nat) : Guarded (allocate code size : MapDecoder PUnit) :=
  fun _ calm => Triple.allocate (fun _ => calm.of_eq rfl rfl) calm.sound

theorem Guarded.record (change : Update) : Guarded (record balancings change) :=
  fun _ calm => Triple.modify ((@Calm.notes _ calm (.update change) trivial).of_eq rfl rfl)

theorem Guarded.skip (distance : Nat) : Guarded (skip distance : MapDecoder PUnit) :=
  fun _ calm => Triple.skip (calm.move (Int.natCast_nonneg distance))

theorem Guarded.jump {pos : Int} (nonneg : 0 ≤ pos) : Guarded (jump pos : MapDecoder PUnit) :=
  fun _ calm => Triple.modify ⟨nonneg, calm.sound⟩

variable {program : MapDecoder PUnit} {count : Nat} {incremental : Bool} {change : Update}
variable {osd aff newFlags : UInt32} {len : Int} {structV : UInt8} {newPoolMax : UInt64}
variable {modified : List UInt8}

theorem Guarded.onlyIf {condition : Bool} (guarded : Guarded program) : Guarded (onlyIf condition program) := by
  cases condition with
  | true => exact guarded
  | false => exact .pure _

theorem Guarded.times (guarded : Guarded program) (count : Nat) : Guarded (times count program) :=
  fun _ calm => Triple.times Calm guarded calm

theorem need_ahead (inside : region.finish ≤ region.memory.length) (calm : Calm state) {code : Int} :
    Triple (need region code count) state (fun _ after => Ahead region count after) Ends := by
  refine Triple.need (fun enough => ⟨calm, ?_⟩) fun _ => calm.sound
  simp only [Region.hasRoom, decide_eq_true_eq] at enough
  omega

theorem Ahead.reads {program : MapDecoder α} {total count left : Nat} (ahead : Ahead region total state)
    (reads : Consumes region count program) (sum : count + left = total) :
    Triple program state (fun _ after => Ahead region left after) Ends := by
  have room := ahead.room
  refine reads.triple ahead.calm.nonneg (by omega) fun result => ⟨ahead.calm.move (by omega), ?_⟩
  change state.pos + count + left ≤ region.memory.length
  omega

theorem Guarded.reads (inside : region.finish ≤ region.memory.length) {program : MapDecoder α} {code : Int}
    {count : Nat}
    (reads : Consumes region count program) : Guarded (need region code count >>= fun _ => program) :=
  fun _ calm => Triple.bind _ (need_ahead inside calm) fun _ _ ahead =>
    (ahead.reads reads (Nat.add_zero count)).weaken fun _ _ ahead => ahead.calm

section

variable (inside : region.finish ≤ region.memory.length)
include inside

theorem needFetch8_guarded : Guarded (needFetch8 region) :=
  .reads inside Consumes.fetch8

theorem needFetch32_guarded : Guarded (needFetch32 region) :=
  .reads inside Consumes.fetch32

theorem needFetch64_guarded : Guarded (needFetch64 region) :=
  .reads inside Consumes.fetch64

theorem decodeSection_guarded {entry : MapDecoder PUnit}
    (guarded : Guarded entry) : Guarded (decodeSection region entry) :=
  .bind (needFetch32_guarded inside) fun _ => .times guarded _

theorem cephDecodePgid_guarded : Guarded (cephDecodePgid region) := by
  intro state calm
  refine Triple.bind _ (need_ahead inside calm) fun _ _ ahead => ?_
  refine Triple.bind _ (@Ahead.reads _ _ _ _ _ _ 16 ahead Consumes.fetch8 rfl) fun version _ ahead => ?_
  split
  · exact Triple.fail ahead.calm.sound
  · refine Triple.bind _ (@Ahead.reads _ _ _ _ _ _ 8 ahead Consumes.fetch64 rfl) fun pool _ ahead => ?_
    refine Triple.bind _ (@Ahead.reads _ _ _ _ _ _ 4 ahead Consumes.fetch32 rfl) fun seed _ ahead => ?_
    exact (Guarded.bind (.skip 4) fun _ => .pure _) _ ahead.calm

/-- The version is read once more after it was found to be old. -/
theorem getOsdmapClientDataV_guarded : Guarded (getOsdmapClientDataV region) := by
  intro state calm
  refine Triple.bind (fun _ after => Calm after ∧ 1 ≤ after.pos) ?_ fun structV first kept => ?_
  · refine Triple.bind _ (need_ahead inside calm) fun _ middle ahead => ?_
    have nonneg := ahead.calm.nonneg
    refine Consumes.fetch8.triple nonneg ahead.room fun value => ⟨ahead.calm.move (by decide), ?_⟩
    change 1 ≤ middle.pos + 1
    omega
  · split
    · refine (Guarded.bind (needFetch8_guarded inside) fun structCompat => ?_) _ kept.1
      split
      · exact .fail _
      · refine .bind (.skip 4) fun _ => .bind (needFetch8_guarded inside) fun structV =>
          .bind (needFetch8_guarded inside) fun structCompat => ?_
        split
        · exact .fail _
        · exact .bind (.skip 4) fun _ => .pure _
    · refine Triple.bind (fun _ after => Calm after) (Triple.skip ⟨?_, kept.1.sound⟩) fun _ second calm => ?_
      · have positive := kept.2
        change 0 ≤ first.pos + -1
        omega
      · refine Triple.bind _ (need_ahead inside calm) fun _ _ ahead => ?_
        refine Triple.bind _ (ahead.reads Consumes.fetch16 (Nat.add_zero 2)) fun version _ ahead => ?_
        split
        · exact Triple.fail ahead.calm.sound
        · exact Triple.pure ahead.calm

end

/-- With these notes the position is at the start of these bytes of the memory. -/
structure At (region : Region) (trail : List MapNote) (rest : List UInt8) (state : Reading MapNote TreeMap) : Prop
    extends Facing region rest state where
  noted : state.trail = trail

def ReadsOff (trail : List MapNote) (reason : Stop) (after : Reading MapNote TreeMap) : Prop :=
  reason = .damage .read ∧ after.trail = trail

/-- The decoder notes nothing and reads the memory as long as something fits. -/
def FitTriple (program : MapDecoder α) (trail : List MapNote) (state : Reading MapNote TreeMap) (fits : Bool) : Prop :=
  Triple program state (fun _ after => fits = true ∧ after.trail = trail)
    fun reason after => fits = false ∧ ReadsOff trail reason after

variable {trail : List MapNote} {rest : List UInt8} {fits : Bool}

theorem At.move (here : At region trail rest state) (distance : Nat) :
    At region trail (rest.drop distance) { state with pos := state.pos + distance } :=
  ⟨here.toFacing.move distance, here.noted⟩

theorem At.fetch (here : At region trail rest state) (positive : 0 < count) : Triple (fetch region count) state
      (fun bytes after => count ≤ rest.length ∧ bytes = rest.take count ∧ At region trail (rest.drop count) after)
      fun reason after => rest.length < count ∧ ReadsOff trail reason after :=
  (here.toFacing.fetched positive).mono (fun _ _ kept => ⟨kept.1, kept.2.1, kept.2.2 ▸ here.move count⟩)
    fun _ _ off => ⟨off.1, off.2.1, off.2.2 ▸ here.noted⟩

theorem At.fetch32 (here : At region trail rest state) :
    Triple (fetch32 region) state
      (fun value after => 4 ≤ rest.length ∧ value = nextWord rest ∧ At region trail (rest.drop 4) after)
      fun reason after => rest.length < 4 ∧ ReadsOff trail reason after :=
  Triple.bind _ (here.fetch (by decide)) fun _ _ kept => Triple.pure ⟨kept.1, by rw [kept.2.1]; rfl, kept.2.2⟩

theorem FitTriple.reads (count : Nat) {value : List UInt8 → α} {next : α → MapDecoder β}
    (here : At region trail rest state) (positive : 0 < count) (short : rest.length < count → fits = false)
    (continues : ∀ after, count ≤ rest.length → At region trail (rest.drop count) after →
      FitTriple (next (value (rest.take count))) trail after fits) :
    FitTriple ((fetch region count >>= fun bytes => Pure.pure (value bytes)) >>= next) trail state fits := by
  refine Triple.bind (fun result after => count ≤ rest.length ∧ result = value (rest.take count) ∧
    At region trail (rest.drop count) after) ?_ fun result after kept => ?_
  · refine Triple.bind _ ((here.fetch positive).mono (fun _ _ kept => kept) fun _ _ off => ⟨short off.1, off.2⟩)
      fun bytes after kept => Triple.pure ⟨kept.1, by rw [kept.2.1], kept.2.2⟩
  · obtain ⟨room, rfl, place⟩ := kept
    exact continues after room place

theorem FitTriple.words {next : UInt32 → MapDecoder α} (here : At region trail rest state)
    (short : rest.length < 4 → fits = false)
    (continues : ∀ after, 4 ≤ rest.length → At region trail (rest.drop 4) after →
      FitTriple (next (nextWord rest)) trail after fits) :
    FitTriple (fetch32 region >>= next) trail state fits :=
  FitTriple.reads 4 here (by decide) short continues

theorem FitTriple.skips (distance : Nat) {next : PUnit → MapDecoder α} (here : At region trail rest state)
    (continues : ∀ after, At region trail (rest.drop distance) after → FitTriple (next ⟨⟩) trail after fits) :
    FitTriple (skip distance >>= next) trail state fits :=
  continues _ (here.move distance)

theorem skipSnap_at (here : At region trail rest state) :
    Triple (skipSnap region) state
      (fun _ after => 14 ≤ rest.length ∧ At region trail (rest.drop (14 + (nextWord (rest.drop 10)).toNat)) after)
      fun reason after => rest.length < 14 ∧ ReadsOff trail reason after := by
  have moved := (here.move 8).move 2
  rw [drop_drop] at moved
  refine Triple.bind (fun _ after => after = _) (Triple.modify rfl) fun _ first same => ?_
  subst same
  refine Triple.bind (fun _ after => after = _) (Triple.modify rfl) fun _ second same => ?_
  subst same
  refine Triple.bind (fun len after => 14 ≤ rest.length ∧ len = nextWord (rest.drop 10) ∧
    At region trail (rest.drop 14) after)
    (moved.fetch32.mono (fun len after kept => ?_) fun reason after off => ?_) fun len after kept => ?_
  · obtain ⟨room, value, place⟩ := kept
    rw [length_drop] at room
    rw [drop_drop] at place
    exact ⟨by omega, value, place⟩
  · obtain ⟨short, ended⟩ := off
    rw [length_drop] at short
    exact ⟨by omega, ended⟩
  · obtain ⟨room, rfl, place⟩ := kept
    have passed := place.move (nextWord (rest.drop 10)).toNat
    rw [drop_drop] at passed
    exact Triple.modify ⟨room, passed⟩

theorem skipSnaps_at (count : Nat) : ∀ {state : Reading MapNote TreeMap} {rest : List UInt8},
    At region trail rest state → Triple (times count (skipSnap region)) state
      (fun _ after => ∃ behind, behindSnaps count rest = some behind ∧ At region trail behind after)
      fun reason after => behindSnaps count rest = none ∧ ReadsOff trail reason after := by
  induction count with
  | zero => exact fun here => Triple.pure ⟨_, rfl, here⟩
  | succ count ih =>
    intro state rest here
    refine Triple.bind _ ((skipSnap_at here).mono (fun _ _ kept => kept) fun reason after off => ?_)
      fun _ middle kept => ?_
    · exact ⟨if_neg (Nat.not_le.mpr off.1), off.2⟩
    · obtain ⟨room, place⟩ := kept
      refine (ih place).mono (fun _ after found => ?_) fun reason after off => ?_
      · obtain ⟨behind, left, there⟩ := found
        exact ⟨behind, (if_pos room).trans left, there⟩
      · exact ⟨(if_pos room).trans off.1, off.2⟩

theorem decodeTiers_at {ev : UInt8} (here : At region trail rest state) :
    FitTriple (decodeTiers region ev) trail state (tiersFit ev rest) := by
  unfold decodeTiers tiersFit
  split
  next tiered =>
    have new : decide (ev < 9) = false := decide_eq_false (UInt8.not_lt.mpr tiered)
    rw [new, Bool.false_or]
    refine FitTriple.words here (fun short => ?_) fun first room place => ?_
    · rw [decide_eq_false (Nat.not_le.mpr short)]
      rfl
    rw [decide_eq_true room, Bool.true_and]
    refine FitTriple.skips _ place fun second place => ?_
    refine FitTriple.skips 8 place fun third place => ?_
    refine FitTriple.skips 1 place fun fourth place => ?_
    simp only [drop_drop] at place
    refine FitTriple.reads 8 place (by decide) (fun short => ?_) fun fifth room place => ?_
    · rw [length_drop] at short
      exact decide_eq_false (by lia)
    refine FitTriple.reads 8 place (by decide) (fun short => ?_) fun sixth room place => ?_
    · rw [length_drop, length_drop] at short
      exact decide_eq_false (by lia)
    rw [length_drop, length_drop] at room
    exact Triple.pure ⟨decide_eq_true (by lia), place.noted⟩
  next old =>
    rw [decide_eq_true (UInt8.not_le.mp old), Bool.true_or]
    exact Triple.pure ⟨rfl, here.noted⟩

/-- What `decode_pool` does behind the snapshots. -/
def decodePoolSets (region : Region) (ev : UInt8) (finish : UInt64 → UInt64 × UInt64 → PgPoolInfo) :
    MapDecoder PgPoolInfo := do
  let num ← fetch32 region
  skip (num * 16).toNat
  skip 8
  let flags ← fetch64 region
  skip 4
  skip (if ev ≥ 7 then 1 else 0)
  skip (if ev ≥ 8 then 16 else 0)
  let tiers ← decodeTiers region ev
  pure (finish flags tiers)

theorem versioned_eq (ev least : UInt8) (size : Nat) :
    (if ev ≥ least then (size : Int) else 0) = ((if ev ≥ least then size else 0 : Nat) : Int) := by
  split <;> rfl

theorem decodePoolSets_at {ev : UInt8} {finish : UInt64 → UInt64 × UInt64 → PgPoolInfo}
    (here : At region trail rest state) : FitTriple (decodePoolSets region ev finish) trail state (setsFit ev rest) :=
      by
  unfold decodePoolSets setsFit
  refine FitTriple.words here (fun short => ?_) fun first room place => ?_
  · rw [decide_eq_false (Nat.not_le.mpr short)]
    rfl
  rw [decide_eq_true room, Bool.true_and]
  refine FitTriple.skips _ place fun second place => ?_
  refine FitTriple.skips 8 place fun third place => ?_
  simp only [drop_drop] at place
  refine FitTriple.reads 8 place (by decide) (fun short => ?_) fun fourth room' place => ?_
  · rw [length_drop] at short
    rw [decide_eq_false (by lia)]
    rfl
  rw [length_drop] at room'
  rw [decide_eq_true (by lia), Bool.true_and]
  refine FitTriple.skips 4 place fun fifth place => ?_
  have first := versioned_eq ev 7 1
  have second := versioned_eq ev 8 16
  simp only [Nat.cast_one, Nat.cast_ofNat] at first second
  rw [first, second]
  refine FitTriple.skips _ place fun sixth place => ?_
  refine FitTriple.skips _ place fun seventh place => ?_
  simp only [drop_drop] at place
  refine Triple.bind _ ?_ fun _ _ kept => Triple.pure kept
  have tiers := @decodeTiers_at region _ _ _ ev place
  unfold FitTriple at tiers
  simpa only [sizesLength, Nat.add_assoc] using tiers

theorem decodePoolFields_at {ev : UInt8} {pi : PgPoolInfo} (here : At region trail rest state) :
    FitTriple (decodePoolFields region ev pi) trail state (poolFits ev rest) := by
  have short {passed count : Nat} (early : passed + count ≤ 40) (missing : (rest.drop passed).length < count) :
      poolFits ev rest = false := by
    rw [length_drop] at missing
    unfold poolFits
    rw [decide_eq_false (by lia)]
    rfl
  have start : At region trail (rest.drop 0) state := here
  refine FitTriple.reads 1 start (by decide) (short (by decide)) fun _ _ place => ?_
  refine FitTriple.reads 1 place (by decide) (short (by decide)) fun _ _ place => ?_
  simp only [drop_drop] at place
  refine FitTriple.reads 1 place (by decide) (short (by decide)) fun _ _ place => ?_
  simp only [drop_drop] at place
  refine FitTriple.reads 1 place (by decide) (short (by decide)) fun _ _ place => ?_
  simp only [drop_drop] at place
  refine FitTriple.words place (short (by decide)) fun _ _ place => ?_
  simp only [drop_drop] at place
  refine FitTriple.words place (short (by decide)) fun _ _ place => ?_
  refine FitTriple.skips 8 place fun _ place => ?_
  refine FitTriple.skips 4 place fun _ place => ?_
  refine FitTriple.skips 12 place fun _ place => ?_
  simp only [drop_drop] at place
  refine FitTriple.words place (short (by decide)) fun first room place => ?_
  simp only [drop_drop, length_drop] at place room
  unfold poolFits
  rw [decide_eq_true (by lia), Bool.true_and]
  refine Triple.bind _ ((skipSnaps_at _ place).mono (fun _ _ kept => kept) fun reason after off => ?_)
    fun _ second kept => ?_
  · exact ⟨by rw [off.1]; rfl, off.2⟩
  obtain ⟨behind, found, place⟩ := kept
  rw [found]
  exact decodePoolSets_at place

def Bugs (program : MapDecoder α) : Prop :=
  ∀ state, Triple program state (fun _ _ => False)
    fun reason after => reason = .damage .bug ∧ state.trail ⊆ after.trail

theorem Bugs.bug : Bugs (bug : MapDecoder α) := fun _ => Triple.throw ⟨rfl, List.Subset.refl _⟩

/-- An assertion fails exactly if what is noted is not sound. -/
theorem Guarded.noted {entry : MapNote} {next : PUnit → MapDecoder α} (guarded : entry.Sound → Guarded (next ⟨⟩))
    (bugs : ¬entry.Sound → Bugs (next ⟨⟩)) : Guarded (note entry >>= next) := by
  intro state calm
  by_cases sound : entry.Sound
  · exact guarded sound _ (calm.notes sound)
  · refine Triple.mono (bugs sound { state with trail := entry :: state.trail }) (fun _ _ never => never.elim)
      fun reason after ended => ?_
    obtain ⟨rfl, kept⟩ := ended
    exact ⟨entry, kept mem_cons_self, sound⟩

theorem decodePool_guarded (inside : region.finish ≤ region.memory.length) {pi : PgPoolInfo} :
    Guarded (decodePool balancings region pi) := by
  intro state calm
  refine Triple.bind _ (need_ahead inside calm) fun _ _ ahead => ?_
  refine Triple.bind _ (@Ahead.reads _ _ _ _ _ _ 5 ahead Consumes.fetch8 rfl) fun ev _ ahead => ?_
  refine Triple.bind _ (@Ahead.reads _ _ _ _ _ _ 4 ahead Consumes.fetch8 rfl) fun cv _ ahead => ?_
  split
  · exact Triple.fail ahead.calm.sound
  · split
    · exact Triple.fail ahead.calm.sound
    · refine Triple.bind _ (@Ahead.reads _ _ _ _ _ _ 0 ahead Consumes.fetch32 rfl) fun len _ ahead => ?_
      refine Triple.bind _ (need_ahead inside ahead.calm) fun _ state ahead => Triple.read ?_
      have calm := ahead.calm
      have finish : 0 ≤ state.pos + len.toNat := Int.add_nonneg calm.nonneg (Int.natCast_nonneg _)
      refine Triple.bind (fun _ after => after =
        { state with trail := .pool ev (region.memory.drop state.pos.toNat) :: state.trail }) (Triple.note rfl)
        fun _ noted same => ?_
      subst same
      have fields := @decodePoolFields_at region
        { state with trail := .pool ev (region.memory.drop state.pos.toNat) :: state.trail } _ _ ev pi
        ⟨⟨calm.nonneg, rfl⟩, rfl⟩
      refine Triple.bind (fun _ after => ∀ entry ∈ after.trail, entry.Sound)
        (Triple.mono fields (fun _ after kept => ?_)
        fun reason after off => ?_) fun pi after sound => ?_
      · rw [kept.2]
        exact (@Calm.notes _ calm (.pool ev (region.memory.drop state.pos.toNat)) kept.1).sound
      · obtain ⟨unfit, rfl, trail⟩ := off
        have member : MapNote.pool ev (region.memory.drop state.pos.toNat) ∈ after.trail := by
          rw [trail]
          exact mem_cons_self
        exact ⟨_, member, fun fit => Bool.false_ne_true (unfit.symm.trans fit)⟩
      · refine Triple.bind (fun _ after => Calm after) (Triple.modify ⟨finish, sound⟩) fun _ _ calm => ?_
        exact Guarded.record _ _ calm

theorem addPool_guarded {id : UInt64} : Guarded (addPool balancings id) := by
  refine .bind (.allocate _ _) fun _ => .read fun state => ?_
  split
  · exact .fail _
  · exact .bind (.record _) fun _ => .pure _

section

variable (inside : region.finish ≤ region.memory.length)
include inside

theorem decodeOnePool_guarded : Guarded (decodeOnePool balancings region incremental) := by
  refine .bind (needFetch64_guarded inside) fun pool => .read fun state => ?_
  split
  · exact .bind addPool_guarded fun _ => decodePool_guarded inside
  · split
    · exact decodePool_guarded inside
    · exact .bind addPool_guarded fun _ => decodePool_guarded inside

theorem decodePools_guarded : Guarded (decodePools balancings region incremental) :=
  .bind (needFetch32_guarded inside) fun _ => .times (decodeOnePool_guarded inside) _

theorem decodePoolName_guarded : Guarded (decodePoolName balancings region) := by
  refine .bind (needFetch64_guarded inside) fun pool => .bind (needFetch32_guarded inside) fun len => ?_
  intro state calm
  refine Triple.bind _ (need_ahead inside calm) fun _ middle ahead => Triple.read ?_
  split
  · exact Guarded.skip _ _ ahead.calm
  · refine Triple.bind _ (ahead.reads (Consumes.fetch len.toNat) (Nat.add_zero _)) fun bytes _ ahead => ?_
    exact (Guarded.bind (.allocate _ _) fun _ => .record _) _ ahead.calm

theorem decodePoolNames_guarded : Guarded (decodePoolNames balancings region) :=
  .bind (needFetch32_guarded inside) fun _ => .times (decodePoolName_guarded inside) _

end

theorem osdmapSetMaxOsd_guarded {max : UInt32} : Guarded (osdmapSetMaxOsd balancings max) := by
  refine .bind (.allocate _ _) fun _ => .bind (.record _) fun _ => .bind (.allocate _ _) fun _ =>
    .bind (.record _) fun _ => .bind (.allocate _ _) fun _ => .bind (.record _) fun _ => .bind ?_ fun _ => .record _
  exact .read fun _ => .onlyIf (.bind (.allocate _ _) fun _ => .record _)

theorem fetchOsd_consumes : Consumes region 4 (fetchOsd region) := Consumes.fetch32.map _

theorem temp_sound_iff {known : Bool} :
    (MapNote.temp (incremental || !known)).Sound ↔ ¬(!incremental && known) = true := by
  cases incremental <;> cases known <;> decide

theorem Bugs.record {next : PUnit → MapDecoder α} (bugs : Bugs (next ⟨⟩)) :
    Bugs (record balancings change >>= next) :=
  fun _ => Triple.mono (bugs _) (fun _ _ never => never) fun _ _ ended =>
    ⟨ended.1, fun _ member => ended.2 (mem_cons_of_mem _ member)⟩

section

variable (inside : region.finish ≤ region.memory.length)
include inside

theorem decodeOneTemp_guarded : Guarded (decodeOneTemp balancings region incremental) := by
  refine .bind (cephDecodePgid_guarded inside) fun pgid => .bind (needFetch32_guarded inside) fun len =>
    .read fun state => ?_
  generalize (findPgMapping state.data.pgTemp pgid).isSome = known
  refine .noted (fun sound => ?_) fun unsound => ?_
  · refine .bind (.record _) fun _ => ?_
    rw [if_neg (temp_sound_iff.mp sound)]
    split
    · intro state calm
      refine Triple.bind _ (need_ahead inside calm) fun _ _ ahead => ?_
      split
      · exact Triple.fail ahead.calm.sound
      · refine Triple.bind (fun _ after => Ahead region (len.toNat * 4) after)
          (Triple.allocate (fun _ => ⟨ahead.calm.of_eq rfl rfl, ahead.room⟩) ahead.calm.sound) fun _ _ ahead => ?_
        refine Triple.bind _ (ahead.reads (fetchOsd_consumes.gather len.toNat) (Nat.add_zero _))
          fun osds middle ahead =>
          Triple.read ?_
        split
        · exact Triple.fail ahead.calm.sound
        · exact Guarded.record _ _ ahead.calm
    · exact .pure _
  · refine .record ?_
    rw [if_pos (not_not.mp fun other => unsound (temp_sound_iff.mpr other))]
    exact .bug

theorem decodePgTemp_guarded : Guarded (decodePgTemp balancings region incremental) :=
  .bind (needFetch32_guarded inside) fun _ => .times (decodeOneTemp_guarded inside) _

theorem decodeOnePrimary_guarded : Guarded (decodeOnePrimary balancings region incremental) := by
  refine .bind (cephDecodePgid_guarded inside) fun pgid => .bind (needFetch32_guarded inside) fun osd =>
    .read fun state => ?_
  generalize (findPgMapping state.data.primaryTemp pgid).isSome = known
  refine .noted (fun sound => ?_) fun unsound => ?_
  · refine .bind (.record _) fun _ => ?_
    rw [if_neg (temp_sound_iff.mp sound)]
    split
    · refine .bind (.allocate _ _) fun _ => .read fun state => ?_
      split
      · exact .fail _
      · exact .record _
    · exact .pure _
  · refine .record ?_
    rw [if_pos (not_not.mp fun other => unsound (temp_sound_iff.mpr other))]
    exact .bug

theorem decodePrimaryTemp_guarded : Guarded (decodePrimaryTemp balancings region incremental) :=
  .bind (needFetch32_guarded inside) fun _ => .times (decodeOnePrimary_guarded inside) _

end

theorem setPrimaryAffinity_guarded : Guarded (setPrimaryAffinity balancings osd aff) := by
  refine .read fun state => .noted (fun sound => ?_) fun unsound => ?_
  · rw [if_neg (UInt32.not_le.mpr sound)]
    exact .bind (.read fun _ => .onlyIf (.bind (.allocate _ _) fun _ => .record _)) fun _ => .record _
  · rw [if_pos (UInt32.not_lt.mp unsound)]
    exact .bug

theorem setPrimaryAffinity_stays : Triple (setPrimaryAffinity balancings osd aff) state
    (fun _ after => after.pos = state.pos) fun _ _ => True := by
  refine Triple.read (Triple.bind (fun _ after => after.pos = state.pos) (Triple.note rfl) fun _ noted same => ?_)
  split
  · exact Triple.throw trivial
  · refine Triple.bind (fun _ after => after.pos = state.pos) ?_ fun _ _ same => Triple.modify same
    refine Triple.read ?_
    unfold onlyIf
    split
    · exact Triple.bind (fun _ after => after.pos = state.pos) (Triple.allocate (fun _ => same) trivial)
        fun _ _ same => Triple.modify same
    · exact Triple.pure same

theorem decodeAffinities_triple (count : Nat) : ∀ {i : UInt32} {state : Reading MapNote TreeMap},
    Ahead region (count * 4) state →
    Triple (decodeAffinities balancings region count i) state (fun _ after => Calm after) Ends := by
  induction count with
  | zero => exact fun ahead => Triple.pure ahead.calm
  | succ count ih =>
    intro i state ahead
    refine Triple.bind _ (@Ahead.reads _ _ _ _ _ _ (count * 4) ahead Consumes.fetch32 (by omega))
      fun aff middle ahead =>
      ?_
    refine Triple.bind (fun _ after => Ahead region (count * 4) after) ?_ fun _ _ ahead => ih ahead
    refine (Triple.both (setPrimaryAffinity_guarded middle ahead.calm) setPrimaryAffinity_stays).mono
      (fun _ after kept => ⟨kept.1, ?_⟩) fun _ _ ended => ended.1
    rw [kept.2]
    exact ahead.room

theorem decodePrimaryAffinity_guarded (inside : region.finish ≤ region.memory.length) :
    Guarded (decodePrimaryAffinity balancings region) := by
  refine .bind (needFetch32_guarded inside) fun len => ?_
  split
  · exact .record _
  · refine .read fun state => ?_
    split
    · exact .fail _
    · exact fun _ calm => Triple.bind _ (need_ahead inside calm) fun _ _ ahead => decodeAffinities_triple _ ahead

theorem decodeNewPrimaryAffinity_guarded (inside : region.finish ≤ region.memory.length) :
    Guarded (decodeNewPrimaryAffinity balancings region) :=
  .bind (needFetch32_guarded inside) fun _ => .times (.bind (needFetch32_guarded inside) fun _ =>
    .bind (needFetch32_guarded inside) fun _ => setPrimaryAffinity_guarded) _

theorem checkMaxOsd_triple {total left : Nat} (ahead : Ahead region total state) (sum : 4 + left = total) :
    Triple (checkMaxOsd region) state (fun _ after => Ahead region left after) Ends := by
  refine Triple.bind _ (ahead.reads Consumes.fetch32 sum) fun len middle ahead => Triple.read ?_
  split
  · exact Triple.fail ahead.calm.sound
  · exact Triple.pure ahead

theorem record_ahead (ahead : Ahead region count state) :
    Triple (record balancings change) state (fun _ after => Ahead region count after) Ends :=
  Triple.modify ⟨(@Calm.notes _ ahead.calm (.update change) trivial).of_eq rfl rfl, ahead.room⟩

/-- One check is for the three arrays. -/
theorem decodeOsds_guarded (inside : region.finish ≤ region.memory.length) : Guarded (decodeOsds balancings region) :=
    by
  refine .read fun start => fun state calm => ?_
  generalize start.data.maxOsd.toNat = maxOsd
  unfold sizeofCephEntityAddr
  refine Triple.bind _ (need_ahead inside calm) fun _ _ ahead => ?_
  refine Triple.bind _ (@checkMaxOsd_triple _ _ _ (8 + maxOsd * 141) ahead (by omega)) fun _ _ ahead => ?_
  refine Triple.bind _ (@Ahead.reads _ _ _ _ _ _ (8 + maxOsd * 140) ahead (Consumes.fetch maxOsd) (by omega))
    fun states _ ahead => ?_
  refine Triple.bind _ (record_ahead ahead) fun _ _ ahead => ?_
  refine Triple.bind _ (@checkMaxOsd_triple _ _ _ (4 + maxOsd * 140) ahead (by omega)) fun _ _ ahead => ?_
  refine Triple.bind _ (@Ahead.reads _ _ _ _ _ _ (4 + maxOsd * 136) ahead (Consumes.fetch32.gather maxOsd) (by omega))
    fun weights _ ahead => ?_
  refine Triple.bind _ (record_ahead ahead) fun _ _ ahead => ?_
  refine Triple.bind _ (@checkMaxOsd_triple _ _ _ (maxOsd * 136) ahead (by omega)) fun _ _ ahead => ?_
  refine Triple.bind _ (ahead.reads ((Consumes.fetch 136).gather maxOsd) (Nat.add_zero _)) fun addrs _ ahead => ?_
  exact Guarded.record _ _ ahead.calm

theorem crushAt_guarded : Guarded (crushAt region len) := by
  refine .read fun state => .bind (fun before calm => ?_) fun _ => .pure _
  unfold Triple nested
  split
  · next result after ran =>
      split at ran
      · cases ran
        exact calm.of_eq rfl rfl
      · cases ran
      · cases ran
  · next fault after ran =>
      split at ran
      · cases ran
      · cases ran
        exact calm.sound
      · cases ran
        exact calm.sound

section

variable (inside : region.finish ≤ region.memory.length)
include inside

theorem decodeCrush_guarded : Guarded (decodeCrush balancings region) := by
  refine .bind (needFetch32_guarded inside) fun len => .bind crushAt_guarded fun crush => .bind (.skip _) fun _ => ?_
  split
  · exact .pure _
  · exact .record _

theorem decodeHeader_guarded : Guarded (decodeHeader balancings region) := by
  intro state calm
  refine Triple.bind _ (need_ahead inside calm) fun _ _ ahead => ?_
  refine Triple.bind _ (@Ahead.reads _ _ _ _ _ _ 20 ahead (Consumes.fetch 16) rfl) fun _ _ ahead => ?_
  refine Triple.bind _ (@Ahead.reads _ _ _ _ _ _ 16 ahead Consumes.fetch32 rfl) fun _ _ ahead => ?_
  refine Triple.bind _ (@Ahead.reads _ _ _ _ _ _ 8 ahead (Consumes.fetch 8) rfl) fun _ _ ahead => ?_
  refine Triple.bind _ (@Ahead.reads _ _ _ _ _ _ 0 ahead (Consumes.fetch 8) rfl) fun _ _ ahead => ?_
  exact Guarded.record _ _ ahead.calm

theorem decodeMappings_guarded : Guarded (decodeMappings balancings region structV) := by
  refine .bind (decodePgTemp_guarded inside) fun _ => .bind (.onlyIf (decodePrimaryTemp_guarded inside)) fun _ => ?_
  split
  · exact decodePrimaryAffinity_guarded inside
  · exact .record _

end

theorem cephOsdmapDecode_guarded (inside : region.finish ≤ region.memory.length) (nonneg : 0 ≤ region.finish) :
    Guarded (cephOsdmapDecode balancings region) := by
  refine .bind (.allocate _ _) fun _ => .bind (getOsdmapClientDataV_guarded inside) fun structV =>
    .bind (decodeHeader_guarded inside) fun _ => .bind (decodePools_guarded inside) fun _ =>
    .bind (decodePoolNames_guarded inside) fun _ => .bind ?_ fun _ => .bind (decodeMappings_guarded inside) fun _ =>
    .bind (decodeCrush_guarded inside) fun _ => .jump nonneg
  exact .bind (needFetch32_guarded inside) fun _ => .bind (.record _) fun _ => .bind (needFetch32_guarded inside)
    fun _ =>
    .bind (.record _) fun _ => .bind (needFetch32_guarded inside) fun _ => .bind osdmapSetMaxOsd_guarded fun _ =>
    decodeOsds_guarded inside

theorem decodeNewCrush_guarded (inside : region.finish ≤ region.memory.length) : Guarded (decodeNewCrush region) := by
  refine .bind (needFetch32_guarded inside) fun len => ?_
  split
  next positive =>
    refine .bind crushAt_guarded fun crush => .bind ?_ fun _ => .pure _
    exact fun _ calm => Triple.skip (calm.move (Int.le_of_lt positive))
  next => exact .pure _

theorem decodeNewSizes_guarded (inside : region.finish ≤ region.memory.length)
    : Guarded (decodeNewSizes balancings region newPoolMax newFlags) :=
  .bind (.onlyIf (.record _)) fun _ => .bind (.onlyIf (.record _)) fun _ => .bind (needFetch32_guarded inside) fun _ =>
    .onlyIf osdmapSetMaxOsd_guarded

theorem advance_guarded {newcrush : Option Crush.CrushMap} : Guarded (advance balancings modified newcrush) := by
  refine .bind (.record _) fun _ => ?_
  split
  · exact .pure _
  · exact .record _

theorem decodeOldPool_guarded (inside : region.finish ≤ region.memory.length) :
    Guarded (decodeOldPool balancings region) := by
  refine .bind (needFetch64_guarded inside) fun pool => .read fun state => ?_
  split
  · exact .pure _
  · exact .record _

theorem decodeNewUp_guarded (inside : region.finish ≤ region.memory.length) :
    Guarded (decodeNewUp balancings region) := by
  refine .bind (needFetch32_guarded inside) fun osd => fun state calm => ?_
  refine Triple.bind _ (need_ahead inside calm) fun _ _ ahead => ?_
  refine Triple.bind _ (ahead.reads (Consumes.fetch sizeofCephEntityAddr) (Nat.add_zero _)) fun addr state ahead => ?_
  refine (Guarded.read fun state => .noted (fun sound => ?_) fun unsound => ?_ : Guarded _) state ahead.calm
  · rw [if_neg (UInt32.not_le.mpr sound)]
    exact .record _
  · rw [if_pos (UInt32.not_lt.mp unsound)]
    exact .bug

/-- The byte of a state is read without a check. -/
theorem decodeNewState_guarded (whole : region.finish = region.memory.length) :
    Guarded (decodeNewState balancings region) := by
  refine .bind (needFetch32_guarded (Int.le_of_eq whole)) fun osd => fun state calm => Triple.read ?_
  have nonneg := calm.nonneg
  refine Triple.bind (fun _ after => after = { state with trail := .state (region.finish - state.pos) :: state.trail })
    (Triple.note rfl) fun _ noted same => ?_
  subst same
  refine Triple.bind (fun _ after => Calm after) ?_ fun xorstate _ calm => (Guarded.onlyIf (.record _)) _ calm
  refine Triple.bind (fun _ after => Calm after) (Triple.fetch (fun low high => ?_) fun outside => ?_)
    fun _ _ calm => Triple.pure calm
  · change state.pos + 1 ≤ region.memory.length at high
    have room : (MapNote.state (region.finish - state.pos)).Sound := by
      change 1 ≤ region.finish - state.pos
      omega
    exact (calm.notes room).move (by decide)
  · refine ⟨_, mem_cons_self, fun room => outside ⟨nonneg, ?_⟩⟩
    change 1 ≤ region.finish - state.pos at room
    change state.pos + 1 ≤ region.memory.length
    omega

theorem decodeNewWeight_guarded (inside : region.finish ≤ region.memory.length) :
    Guarded (decodeNewWeight balancings region) := by
  intro state calm
  refine Triple.bind _ (need_ahead inside calm) fun _ _ ahead => ?_
  refine Triple.bind _ (@Ahead.reads _ _ _ _ _ _ 4 ahead Consumes.fetch32 rfl) fun osd _ ahead => ?_
  refine Triple.bind _ (@Ahead.reads _ _ _ _ _ _ 0 ahead Consumes.fetch32 rfl) fun off state ahead => ?_
  exact (Guarded.read fun _ => .onlyIf (.record _) : Guarded _) state ahead.calm

section

variable (whole : region.finish = region.memory.length)
include whole

theorem applySections_guarded : Guarded (applySections balancings region structV modified newPoolMax newFlags) := by
  have inside : region.finish ≤ region.memory.length := Int.le_of_eq whole
  refine .bind (decodeNewCrush_guarded inside) fun newcrush => .bind (decodeNewSizes_guarded inside) fun _ =>
    .bind advance_guarded fun _ => .bind (decodePools_guarded inside) fun _ =>
    .bind (decodePoolNames_guarded inside) fun _ =>
    .bind (decodeSection_guarded inside (decodeOldPool_guarded inside)) fun _ =>
    .bind (decodeSection_guarded inside (decodeNewUp_guarded inside)) fun _ =>
    .bind (decodeSection_guarded inside (decodeNewState_guarded whole)) fun _ =>
    .bind (decodeSection_guarded inside (decodeNewWeight_guarded inside)) fun _ => .bind ?_ fun _ => .jump ?_
  · exact .bind (decodePgTemp_guarded inside) fun _ => .bind (.onlyIf (decodePrimaryTemp_guarded inside)) fun _ =>
      .onlyIf (decodeNewPrimaryAffinity_guarded inside)
  · exact whole ▸ Int.natCast_nonneg _

/-- The notes of a full map in an incremental are kept. -/
theorem embeddedMap_guarded (positive : 0 < len) : Guarded (embeddedMap balancings region len) := by
  intro state calm
  have nonneg := calm.nonneg
  have start : Calm (mapStart state.pos state.allocs .blank) := ⟨nonneg, forall_mem_nil _⟩
  have decoded := @cephOsdmapDecode_guarded balancings { region with finish := min (state.pos + len) region.finish }
    (by simp only; lia) (by simp only; lia) _ start
  have joined {trail : List MapNote} (sound : ∀ entry ∈ trail, entry.Sound) :
      ∀ entry ∈ trail.filter (! ·.isUpdate) ++ state.trail, entry.Sound := by
    intro entry member
    rcases List.mem_append.mp member with inner | outer
    · exact sound entry (mem_of_mem_filter inner)
    · exact calm.sound entry outer
  have kept {trail : List MapNote} (unsound : ∃ entry ∈ trail, ¬entry.Sound) :
      ∃ entry ∈ trail.filter (! ·.isUpdate) ++ state.trail, ¬entry.Sound := by
    obtain ⟨entry, member, wrong⟩ := unsound
    refine ⟨entry, mem_append_left _ (List.mem_filter.mpr ⟨member, ?_⟩), wrong⟩
    cases entry with
    | update change => exact absurd trivial wrong
    | pool | state | osd | temp | epoch => rfl
  refine Triple.read (Triple.bind (fun _ after => Calm after) ?_ fun _ _ calm => Triple.pure calm)
  unfold Triple nested
  unfold Triple mapStart at decoded
  generalize cephOsdmapDecode balancings { region with finish := min (state.pos + len) region.finish }
    { pos := state.pos, allocs := state.allocs, trail := [], data := .blank } = ran at decoded ⊢
  cases ran with
  | ok result after => exact ⟨nonneg, joined decoded.sound⟩
  | error reason after =>
    cases reason with
    | error code => exact joined decoded
    | damage damage =>
      cases damage with
      | nested => exact joined decoded
      | read | write | bug => exact kept decoded

theorem osdmapApplyIncremental_guarded : Guarded (osdmapApplyIncremental balancings region) := by
  have inside : region.finish ≤ region.memory.length := Int.le_of_eq whole
  refine .bind (getOsdmapClientDataV_guarded inside) fun structV => fun state calm => ?_
  refine Triple.bind _ (need_ahead inside calm) fun _ _ ahead => ?_
  refine Triple.bind _ (@Ahead.reads _ _ _ _ _ _ 24 ahead (Consumes.fetch 16) rfl) fun _ _ ahead => ?_
  refine Triple.bind _ (@Ahead.reads _ _ _ _ _ _ 20 ahead Consumes.fetch32 rfl) fun epoch state ahead => Triple.read ?_
  by_cases follows : epoch = state.data.epoch + 1
  · refine Triple.bind (fun _ after => Ahead region 20 after) (Triple.note ⟨ahead.calm.notes follows, ahead.room⟩)
      fun _ _ ahead => ?_
    rw [if_neg (not_not.mpr follows)]
    refine Triple.bind _ (@Ahead.reads _ _ _ _ _ _ 12 ahead (Consumes.fetch 8) rfl) fun modified _ ahead => ?_
    refine Triple.bind _ (@Ahead.reads _ _ _ _ _ _ 4 ahead Consumes.fetch64 rfl) fun newPoolMax _ ahead => ?_
    refine Triple.bind _ (@Ahead.reads _ _ _ _ _ _ 0 ahead Consumes.fetch32 rfl) fun newFlags state ahead => ?_
    refine (Guarded.bind (needFetch32_guarded inside) fun len => ?_) state ahead.calm
    split
    next positive => exact .bind (embeddedMap_guarded whole positive) fun _ => .pure _
    next => exact .bind (applySections_guarded whole) fun _ => .pure _
  · refine Triple.bind (fun _ after =>
      after = { state with trail := .epoch epoch (state.data.epoch + 1) :: state.trail })
      (Triple.note rfl) fun _ noted same => ?_
    subst same
    rw [if_pos follows]
    exact Triple.throw ⟨_, mem_cons_self, follows⟩

end

end

def ReadsMessage {α : Type} (result : EStateM.Result Stop (Reading MapNote TreeMap) α) : Prop :=
  ∀ damage, faultOf result = some (.damage damage) → damage = .nested

/-- The decoders of maps read only the message and fail no assertion exactly where everything that is met is sound. -/
theorem map_decoding_inside (balancings : Balancings) (message : List UInt8) (allocs : List Bool) (map : TreeMap) :
    (let full := cephOsdmapDecode balancings (messageRegion message) (mapStart 0 allocs .blank)
     ReadsMessage full ↔ ∀ entry ∈ (finalState full).trail, entry.Sound) ∧
    (let incremental := osdmapApplyIncremental balancings (messageRegion message) (mapStart 0 allocs map)
     ReadsMessage incremental ↔ ∀ entry ∈ (finalState incremental).trail, entry.Sound) := by
  have decides {α : Type} {program : MapDecoder α} (guarded : Guarded program) (start : TreeMap) :
      ReadsMessage (program (mapStart 0 allocs start)) ↔
        ∀ entry ∈ (finalState (program (mapStart 0 allocs start))).trail, entry.Sound := by
    have triple := guarded (mapStart 0 allocs start) ⟨Int.le_refl 0, forall_mem_nil _⟩
    unfold Triple at triple
    cases ran : program (mapStart 0 allocs start) with
    | ok result after =>
      rw [ran] at triple
      exact ⟨fun _ => triple.sound, fun _ _ never => nomatch never⟩
    | error reason after =>
      rw [ran] at triple
      cases reason with
      | error code => exact ⟨fun _ => triple, fun _ _ never => nomatch never⟩
      | damage damage =>
        cases damage with
        | nested =>
          refine ⟨fun _ => triple, fun _ damage same => ?_⟩
          cases same
          rfl
        | read | write | bug =>
          obtain ⟨entry, member, wrong⟩ := triple
          exact ⟨fun reads => (nomatch reads _ rfl), fun sound => absurd (sound entry member) wrong⟩
  exact ⟨decides (cephOsdmapDecode_guarded (Int.le_refl _) (Int.natCast_nonneg _)) _,
    decides (osdmapApplyIncremental_guarded rfl) _⟩

def appliedTo (map : TreeMap) (message : List UInt8) :
    EStateM.Result Stop (Reading MapNote TreeMap) (Option TreeMap) :=
  osdmapApplyIncremental .small (messageRegion message) (mapStart 0 [] map)

def statelessMessage : List UInt8 := (incrementalMessage (leBytes 4 0) (leBytes 4 1 ++ leBytes 4 0) []).take 78

def strangerMessage : List UInt8 :=
  incrementalMessage (leBytes 4 1 ++ leBytes 4 1 ++ replicate 136 7) (leBytes 4 0) (leBytes 4 0)

def hollowMessage : List UInt8 :=
  (fullMessage (leBytes 4 1 ++ leBytes 8 1 ++ [5, 5] ++ leBytes 4 0) 1 (leBytes 4 0) emptyCrush).take 56

theorem map_decoding_outside :
    faultOf (appliedTo downMap statelessMessage) = some (.damage .read) ∧
    faultOf (appliedTo downMap strangerMessage) = some (.damage .bug) ∧
    faultOf (cephOsdmapDecode .small (messageRegion hollowMessage) (mapStart 0 [] .blank)) = some (.damage .read) ∧
    ¬∀ (balancings : Balancings) (message : List UInt8) (allocs : List Bool) (map : TreeMap),
      ReadsMessage (cephOsdmapDecode balancings (messageRegion message) (mapStart 0 allocs .blank)) ∧
      ReadsMessage (osdmapApplyIncremental balancings (messageRegion message) (mapStart 0 allocs map)) := by
  have stateless : faultOf (appliedTo downMap statelessMessage) = some (.damage .read) := by decide +kernel
  refine ⟨stateless, by decide +kernel, by decide +kernel, fun claim => ?_⟩
  exact nomatch (claim .small statelessMessage [] downMap).2 _ stateless

end KmodCeph.Osdmap
