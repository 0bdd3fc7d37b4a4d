import KmodCeph.Crush.Decode

namespace KmodCeph.Crush

open Lib Nat

/-- No 32-bit product is smaller than what is read where the room decides, and
no name has a length that is negative as an `int`. -/
def DecodeNote.Sound : DecodeNote → Prop
  | .bucket alg size room =>
    if alg = crushBucketUniform then ((1 + size).toNat * 4 : Int) ≤ room → 4 ≤ room
    else if alg = crushBucketTree then True
    else ((2 * size).toNat * 4 : Int) ≤ room → (size.toNat * 8 : Int) ≤ room
  | .rule len room => ((len * 3).toNat * 4 : Int) ≤ room → (len.toNat * 12 : Int) ≤ room
  | .name strlen _ _ => strlen.toNat < 2 ^ 31

def DecodeNote.Forward : DecodeNote → Prop
  | .bucket _ _ _ => True
  | .rule _ _ => True
  | .name _ before after => before ≤ after

structure Calm (state : Reading DecodeNote Int) : Prop where
  nonneg : 0 ≤ state.pos
  sound : ∀ entry ∈ state.trail, entry.Sound
  forward : ∀ entry ∈ state.trail, entry.Forward

def Tainted (state : Reading DecodeNote Int) : Prop :=
  ∃ entry ∈ state.trail, ¬ entry.Sound ∧ ¬ entry.Forward

def Settled (state : Reading DecodeNote Int) : Prop := Calm state ∨ Tainted state

def Ends (reason : Stop) (state : Reading DecodeNote Int) : Prop :=
  match reason with
  | .error _ => Settled state
  | .damage _ => ∃ entry ∈ state.trail, ¬ entry.Sound

section

variable {region : Region} {state : Reading DecodeNote Int} {α : Type}

theorem Calm.move (calm : Calm state) {distance : Int} (ahead : 0 ≤ distance) :
    Calm { state with pos := state.pos + distance } := by
  refine ⟨?_, calm.sound, calm.forward⟩
  have nonneg := calm.nonneg
  simp only
  omega

theorem Calm.notes (calm : Calm state) {entry : DecodeNote} (sound : entry.Sound) (forward : entry.Forward) :
    Calm { state with trail := entry :: state.trail } := by
  refine ⟨calm.nonneg, fun other member => ?_, fun other member => ?_⟩
  · rcases List.mem_cons.mp member with rfl | member
    · exact sound
    · exact calm.sound other member
  · rcases List.mem_cons.mp member with rfl | member
    · exact forward
    · exact calm.forward other member

variable {code : Int} {count : Nat} {program : Decoder α} {β : Type} {b : Bucket} {c : CrushMap}
variable {next : α → Decoder β}

section

variable {post : PUnit → Reading DecodeNote Int → Prop}
variable (whole : region.finish = region.memory.length) (calm : Calm state)
variable (room : state.pos + count ≤ region.memory.length → post ⟨⟩ state)
include whole calm room

theorem Calm.needs : Triple (need region code count) state post Ends := by
  refine Triple.need (fun enough => room ?_) fun _ => .inl calm
  simp only [Region.hasRoom, decide_eq_true_eq] at enough
  omega

theorem Calm.needsOrBad : Triple (needOrBad region count) state post Ends :=
  Triple.read (calm.needs whole room)

end

theorem Calm.allocates (calm : Calm state) {size : Nat} {post : PUnit → Reading DecodeNote Int → Prop}
    (holds : post ⟨⟩ { state with allocs := state.allocs.tail }) : Triple (allocate code size) state post Ends :=
  Triple.allocate (fun _ => holds) (.inl ⟨calm.nonneg, calm.sound, calm.forward⟩)

theorem Calm.fetches (calm : Calm state) {post : α → Reading DecodeNote Int → Prop}
    (reads : Consumes region count program) (inside : state.pos + count ≤ region.memory.length)
    (holds : ∀ result, Calm { state with pos := state.pos + count } →
      post result { state with pos := state.pos + count }) : Triple program state post Ends :=
  reads.triple calm.nonneg inside fun result => holds result (calm.move (by omega))

theorem fetchInt_consumes : Consumes region 4 (fetchInt region) := Consumes.fetch32.map _

theorem fetchPair_consumes : Consumes region 8 (fetchPair region) :=
  Consumes.bind Consumes.fetch32 fun _ => Consumes.fetch32.map _

theorem fetchBucket_consumes : Consumes region 16 (fetchBucket region) :=
  Consumes.bind fetchInt_consumes fun _ => Consumes.bind Consumes.fetch16 fun _ => Consumes.bind Consumes.fetch8 fun _ =>
    Consumes.bind Consumes.fetch8 fun _ => Consumes.bind Consumes.fetch32 fun _ => Consumes.fetch32.map _

theorem fetchMask_consumes : Consumes region 4 (fetchMask region) :=
  Consumes.bind Consumes.fetch8 fun _ => Consumes.bind Consumes.fetch8 fun _ => Consumes.bind Consumes.fetch8 fun _ =>
    Consumes.fetch8.map _

theorem fetchStep_consumes : Consumes region 12 (fetchStep region) :=
  Consumes.bind Consumes.fetch32 fun _ => Consumes.bind fetchInt_consumes fun _ => fetchInt_consumes.map _

/-- What follows a check that is noted: the read is covered, or the note says that
it is not. -/
theorem Calm.checked (whole : region.finish = region.memory.length) (calm : Calm state)
    {entry : DecodeNote} {checked used : Nat} {post : β → Reading DecodeNote Int → Prop}
    (sound : entry.Sound ↔ ((checked : Int) ≤ region.finish - state.pos → (used : Int) ≤ region.finish - state.pos))
    (forward : entry.Forward) (reads : Consumes region used program)
    (continues : ∀ result after, Calm after → Triple (next result) after post Ends) :
    Triple (need region code checked >>= fun _ => program >>= next)
      { state with trail := entry :: state.trail } post Ends := by
  have nonneg := calm.nonneg
  by_cases fits : entry.Sound
  · have covered := sound.mp fits
    have noted := calm.notes fits forward
    refine Triple.bind (fun _ after => after = { state with trail := entry :: state.trail } ∧
      state.pos + checked ≤ region.memory.length) (noted.needs whole fun room => ⟨rfl, room⟩) fun _ after kept => ?_
    obtain ⟨rfl, room⟩ := kept
    refine Triple.bind (fun _ after => Calm after) (noted.fetches reads ?_ fun _ moved => moved)
      fun result after kept => continues result after kept
    simp only
    lia
  · rw [sound, Classical.not_imp] at fits
    obtain ⟨passes, missing⟩ := fits
    have spoiled : ¬ entry.Sound := fun claimed => missing (sound.mp claimed passes)
    refine Triple.bind (fun _ after => after = { state with trail := entry :: state.trail })
      (Triple.need (fun _ => rfl) fun short => ?_) fun _ after kept => ?_
    · refine absurd ?_ short
      simp only [Region.hasRoom, decide_eq_true_eq]
      lia
    · subst kept
      refine reads.damaged nonneg (by simp only; omega) (by simp only; omega) fun pos => ?_
      exact ⟨entry, List.mem_cons_self, spoiled⟩

theorem crushDecodeUniformBucket_triple (whole : region.finish = region.memory.length) (calm : Calm state)
    (alg : b.alg = crushBucketUniform) :
    Triple (crushDecodeUniformBucket region b) state (fun _ after => Calm after) Ends := by
  refine Calm.checked whole calm ?_ trivial Consumes.fetch32 fun _ after kept => Triple.pure kept
  simp only [DecodeNote.Sound, alg, if_true, cast_mul, cast_ofNat]

theorem weights_triple (whole : region.finish = region.memory.length) (calm : Calm state) {b : Bucket}
    (alg : b.alg = crushBucketList ∨ b.alg = crushBucketStraw) (store : List (UInt32 × UInt32) → Bucket) :
    Triple (do
      needWeights region b ((2 * b.size).toNat * 4)
      let weights ← gather b.size.toNat (fetchPair region)
      pure (store weights)) state (fun _ after => Calm after) Ends := by
  refine Calm.checked whole calm ?_ trivial (fetchPair_consumes.gather b.size.toNat) fun _ after kept => Triple.pure kept
  have uniform : b.alg ≠ crushBucketUniform := by
    rcases alg with alg | alg <;> rw [alg] <;> decide
  have tree : b.alg ≠ crushBucketTree := by
    rcases alg with alg | alg <;> rw [alg] <;> decide
  simp only [DecodeNote.Sound, uniform, tree, if_false, cast_mul, cast_ofNat]

theorem crushDecodeListBucket_triple (whole : region.finish = region.memory.length) (calm : Calm state)
    (alg : b.alg = crushBucketList) :
    Triple (crushDecodeListBucket region b) state (fun _ after => Calm after) Ends := by
  refine Triple.bind (fun _ after => Calm after) (calm.allocates ⟨calm.nonneg, calm.sound, calm.forward⟩)
    fun _ first calm => ?_
  refine Triple.bind (fun _ after => Calm after) (calm.allocates ⟨calm.nonneg, calm.sound, calm.forward⟩)
    fun _ second calm => ?_
  exact weights_triple whole calm (.inl alg) _

theorem crushDecodeStrawBucket_triple (whole : region.finish = region.memory.length) (calm : Calm state)
    (alg : b.alg = crushBucketStraw) :
    Triple (crushDecodeStrawBucket region b) state (fun _ after => Calm after) Ends := by
  refine Triple.bind (fun _ after => Calm after) (calm.allocates ⟨calm.nonneg, calm.sound, calm.forward⟩)
    fun _ first calm => ?_
  refine Triple.bind (fun _ after => Calm after) (calm.allocates ⟨calm.nonneg, calm.sound, calm.forward⟩)
    fun _ second calm => ?_
  exact weights_triple whole calm (.inr alg) _

theorem Calm.reads (whole : region.finish = region.memory.length) (calm : Calm state) {β : Type} {code : Int}
    {count : Nat} {program : Decoder α} {next : α → Decoder β} {post : β → Reading DecodeNote Int → Prop}
    (reads : Consumes region count program)
    (continues : ∀ result after, Calm after → Triple (next result) after post Ends) :
    Triple (need region code count >>= fun _ => program >>= next) state post Ends := by
  refine Triple.bind (fun _ after => after = state ∧ state.pos + count ≤ region.memory.length)
    (calm.needs whole fun room => ⟨rfl, room⟩) fun _ after kept => ?_
  obtain ⟨rfl, room⟩ := kept
  exact Triple.bind (fun _ after => Calm after) (calm.fetches reads room fun _ moved => moved) continues

section

variable (whole : region.finish = region.memory.length) (calm : Calm state)
include whole calm

theorem Calm.readsOrBad {post : β → Reading DecodeNote Int → Prop} (reads : Consumes region count program)
    (continues : ∀ result after, Calm after → Triple (next result) after post Ends) :
    Triple (needOrBad region count >>= fun _ => program >>= next) state post Ends :=
  calm.reads whole reads continues

theorem crushDecodeTreeBucket_triple :
    Triple (crushDecodeTreeBucket region b) state (fun _ after => Calm after) Ends := by
  refine calm.reads whole Consumes.fetch32 fun numNodes after calm => ?_
  refine Triple.bind (fun _ after => Calm after) (calm.allocates ⟨calm.nonneg, calm.sound, calm.forward⟩)
    fun _ second calm => ?_
  exact calm.reads whole (Consumes.fetch32.gather _) fun _ after calm => Triple.pure calm

theorem decodeAlg_triple
    (alg : b.alg = crushBucketUniform ∨ b.alg = crushBucketList ∨ b.alg = crushBucketTree ∨ b.alg = crushBucketStraw) :
    Triple (decodeAlg region b) state (fun _ after => Calm after) Ends := by
  unfold decodeAlg
  split
  · exact crushDecodeUniformBucket_triple whole calm ‹_›
  · split
    · exact crushDecodeListBucket_triple whole calm ‹_›
    · split
      · exact crushDecodeTreeBucket_triple whole calm
      · exact crushDecodeStrawBucket_triple whole calm (by tauto)

theorem decodeBucket_triple : Triple (decodeBucket region) state (fun _ after => Calm after) Ends := by
  refine calm.readsOrBad whole Consumes.fetch32 fun alg after calm => ?_
  split
  · exact Triple.pure calm
  · split
    · exact Triple.fail (.inl calm)
    · refine Triple.bind (fun _ after => Calm after) (calm.allocates ⟨calm.nonneg, calm.sound, calm.forward⟩)
        fun _ _ calm => ?_
      refine calm.readsOrBad whole fetchBucket_consumes fun b after calm => ?_
      refine Triple.bind (fun _ after => Calm after) (calm.allocates ⟨calm.nonneg, calm.sound, calm.forward⟩)
        fun _ _ calm => ?_
      refine Triple.bind (fun _ after => Calm after) (calm.allocates ⟨calm.nonneg, calm.sound, calm.forward⟩)
        fun _ _ calm => ?_
      refine calm.readsOrBad whole (fetchInt_consumes.gather _) fun items after calm => ?_
      dsimp only
      split
      · rename_i alg
        refine Triple.bind (fun _ after => Calm after) (decodeAlg_triple whole calm alg) fun b after calm => ?_
        refine Triple.bind (fun _ after => Calm after) (Triple.modify ⟨calm.nonneg, calm.sound, calm.forward⟩)
          fun _ after calm => ?_
        exact Triple.pure calm
      · exact Triple.pure calm

theorem decodeRule_triple : Triple (decodeRule region) state (fun _ after => Calm after) Ends := by
  refine calm.readsOrBad whole Consumes.fetch32 fun yes after calm => ?_
  split
  · exact Triple.pure calm
  · refine calm.readsOrBad whole Consumes.fetch32 fun len after calm => ?_
    refine Triple.bind (fun _ after => Calm after) (calm.allocates ⟨calm.nonneg, calm.sound, calm.forward⟩)
      fun _ _ calm => ?_
    refine calm.readsOrBad whole fetchMask_consumes fun rule after calm => ?_
    refine Calm.checked whole calm ?_ trivial (fetchStep_consumes.gather len.toNat) fun _ after kept => Triple.pure kept
    simp only [DecodeNote.Sound, cast_mul, cast_ofNat]

end

theorem Tainted.later {after : Reading DecodeNote Int} (tainted : Tainted state) (kept : state.trail ⊆ after.trail) :
    Tainted after := by
  obtain ⟨entry, member, wrong⟩ := tainted
  exact ⟨entry, kept member, wrong⟩

theorem Tainted.triple (tainted : Tainted state) (grows : Grows program) :
    Triple program state (fun _ after => Settled after) Ends := by
  refine (grows state).mono (fun _ _ kept => .inr (tainted.later kept)) fun reason after kept => ?_
  cases reason with
  | error code => exact .inr (tainted.later kept)
  | damage damage =>
    obtain ⟨entry, member, wrong, _⟩ := tainted.later kept
    exact ⟨entry, member, wrong⟩

theorem skipName_grows : Grows (skipName region) :=
  Grows.bind (Grows.skip 4) fun _ => Grows.bind (Grows.need _ _) fun _ => Grows.bind Grows.fetch32 fun _ =>
    Grows.read fun _ => Grows.bind (Grows.note _) fun _ => Grows.skip _

theorem skipNameMap_grows : Grows (skipNameMap region) :=
  Grows.bind (Grows.need _ _) fun _ => Grows.bind Grows.fetch32 fun _ => Grows.times skipName_grows _

theorem decodeTunables_grows (c : CrushMap) : Grows (decodeTunables region c) := by
  refine Grows.read fun _ => ?_
  split
  · refine Grows.bind Grows.fetch32 fun _ => Grows.bind Grows.fetch32 fun _ => Grows.bind Grows.fetch32 fun _ => ?_
    refine Grows.read fun _ => ?_
    split
    · refine Grows.bind Grows.fetch32 fun _ => Grows.read fun _ => ?_
      split
      · exact Grows.bind Grows.fetch8 fun _ => Grows.pure _
      · exact Grows.pure _
    · exact Grows.pure _
  · exact Grows.pure _

theorem toInt32_nonneg_iff (value : UInt32) : 0 ≤ value.toInt32.toInt ↔ value.toNat < 2 ^ 31 := by
  change 0 ≤ value.toBitVec.toInt ↔ value.toBitVec.toNat < 2 ^ 31
  rw [BitVec.toInt_eq_toNat_cond]
  split <;> omega

section

variable (whole : region.finish = region.memory.length)
include whole

theorem skipName_triple (settled : Settled state) :
    Triple (skipName region) state (fun _ after => Settled after) Ends := by
  rcases settled with calm | tainted
  · refine Triple.bind (fun _ after => Calm after) (Triple.skip (calm.move (by decide))) fun _ skipped calm => ?_
    refine calm.reads whole Consumes.fetch32 fun strlen after calm => ?_
    refine Triple.read ?_
    have sign := toInt32_nonneg_iff strlen
    by_cases sound : strlen.toNat < 2 ^ 31
    · have ahead := sign.mpr sound
      have noted := @Calm.notes after calm (.name strlen after.pos (after.pos + strlen.toInt32.toInt)) sound
        (show after.pos ≤ after.pos + strlen.toInt32.toInt by omega)
      exact Triple.bind (fun _ after => Calm after) (Triple.note noted)
        fun _ noted calm => Triple.skip (.inl (calm.move ahead))
    · have behind : ¬ 0 ≤ strlen.toInt32.toInt := fun ahead => sound (sign.mp ahead)
      refine Triple.bind (fun _ after => Tainted after) (Triple.note ⟨_, List.mem_cons_self, sound, ?_⟩)
        fun _ noted tainted => Triple.skip (.inr (tainted.later (List.Subset.refl _)))
      change ¬ after.pos ≤ after.pos + strlen.toInt32.toInt
      omega
  · exact tainted.triple skipName_grows

theorem skipNameMap_triple (settled : Settled state) :
    Triple (skipNameMap region) state (fun _ after => Settled after) Ends := by
  rcases settled with calm | tainted
  · refine calm.reads whole Consumes.fetch32 fun len after calm => ?_
    exact Triple.times Settled (fun _ settled => skipName_triple whole settled) (.inl calm)
  · exact tainted.triple skipNameMap_grows

theorem decodeTunables_triple (settled : Settled state) :
    Triple (decodeTunables region c) state (fun _ after => Settled after) Ends := by
  rcases settled with calm | tainted
  · have inside : ∀ {pos : Int} {count : Nat}, region.hasRoom pos count →
        pos + count ≤ region.memory.length := by
      intro pos count room
      simp only [Region.hasRoom, decide_eq_true_eq] at room
      omega
    refine Triple.read ?_
    split
    · rename_i room
      have room := inside room
      refine Triple.bind (fun _ after => Calm after ∧ after.pos + 8 ≤ region.memory.length)
        (calm.fetches Consumes.fetch32 (by omega) fun _ calm => ⟨calm, by simp only; omega⟩) fun _ first kept => ?_
      refine Triple.bind (fun _ after => Calm after ∧ after.pos + 4 ≤ region.memory.length)
        (kept.1.fetches Consumes.fetch32 (by omega) fun _ calm => ⟨calm, by simp only; omega⟩) fun _ second kept => ?_
      refine Triple.bind (fun _ after => Calm after)
        (kept.1.fetches Consumes.fetch32 (by omega) fun _ calm => calm) fun _ third calm => ?_
      refine Triple.read ?_
      split
      · rename_i room
        refine Triple.bind (fun _ after => Calm after)
          (calm.fetches Consumes.fetch32 (inside room) fun _ calm => calm) fun _ fourth calm => ?_
        refine Triple.read ?_
        split
        · rename_i room
          exact Triple.bind (fun _ after => Calm after)
            (calm.fetches Consumes.fetch8 (inside room) fun _ calm => calm) fun _ fifth calm => Triple.pure (.inl calm)
        · exact Triple.pure (.inl calm)
      · exact Triple.pure (.inl calm)
    · exact Triple.pure (.inl calm)
  · exact tainted.triple (decodeTunables_grows c)

theorem decodeTrailer_triple (calm : Calm state) :
    Triple (decodeTrailer region c) state (fun _ after => Settled after) Ends := by
  refine Triple.bind (fun _ after => Settled after) (Triple.attempt ?_) fun result after settled => ?_
  · refine (Triple.times Settled (fun _ settled => skipNameMap_triple whole settled) (.inl calm)).mono
      (fun _ _ settled => settled) fun reason after ends => ?_
    cases reason <;> exact ends
  · cases result with
    | ok _ => exact decodeTunables_triple whole settled
    | error code => exact Triple.pure settled

theorem decodeMap_triple (calm : Calm state) :
    Triple (decodeMap region) state (fun _ after => Settled after) Ends := by
  refine Triple.bind (fun _ after => Calm after) (calm.allocates ⟨calm.nonneg, calm.sound, calm.forward⟩)
    fun _ _ calm => ?_
  refine Triple.bind (fun _ after => Calm after ∧ after.pos + 16 ≤ region.memory.length)
    (calm.needsOrBad whole fun room => ⟨calm, room⟩) fun _ checked kept => ?_
  refine Triple.bind (fun _ after => Calm after ∧ after.pos + 12 ≤ region.memory.length)
    (kept.1.fetches Consumes.fetch32 (by omega) fun _ calm => ⟨calm, by simp only; omega⟩) fun magic first kept => ?_
  split
  · exact Triple.read (Triple.fail (.inl kept.1))
  · refine Triple.bind (fun _ after => Calm after ∧ after.pos + 8 ≤ region.memory.length)
      (kept.1.fetches Consumes.fetch32 (by omega) fun _ calm => ⟨calm, by simp only; omega⟩) fun _ second kept => ?_
    refine Triple.bind (fun _ after => Calm after ∧ after.pos + 4 ≤ region.memory.length)
      (kept.1.fetches Consumes.fetch32 (by omega) fun _ calm => ⟨calm, by simp only; omega⟩) fun _ third kept => ?_
    refine Triple.bind (fun _ after => Calm after)
      (kept.1.fetches fetchInt_consumes (by omega) fun _ calm => calm) fun _ fourth calm => ?_
    refine Triple.bind (fun _ after => Calm after) (calm.allocates ⟨calm.nonneg, calm.sound, calm.forward⟩)
      fun _ _ calm => ?_
    refine Triple.bind (fun _ after => Calm after) (calm.allocates ⟨calm.nonneg, calm.sound, calm.forward⟩)
      fun _ _ calm => ?_
    refine Triple.bind (fun _ after => Calm after) ?_ fun buckets _ calm => ?_
    · exact (Triple.gather Calm (fun _ calm => (decodeBucket_triple whole calm).weaken
        fun _ _ calm => ⟨trivial, calm⟩) calm).weaken fun _ _ kept => kept.2.2
    refine Triple.bind (fun _ after => Calm after) ?_ fun rules _ calm => ?_
    · exact (Triple.gather Calm (fun _ calm => (decodeRule_triple whole calm).weaken
        fun _ _ calm => ⟨trivial, calm⟩) calm).weaken fun _ _ kept => kept.2.2
    exact decodeTrailer_triple whole calm

end

theorem crushDecode_triple (whole : region.finish = region.memory.length) (calm : Calm state) :
    Triple (crushDecode region) state (fun _ after => Settled after) Ends := by
  refine Triple.bind (fun _ after => Settled after) (Triple.attempt ?_) fun result after settled => ?_
  · refine (decodeMap_triple whole calm).mono (fun _ _ settled => settled) fun reason after ends => ?_
    cases reason <;> exact ends
  · cases result with
    | ok c => exact Triple.pure settled
    | error code =>
      dsimp only
      split
      · exact Triple.pure settled
      · exact Triple.fail settled

def ReadsInside {α : Type} (result : EStateM.Result Stop (Reading DecodeNote Int) α) : Prop :=
  match result with
  | .ok _ after => ∀ entry ∈ after.trail, entry.Forward
  | .error (.error _) after => ∀ entry ∈ after.trail, entry.Forward
  | .error (.damage _) _ => False

def notesOf {α : Type} (result : EStateM.Result Stop (Reading DecodeNote Int) α) : List DecodeNote :=
  match result with
  | .ok _ after => after.trail
  | .error _ after => after.trail

theorem Settled.iff (settled : Settled state) :
    (∀ entry ∈ state.trail, entry.Forward) ↔ ∀ entry ∈ state.trail, entry.Sound := by
  rcases settled with calm | ⟨entry, member, unsound, backward⟩
  · exact ⟨fun _ => calm.sound, fun _ => calm.forward⟩
  · exact ⟨fun forward => absurd (forward entry member) backward, fun sound => absurd (sound entry member) unsound⟩

/-- The section alone is read exactly where everything that is met is sound. -/
theorem crushDecode_inside (memory : List UInt8) (allocs : List Bool) :
    let result := crushDecode ⟨memory, memory.length⟩ (decodeStart allocs)
    ReadsInside result ↔ ∀ entry ∈ notesOf result, entry.Sound := by
  have calm : Calm (decodeStart allocs) := ⟨le_rfl, by simp [decodeStart], by simp [decodeStart]⟩
  have triple := @crushDecode_triple ⟨memory, memory.length⟩ _ rfl calm
  unfold Triple at triple
  generalize crushDecode ⟨memory, memory.length⟩ (decodeStart allocs) = result at triple ⊢
  cases result with
  | ok map after => exact triple.iff
  | error reason after =>
    cases reason with
    | error code => exact triple.iff
    | damage damage =>
      obtain ⟨entry, member, unsound⟩ := triple
      exact ⟨False.elim, fun sound => absurd (sound entry member) unsound⟩

end

theorem crushDecode_damaged {damage : Damage} {after : Reading DecodeNote Int}
    (ran : decodeMap region state = .error (.damage damage) after) : crushDecode region state = .error (.damage damage) after := by
  simp only [crushDecode, attempt, bind, EStateM.bind, ran]

/-- Any damage will do: with the bytes themselves in the goal it would be evaluated by the elaborator. -/
theorem outside_of_damaged (damaged : ∃ memory allocs damage,
      faultOf (decodeMap ⟨memory, memory.length⟩ (decodeStart allocs)) = some (.damage damage)) :
    ¬ ∀ memory allocs, ReadsInside (crushDecode ⟨memory, memory.length⟩ (decodeStart allocs)) := by
  intro inside
  obtain ⟨memory, allocs, damage, ran⟩ := damaged
  have claimed := inside memory allocs
  rw [crushDecode_damaged (eq_error_of_faultOf ran)] at claimed
  exact claimed

def backwardsNames : List UInt8 :=
  leBytes 4 0x10000 ++ leBytes 4 0 ++ leBytes 4 0 ++ leBytes 4 0 ++ leBytes 4 1 ++ leBytes 4 0 ++ leBytes 4 0xffffff00

theorem crushDecode_outside : ¬ ∀ memory allocs, ReadsInside (crushDecode ⟨memory, memory.length⟩ (decodeStart allocs)) :=
  outside_of_damaged ⟨backwardsNames, [], .read, by decide +kernel⟩

end KmodCeph.Crush
