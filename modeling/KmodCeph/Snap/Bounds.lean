import KmodCeph.Snap.Wire

namespace KmodCeph.Snap

open Lib List Nat

section

variable {region : Region} {bad : Prop} {α β : Type}

variable {state : Reading SnapNote SnapMds} {stop : Stop → Reading SnapNote SnapMds → Prop}
variable {pos ri numSplitInos numSplitRealms : Int} {length : Nat} {noted : List SnapNote}
variable {result : Except Int PUnit} {entry : SnapNote} {realm : Ino} {program : SnapDecoder α}

theorem fetch64_triple {post : UInt64 → Reading SnapNote SnapMds → Prop}
    (inside : 0 ≤ state.pos → state.pos + 8 ≤ region.memory.length →
      ∀ value, post value { state with pos := state.pos + 8 })
    (outside : ¬(0 ≤ state.pos ∧ state.pos + 8 ≤ region.memory.length) → stop (.damage .read) state) :
    Triple (fetch64 region) state post stop := by
  refine Triple.bind (fun _ after => ∀ value, post value after) ?_ fun bytes after holds => Triple.pure (holds _)
  exact Triple.fetch (fun low high => inside low high) outside

theorem fetch32_triple {post : UInt32 → Reading SnapNote SnapMds → Prop}
    (inside : 0 ≤ state.pos → state.pos + 4 ≤ region.memory.length →
      ∀ value, post value { state with pos := state.pos + 4 })
    (outside : ¬(0 ≤ state.pos ∧ state.pos + 4 ≤ region.memory.length) → stop (.damage .read) state) :
    Triple (fetch32 region) state post stop := by
  refine Triple.bind (fun _ after => ∀ value, post value after) ?_ fun bytes after holds => Triple.pure (holds _)
  exact Triple.fetch (fun low high => inside low high) outside

/-- What stops a program that notes nothing: an allocation, or damage if it is `bad`. -/
def QuietStop (bad : Prop) (state : Reading SnapNote SnapMds) (reason : Stop) (after : Reading SnapNote SnapMds) :
    Prop :=
  after.trail = state.trail ∧
    match reason with
    | .error code => code = -12
    | .damage _ => bad

def Quiet (bad : Prop) (program : SnapDecoder α) : Prop :=
  ∀ state, Triple program state (fun _ after => after.trail = state.trail) (QuietStop bad state)

theorem Quiet.pure (result : α) : Quiet bad (Pure.pure result : SnapDecoder α) :=
  fun _ => Triple.pure rfl

theorem Quiet.bind {first : SnapDecoder α} {next : α → SnapDecoder β} (quiet : Quiet bad first)
    (continues : ∀ result, Quiet bad (next result)) : Quiet bad (first >>= next) := by
  intro state
  refine Triple.bind _ (quiet state) fun result after same => ?_
  exact (continues result after).mono (fun _ _ kept => kept.trans same) fun reason _ kept => ⟨kept.1.trans same, kept.2⟩

theorem Quiet.read {next : Reading SnapNote SnapMds → SnapDecoder α} (continues : ∀ state, Quiet bad (next state)) :
    Quiet bad (get >>= next) :=
  fun state => Triple.read (continues state state)

theorem Quiet.allocate (size : Nat) : Quiet bad (allocate (-12) size : SnapDecoder PUnit) :=
  fun _ => Triple.allocate (fun _ => rfl) ⟨rfl, rfl⟩

theorem Quiet.setWalk (change : TraceWalk → TraceWalk) : Quiet bad (setWalk change) :=
  fun _ => Triple.modify rfl

theorem Quiet.getSnapRealm (ino : Ino) : Quiet bad (getSnapRealm ino) := by
  refine Quiet.read fun state => ?_
  split
  · exact .pure _
  · exact Quiet.bind (.allocate _) fun _ => Quiet.bind (.setWalk _) fun _ => .pure _

theorem Quiet.adjustParent (ino : Ino) (realm : SnapRealm) (parentIno : Ino) :
    Quiet bad (adjustParent ino realm parentIno) := by
  unfold Snap.adjustParent
  split
  · exact .pure _
  · exact Quiet.bind (.getSnapRealm _) fun _ => Quiet.bind (.setWalk _) fun _ => .pure _

theorem peek64_triple {post : Nat → Reading SnapNote SnapMds → Prop}
    (inside : 0 ≤ pos → pos + 8 ≤ region.memory.length → ∀ value, post value { state with pos := pos + 8 })
    (outside : ¬(0 ≤ pos ∧ pos + 8 ≤ region.memory.length) → stop (.damage .read) { state with pos }) :
    Triple (peek64 region pos) state post stop := by
  refine Triple.bind (fun _ after => after = { state with pos }) (Triple.modify rfl) ?_
  rintro ⟨⟩ after rfl
  refine Triple.bind (fun _ after => ∀ value, post value after) ?_ fun value after holds => Triple.pure (holds _)
  exact fetch64_triple (fun low high _ => inside low high) outside

theorem Quiet.peek64 (inside : ¬bad → 0 ≤ pos ∧ pos + 8 ≤ region.memory.length) : Quiet bad (peek64 region pos) :=
  fun _ => peek64_triple (fun _ _ _ => rfl) fun outside => ⟨rfl, by_contra fun good => outside (inside good)⟩

theorem Quiet.dupArray {src : Int} {num : UInt32}
    (inside : ¬bad → 0 ≤ src ∧ src + 8 * num.toNat ≤ region.memory.length) : Quiet bad (dupArray region src num) := by
  unfold Snap.dupArray
  split
  · exact .pure _
  · refine Quiet.bind (.allocate _) fun _ state => ?_
    refine Triple.bind (fun _ after => after = { state with pos := src }) (Triple.modify rfl) ?_
    rintro ⟨⟩ after rfl
    refine Triple.bind (fun _ after => after.trail = state.trail) ?_ fun _ _ same => Triple.pure same
    by_cases wrong : bad
    · have each : Quiet bad (Lib.fetch64 region) := fun _ => fetch64_triple (fun _ _ _ => rfl) fun _ => ⟨rfl, wrong⟩
      have all : ∀ count, Quiet bad (gather count (Lib.fetch64 region)) := by
        intro count
        induction count with
        | zero => exact .pure _
        | succ count ih => exact each.bind fun _ => Quiet.bind ih fun _ => .pure _
      exact all num.toNat { state with pos := src }
    · obtain ⟨low, high⟩ := inside wrong
      refine (Consumes.fetch64.gather num.toNat).triple low ?_ fun _ => rfl
      push_cast
      omega

theorem Quiet.updateRealm {ino : Ino} {snaps priorParentSnaps : Int} {numSnaps numPriorParentSnaps : UInt32}
    (fields : ¬bad → 0 ≤ ri ∧ ri + 48 ≤ region.memory.length)
    (first : ¬bad → 0 ≤ snaps ∧ snaps + 8 * numSnaps.toNat ≤ region.memory.length)
    (second : ¬bad → 0 ≤ priorParentSnaps ∧ priorParentSnaps + 8 * numPriorParentSnaps.toNat ≤ region.memory.length) :
    Quiet bad (updateRealm region ino ri snaps priorParentSnaps numSnaps numPriorParentSnaps) := by
  have field : ∀ offset : Int, 0 ≤ offset → offset ≤ 40 → ¬bad →
      0 ≤ ri + offset ∧ ri + offset + 8 ≤ region.memory.length := by
    intro offset low high good
    lia
  refine Quiet.bind (.peek64 (field 32 (by omega) (by omega))) fun _ => ?_
  refine Quiet.bind (.peek64 (field 8 (by omega) (by omega))) fun _ => ?_
  refine Quiet.bind (.peek64 (field 24 (by omega) (by omega))) fun _ => ?_
  refine Quiet.bind (.setWalk _) fun _ => Quiet.bind (.dupArray first) fun _ => ?_
  exact Quiet.bind (.setWalk _) fun _ => Quiet.bind (.dupArray second) fun _ =>
    Quiet.bind (.setWalk _) fun _ => .setWalk _

/-- The counts are taken for so many bytes. -/
def countedBytes (numSnaps numPriorParentSnaps : UInt32) : Nat := 8 * (numSnaps + numPriorParentSnaps).toNat

theorem applyRealm_triple {state : Reading SnapNote SnapMds} {ri : Int} {numSnaps numPriorParentSnaps : UInt32}
    (fits : ri + 48 + countedBytes numSnaps numPriorParentSnaps ≤ region.memory.length) :
    Triple (applyRealm region ri numSnaps numPriorParentSnaps) state
      (fun _ after => after.trail = state.trail ∧ 0 ≤ ri ∧
        after.pos = ri + 48 + 8 * numSnaps.toNat + 8 * numPriorParentSnaps.toNat)
      fun reason after => after.trail = state.trail ∧
        match reason with
        | .error code => code = -12 ∧ 0 ≤ ri
        | .damage _ => ri < 0 ∨ 2 ^ 32 ≤ numSnaps.toNat + numPriorParentSnaps.toNat := by
  have room : ri + 48 ≤ region.memory.length := by omega
  refine Triple.bind (fun _ after => after.trail = state.trail ∧ 0 ≤ ri) (peek64_triple (fun low _ _ => ⟨rfl, low⟩)
    fun outside => ⟨rfl, Or.inl (by omega)⟩) ?_
  rintro ino middle ⟨same, low⟩
  have counted : ¬2 ^ 32 ≤ numSnaps.toNat + numPriorParentSnaps.toNat →
      (countedBytes numSnaps numPriorParentSnaps : Int) = 8 * numSnaps.toNat + 8 * numPriorParentSnaps.toNat := by
    intro small
    rw [countedBytes, UInt32.toNat_add, mod_eq_of_lt (by omega)]
    omega
  have rest : Quiet (2 ^ 32 ≤ numSnaps.toNat + numPriorParentSnaps.toNat)
      (walkRealm region ino ri numSnaps numPriorParentSnaps) := by
    refine Quiet.bind (.getSnapRealm _) fun realm => ?_
    refine Quiet.bind (.peek64 fun _ => by omega) fun parent => ?_
    refine Quiet.bind (.adjustParent _ _ _) fun changed => Quiet.bind (.setWalk _) fun _ => ?_
    refine Quiet.bind (.peek64 fun _ => by omega) fun seq => ?_
    split
    · refine .updateRealm (fun _ => ⟨low, room⟩) (fun small => ?_) fun small => ?_
      · have sum := counted small
        change 0 ≤ ri + 48 ∧ ri + 48 + _ ≤ _
        lia
      · have sum := counted small
        change 0 ≤ ri + 48 + _ ∧ ri + 48 + _ + _ ≤ _
        lia
    · split
      · exact .setWalk _
      · exact .pure _
  refine Triple.bind (fun _ after => after.trail = state.trail) ?_ fun _ after kept => Triple.modify ⟨kept, low, rfl⟩
  refine (rest middle).mono (fun _ _ kept => kept.trans same) fun reason after kept => ?_
  obtain ⟨trail, stops⟩ := kept
  refine ⟨trail.trans same, ?_⟩
  cases reason with
  | error code => exact ⟨stops, low⟩
  | damage damage => exact Or.inr stops

/-- The condition that is met: the arrays of a split are in front of its trace and the trace behind the start of the
message, as far as they are read; the sum of the counts of a realm is no more than a `u32`, if they are taken. -/
def SnapNote.Sound (length : Nat) : SnapNote → Prop
  | .split numSplitInos numSplitRealms =>
    (0 < numSplitInos → 24 + 8 * numSplitInos ≤ length) ∧ (0 < numSplitRealms → 0 ≤ 24 + 8 * numSplitInos) ∧
      0 ≤ 64 + 8 * (numSplitInos + numSplitRealms)
  | .moving numSplitInos numSplitRealms => 0 ≤ 32 + 8 * (numSplitInos + numSplitRealms)
  | .realm pos numSnaps numPriorParentSnaps =>
    pos + 48 + countedBytes numSnaps numPriorParentSnaps ≤ length →
      0 ≤ pos ∧ numSnaps.toNat + numPriorParentSnaps.toNat < 2 ^ 32

def SnapNote.Walked (length : Nat) (entry : SnapNote) : Prop :=
  ∃ pos numSnaps numPriorParentSnaps, entry = .realm pos numSnaps numPriorParentSnaps ∧ 0 ≤ pos ∧
    pos + 48 + countedBytes numSnaps numPriorParentSnaps ≤ length

def Looked (region : Region) (state : Reading SnapNote SnapMds) : Prop :=
  region.hasRoom state.pos sizeofCephMdsSnapRealm = true → -40 ≤ state.pos

theorem traceRealm_triple {state : Reading SnapNote SnapMds} (whole : region.finish = region.memory.length) :
    Triple (traceRealm region) state
      (fun _ after => ∃ numSnaps numPriorParentSnaps,
        after.trail = .realm state.pos numSnaps numPriorParentSnaps :: state.trail ∧ 0 ≤ state.pos ∧
        state.pos + 48 + countedBytes numSnaps numPriorParentSnaps ≤ region.memory.length ∧
        after.pos = state.pos + 48 + 8 * numSnaps.toNat + 8 * numPriorParentSnaps.toNat)
      fun reason after => ∃ noted, after.trail = noted ++ state.trail ∧
        match reason with
        | .error code => Looked region state ∧
            ((code = -22 ∧ ∀ entry ∈ noted, entry.Sound region.memory.length) ∨
              code = -12 ∧ ∀ entry ∈ noted, entry.Walked region.memory.length)
        | .damage _ => state.pos < -40 ∨ ∃ entry ∈ noted, ¬entry.Sound region.memory.length := by
  refine Triple.bind (fun _ after => after = state ∧ state.pos + 48 ≤ region.memory.length) ?_ ?_
  · refine Triple.need (fun room => ⟨rfl, ?_⟩) fun short =>
      ⟨[], rfl, fun room => absurd room short, Or.inl ⟨rfl, fun _ none => by cases none⟩⟩
    have inside := of_decide_eq_true room
    change state.pos ≤ region.finish ∧ (48 : Int) ≤ region.finish - state.pos at inside
    omega
  rintro ⟨⟩ after ⟨rfl, room⟩
  refine Triple.read (Triple.bind (fun _ next => next = { after with pos := after.pos + 40 }) (Triple.modify rfl) ?_)
  rintro ⟨⟩ next rfl
  refine Triple.bind (fun _ next => next = { after with pos := after.pos + 44 } ∧ -40 ≤ after.pos)
    (fetch32_triple (fun low high value => ⟨?_, ?_⟩) fun outside => ⟨[], rfl, Or.inl ?_⟩) ?_
  · dsimp only
    rw [Int.add_assoc]
    rfl
  · dsimp only at low
    omega
  · dsimp only at outside
    omega
  rintro numSnaps next ⟨rfl, low⟩
  refine Triple.bind (fun _ next => next = { after with pos := after.pos + 48 }) (fetch32_triple (fun _ _ value => ?_)
    fun outside => ⟨[], rfl, Or.inl ?_⟩) ?_
  · dsimp only
    rw [Int.add_assoc]
    rfl
  · dsimp only at outside
    omega
  rintro numPriorParentSnaps next rfl
  refine Triple.bind (fun _ next => next =
    { after with pos := after.pos + 48, trail := .realm after.pos numSnaps numPriorParentSnaps :: after.trail })
    (Triple.note rfl) ?_
  rintro ⟨⟩ next rfl
  refine Triple.bind (fun _ next =>
    next = { after with pos := after.pos + 48, trail := .realm after.pos numSnaps numPriorParentSnaps :: after.trail } ∧
      after.pos + 48 + countedBytes numSnaps numPriorParentSnaps ≤ region.memory.length)
    (Triple.need (fun fits => ⟨rfl, ?_⟩) fun short => ?_) ?_
  · have inside := of_decide_eq_true fits
    change after.pos + 48 ≤ region.finish ∧
      (countedBytes numSnaps numPriorParentSnaps : Int) ≤ region.finish - (after.pos + 48) at inside
    omega
  · refine ⟨[.realm after.pos numSnaps numPriorParentSnaps], rfl, fun _ => low, Or.inl ⟨rfl, ?_⟩⟩
    intro entry listed
    rw [mem_singleton] at listed
    subst listed
    intro fits
    refine absurd (decide_eq_true ?_) short
    change after.pos + 48 ≤ region.finish ∧
      (countedBytes numSnaps numPriorParentSnaps : Int) ≤ region.finish - (after.pos + 48)
    lia
  rintro ⟨⟩ next ⟨rfl, fits⟩
  refine (applyRealm_triple fits).mono ?_ ?_
  · rintro ⟨⟩ last ⟨trail, low, place⟩
    exact ⟨numSnaps, numPriorParentSnaps, trail, low, fits, place⟩
  · rintro reason last ⟨trail, stops⟩
    refine ⟨[.realm after.pos numSnaps numPriorParentSnaps], trail, ?_⟩
    cases reason with
    | error code =>
      refine ⟨fun _ => low, Or.inr ⟨stops.1, ?_⟩⟩
      intro entry listed
      rw [mem_singleton] at listed
      exact ⟨_, _, _, listed, stops.2, fits⟩
    | damage damage =>
      refine Or.inr ⟨_, List.mem_singleton.mpr rfl, fun holds => ?_⟩
      have both := holds fits
      omega

/-- How the rounds end: with an error at counts that do not fit, or not. -/
def Ended (length : Nat) (noted : List SnapNote) (result : Except Int PUnit) : Prop :=
  (result = .error (-22) ∧ ∀ entry ∈ noted, entry.Sound length) ∨
    (result ≠ .error (-22) ∧ ∀ entry ∈ noted, entry.Walked length)

theorem Ended.behind (ended : Ended length noted result) (walked : entry.Walked length) (sound : entry.Sound length) :
    Ended length (noted ++ [entry]) result := by
  rcases ended with ⟨refused, each⟩ | ⟨taken, each⟩
  · refine Or.inl ⟨refused, fun other listed => ?_⟩
    rcases List.mem_append.mp listed with earlier | last
    · exact each other earlier
    · exact List.mem_singleton.mp last ▸ sound
  · refine Or.inr ⟨taken, fun other listed => ?_⟩
    rcases List.mem_append.mp listed with earlier | last
    · exact each other earlier
    · exact List.mem_singleton.mp last ▸ walked

theorem traceRealms_triple (whole : region.finish = region.memory.length) (short : region.memory.length < 2 ^ 32)
    (rounds : Nat) : ∀ state : Reading SnapNote SnapMds, region.finish - state.pos < 48 * rounds → 0 < rounds →
      Triple (traceRealms region rounds) state
        (fun result after => Looked region state ∧ ∃ noted, after.trail = noted ++ state.trail ∧
          Ended region.memory.length noted (.ok result))
        fun reason after => ∃ noted, after.trail = noted ++ state.trail ∧
          match reason with
          | .error code => Looked region state ∧ Ended region.memory.length noted (.error code)
          | .damage _ => state.pos < -40 ∨ ∃ entry ∈ noted, ¬entry.Sound region.memory.length := by
  induction rounds with
  | zero =>
    intro state _ none
    exact absurd none (lt_irrefl 0)
  | succ rounds ih =>
    intro state enough _
    have first := (@traceRealm_triple region state whole)
    refine Triple.bind _ (first.mono (fun _ _ holds => holds) ?_) ?_
    · rintro reason after ⟨noted, trail, stops⟩
      refine ⟨noted, trail, ?_⟩
      cases reason with
      | error code =>
        obtain ⟨looked, ⟨rfl, sound⟩ | ⟨rfl, walked⟩⟩ := stops
        · exact ⟨looked, Or.inl ⟨rfl, sound⟩⟩
        · exact ⟨looked, Or.inr ⟨by decide, walked⟩⟩
      | damage damage => exact stops
    rintro ⟨⟩ after ⟨numSnaps, numPriorParentSnaps, trail, low, fits, place⟩
    refine Triple.read ?_
    split
    next more =>
      have small : numSnaps.toNat + numPriorParentSnaps.toNat < 2 ^ 32 := by lia
      have walked : (SnapNote.realm state.pos numSnaps numPriorParentSnaps).Walked region.memory.length :=
        ⟨_, _, _, rfl, low, fits⟩
      have sound : (SnapNote.realm state.pos numSnaps numPriorParentSnaps).Sound region.memory.length :=
        fun _ => ⟨low, small⟩
      refine (ih after (by push_cast at enough; lia) (by lia)).mono ?_ ?_
      · rintro ⟨⟩ last ⟨-, noted, longer, ended⟩
        refine ⟨fun _ => by lia, noted ++ [.realm state.pos numSnaps numPriorParentSnaps], ?_,
          ended.behind walked sound⟩
        rw [longer, trail, append_assoc]
        rfl
      · rintro reason last ⟨noted, longer, stops⟩
        refine ⟨noted ++ [.realm state.pos numSnaps numPriorParentSnaps], ?_, ?_⟩
        · rw [longer, trail, append_assoc]
          rfl
        · cases reason with
          | error code => exact ⟨fun _ => by lia, stops.2.behind walked sound⟩
          | damage damage =>
            right
            rcases stops with before | ⟨entry, listed, unsound⟩
            · lia
            · exact ⟨entry, mem_append_left _ listed, unsound⟩
    next done =>
      refine Triple.pure ⟨fun _ => by lia, [.realm state.pos numSnaps numPriorParentSnaps], trail,
        Or.inr ⟨by simp, ?_⟩⟩
      intro entry listed
      rw [mem_singleton] at listed
      exact ⟨_, _, _, listed, low, fits⟩

theorem decodeSnapTrace_triple (whole : region.finish = region.memory.length) (short : region.memory.length < 2 ^ 32)
    (state : Reading SnapNote SnapMds) :
    Triple (attempt (decodeSnapTrace region)) state
      (fun result after => Looked region state ∧
        ∃ noted, after.trail = noted ++ state.trail ∧ Ended region.memory.length noted result)
      fun _ after => ∃ noted, after.trail = noted ++ state.trail ∧
        (state.pos < -40 ∨ ∃ entry ∈ noted, ¬entry.Sound region.memory.length) := by
  refine Triple.attempt (Triple.read ?_)
  have enough : region.finish - state.pos < 48 * ((region.finish - state.pos).toNat / 48 + 1 : Nat) := by lia
  refine (traceRealms_triple whole short _ state enough (succ_pos _)).mono (fun _ _ holds => holds) ?_
  rintro reason after ⟨noted, trail, stops⟩
  cases reason with
  | error code => exact ⟨stops.1, noted, trail, stops.2⟩
  | damage damage => exact ⟨noted, trail, stops⟩

def SnapNote.Exceeds (length : Nat) (entry : SnapNote) : Prop :=
  ∃ pos numSnaps numPriorParentSnaps, entry = .realm pos numSnaps numPriorParentSnaps ∧
    (length : Int) < pos + 48 + 8 * numSnaps.toNat + 8 * numPriorParentSnaps.toNat

theorem SnapNote.Walked.exceeds_iff (walked : entry.Walked length)
    (short : length < 2 ^ 32) : entry.Exceeds length ↔ ¬entry.Sound length := by
  obtain ⟨pos, numSnaps, numPriorParentSnaps, rfl, low, fits⟩ := walked
  constructor
  · rintro ⟨_, _, _, same, far⟩ sound
    cases same
    obtain ⟨-, small⟩ := sound fits
    rw [countedBytes, UInt32.toNat_add, mod_eq_of_lt (by omega)] at fits
    omega
  · intro unsound
    refine ⟨pos, numSnaps, numPriorParentSnaps, rfl, ?_⟩
    by_contra near
    exact unsound fun _ => ⟨low, by lia⟩

/-- A trace that ends has been refused where it should be if and only if its counts were in order. -/
theorem Ended.refused_iff (ended : Ended length noted result) (short : length < 2 ^ 32) :
    (∀ entry ∈ noted, entry.Exceeds length → result = .error (-22)) ↔ ∀ entry ∈ noted, entry.Sound length := by
  rcases ended with ⟨refused, sound⟩ | ⟨taken, walked⟩
  · exact ⟨fun _ => sound, fun _ _ _ _ => refused⟩
  · constructor
    · intro all entry listed
      by_contra unsound
      exact taken (all entry listed (((walked entry listed).exceeds_iff short).mpr unsound))
    · intro sound entry listed exceeds
      exact absurd (sound entry listed) (((walked entry listed).exceeds_iff short).mp exceeds)

/-- The inodes that were found are moved by a realm whose second field is there. -/
def Moved (numSplitInos numSplitRealms ri : Int) (noted : List SnapNote) : Prop :=
  ∀ entry ∈ noted, entry = .moving numSplitInos numSplitRealms ∧ 0 ≤ ri + 8

theorem moveInode_triple (state : Reading SnapNote SnapMds) (room : ri + 48 ≤ region.memory.length) :
    Triple (moveInode region numSplitInos numSplitRealms ri realm) state
      (fun _ after => after.pos = state.pos + 8 ∧ 0 ≤ state.pos ∧ state.pos + 8 ≤ region.memory.length ∧
        ∃ noted, after.trail = noted ++ state.trail ∧ Moved numSplitInos numSplitRealms ri noted)
      fun reason after => reason = .damage .read ∧ ∃ noted, after.trail = noted ++ state.trail ∧
        (¬(0 ≤ state.pos ∧ state.pos + 8 ≤ region.memory.length) ∨
          .moving numSplitInos numSplitRealms ∈ noted ∧ ¬0 ≤ ri + 8) := by
  refine Triple.bind (fun _ after => after = { state with pos := state.pos + 8 } ∧ 0 ≤ state.pos ∧
    state.pos + 8 ≤ region.memory.length) (fetch64_triple (fun low high _ => ⟨rfl, low, high⟩) fun outside =>
      ⟨rfl, [], rfl, Or.inl outside⟩) ?_
  rintro ino after ⟨rfl, low, high⟩
  refine Triple.read ?_
  have none : Moved numSplitInos numSplitRealms ri [] := fun entry listed => by cases listed
  split
  · exact Triple.pure ⟨rfl, low, high, [], rfl, none⟩
  next old found =>
    refine Triple.bind (fun _ after => after = { state with
      pos := state.pos + 8, trail := .moving numSplitInos numSplitRealms :: state.trail }) (Triple.note rfl) ?_
    rintro ⟨⟩ after rfl
    refine Triple.bind (fun _ after => after.trail = .moving numSplitInos numSplitRealms :: state.trail ∧ 0 ≤ ri + 8)
      (peek64_triple (fun within _ _ => ⟨rfl, within⟩) fun outside => ?_) ?_
    · refine ⟨rfl, [.moving numSplitInos numSplitRealms], rfl, Or.inr ⟨List.mem_singleton.mpr rfl, ?_⟩⟩
      omega
    rintro created after ⟨trail, within⟩
    have moved : Moved numSplitInos numSplitRealms ri [.moving numSplitInos numSplitRealms] := by
      intro entry listed
      exact ⟨List.mem_singleton.mp listed, within⟩
    refine Triple.bind (fun _ last => last.pos = state.pos + 8 ∧
      last.trail = .moving numSplitInos numSplitRealms :: state.trail) (Triple.modify ⟨rfl, trail⟩) ?_
    rintro ⟨⟩ last ⟨place, kept⟩
    split
    · exact Triple.pure ⟨place, low, high, _, kept, moved⟩
    · exact Triple.modify ⟨place, low, high, _, kept, moved⟩

theorem moveInodes_triple (room : ri + 48 ≤ region.memory.length) (count : Nat) : ∀ state : Reading SnapNote SnapMds,
    Triple (times count (moveInode region numSplitInos numSplitRealms ri realm)) state
      (fun _ after => (0 < count → 0 ≤ state.pos ∧ state.pos + 8 * count ≤ region.memory.length) ∧
        ∃ noted, after.trail = noted ++ state.trail ∧ Moved numSplitInos numSplitRealms ri noted)
      fun reason after => reason = .damage .read ∧ ∃ noted, after.trail = noted ++ state.trail ∧
        (¬(0 ≤ state.pos ∧ state.pos + 8 * count ≤ region.memory.length) ∧ 0 < count ∨
          .moving numSplitInos numSplitRealms ∈ noted ∧ ¬0 ≤ ri + 8) := by
  induction count with
  | zero =>
    intro state
    exact Triple.pure ⟨fun none => absurd none (lt_irrefl 0), [], rfl, fun entry listed => by cases listed⟩
  | succ count ih =>
    intro state
    refine Triple.bind _ ((moveInode_triple state room).mono (fun _ _ holds => holds) ?_) ?_
    · rintro reason after ⟨read, noted, trail, stops⟩
      refine ⟨read, noted, trail, stops.imp (fun outside => ⟨?_, succ_pos _⟩) id⟩
      lia
    rintro ⟨⟩ after ⟨place, low, high, noted, trail, moved⟩
    refine (ih after).mono ?_ ?_
    · rintro ⟨⟩ last ⟨inside, more, longer, rest⟩
      refine ⟨fun _ => ?_, more ++ noted, ?_, ?_⟩
      · push_cast
        lia
      · rw [longer, trail, append_assoc]
      · intro entry listed
        rcases List.mem_append.mp listed with later | earlier
        · exact rest entry later
        · exact moved entry earlier
    · rintro reason last ⟨read, more, longer, stops⟩
      refine ⟨read, more ++ noted, ?_, ?_⟩
      · rw [longer, trail, append_assoc]
      · rcases stops with ⟨outside, some⟩ | ⟨listed, before⟩
        · left
          lia
        · exact Or.inr ⟨mem_append_left _ listed, before⟩

theorem attempt_triple (quiet : Quiet False program) (state : Reading SnapNote SnapMds) :
    Triple (attempt program) state (fun _ after => after.trail = state.trail) fun _ _ => False := by
  refine Triple.attempt ((quiet state).mono (fun _ _ same => same) ?_)
  rintro reason after ⟨same, stops⟩
  cases reason with
  | error code => exact same
  | damage damage => exact stops

theorem moveRealm_triple (state : Reading SnapNote SnapMds) : Triple (moveRealm region realm) state
      (fun _ after => after.pos = state.pos + 8 ∧ after.trail = state.trail ∧
        0 ≤ state.pos ∧ state.pos + 8 ≤ region.memory.length)
      fun _ after => after.trail = state.trail ∧ ¬(0 ≤ state.pos ∧ state.pos + 8 ≤ region.memory.length) := by
  refine Triple.bind (fun _ after => after = { state with pos := state.pos + 8 } ∧ 0 ≤ state.pos ∧
    state.pos + 8 ≤ region.memory.length) (fetch64_triple (fun low high _ => ⟨rfl, low, high⟩) fun outside =>
      ⟨rfl, outside⟩) ?_
  rintro ino after ⟨rfl, low, high⟩
  refine Triple.read ?_
  split
  · exact Triple.pure ⟨rfl, rfl, low, high⟩
  next child found =>
    refine Triple.bind (fun _ after => after.trail = state.trail) ?_ fun _ after same =>
      Triple.modify ⟨rfl, same, low, high⟩
    exact (attempt_triple (.adjustParent _ _ _) _).mono (fun _ _ same => same) fun _ _ never => never.elim

theorem moveRealms_triple (count : Nat) : ∀ state : Reading SnapNote SnapMds,
    Triple (times count (moveRealm region realm)) state (fun _ after => after.trail = state.trail ∧
        (0 < count → 0 ≤ state.pos ∧ state.pos + 8 * count ≤ region.memory.length))
      fun _ after => after.trail = state.trail ∧
        ¬(0 ≤ state.pos ∧ state.pos + 8 * count ≤ region.memory.length) ∧ 0 < count := by
  induction count with
  | zero =>
    intro state
    exact Triple.pure ⟨rfl, fun none => absurd none (lt_irrefl 0)⟩
  | succ count ih =>
    intro state
    refine Triple.bind _ ((moveRealm_triple state).mono (fun _ _ holds => holds) ?_) ?_
    · rintro _ after ⟨same, outside⟩
      refine ⟨same, ?_, succ_pos _⟩
      lia
    rintro ⟨⟩ after ⟨place, same, low, high⟩
    refine (ih after).mono ?_ ?_
    · rintro ⟨⟩ last ⟨kept, inside⟩
      refine ⟨kept.trans same, fun _ => ?_⟩
      lia
    · rintro _ last ⟨kept, outside, some⟩
      refine ⟨kept.trans same, ?_, succ_pos _⟩
      lia

/-- How a message ends. A trace that was applied has been refused or not, and the notes of a split are sound. -/
def Handled (length : Nat) (noted : List SnapNote) : SnapOutcome → Prop
  | .traced result => ∃ traced rest, noted = traced ++ rest ∧ Ended length traced result ∧
      ∀ entry ∈ rest, entry.Sound length ∧ ¬entry.Exceeds length
  | _ => noted = []

theorem splitRealm_triple {split : Ino}
    (whole : region.finish = region.memory.length) (short : region.memory.length < 2 ^ 32) (place : state.pos = 24)
    (fresh : state.trail = []) : Triple (splitRealm region split numSplitInos numSplitRealms) state
      (fun outcome after => Handled region.memory.length after.trail outcome)
      fun _ after => ∃ entry ∈ after.trail, ¬entry.Sound region.memory.length := by
  refine Triple.read ?_
  dsimp only
  split
  next => exact Triple.pure fresh
  next room =>
    refine Triple.bind (fun _ after => after.trail = [])
      ((attempt_triple (.getSnapRealm _) _).mono (fun _ _ same => same.trans fresh) fun _ _ never => never.elim) ?_
    intro found after none
    split
    next => exact Triple.pure none
    next realm =>
      have inside : 24 + 8 * numSplitInos + 8 * numSplitRealms + 48 ≤ region.memory.length := by
        have held : region.hasRoom (state.pos + 8 * numSplitInos + 8 * numSplitRealms) 48 = true :=
          Bool.eq_true_of_not_eq_false room
        have both := of_decide_eq_true held
        rw [place] at both
        lia
      rw [place]
      refine Triple.bind (fun _ next => next.trail = [.split numSplitInos numSplitRealms])
        (Triple.note (congrArg _ none)) ?_
      rintro ⟨⟩ noted trail
      refine Triple.bind (fun _ next => next.pos = 24 ∧ next.trail = [.split numSplitInos numSplitRealms])
        (Triple.modify ⟨rfl, trail⟩) ?_
      rintro ⟨⟩ start ⟨at24, trail⟩
      refine Triple.bind _ ((moveInodes_triple inside _ start).mono (fun _ _ holds => holds) ?_) ?_
      · rintro _ last ⟨-, moved, longer, stops⟩
        rw [trail] at longer
        rcases stops with ⟨outside, some⟩ | ⟨listed, before⟩
        · refine ⟨.split numSplitInos numSplitRealms, by simp [longer], fun sound => outside ?_⟩
          have fits := sound.1 (by omega)
          lia
        · refine ⟨.moving numSplitInos numSplitRealms, by simp [longer, listed], fun sound => before ?_⟩
          have fits : 0 ≤ 32 + 8 * (numSplitInos + numSplitRealms) := sound
          lia
      rintro ⟨⟩ later ⟨first, moved, longer, movedAll⟩
      rw [trail] at longer
      refine Triple.bind (fun _ next => next.pos = 24 + 8 * numSplitInos ∧ next.trail = later.trail)
        (Triple.modify ⟨rfl, rfl⟩) ?_
      rintro ⟨⟩ realms ⟨atRealms, keptRealms⟩
      refine Triple.bind _ ((moveRealms_triple _ realms).mono (fun _ _ holds => holds) ?_) ?_
      · rintro _ last ⟨kept, outside, some⟩
        refine ⟨.split numSplitInos numSplitRealms, by simp [kept, keptRealms, longer], fun sound => outside ?_⟩
        have fits := sound.2.1 (by omega)
        lia
      rintro ⟨⟩ after ⟨kept, second⟩
      have trailed : after.trail = moved ++ [.split numSplitInos numSplitRealms] := by
        rw [kept, keptRealms, longer]
      refine Triple.bind (fun _ next => next.pos = 24 + 8 * numSplitInos + 8 * numSplitRealms ∧
        next.trail = after.trail) (Triple.modify ⟨rfl, rfl⟩) ?_
      rintro ⟨⟩ ahead ⟨atRealm, keptRealm⟩
      rw [trailed] at keptRealm
      refine Triple.bind _ ((decodeSnapTrace_triple whole short ahead).mono (fun _ _ holds => holds) ?_) ?_
      · rintro _ last ⟨noted, all, stops⟩
        rw [keptRealm] at all
        rcases stops with before | ⟨entry, listed, unsound⟩
        · refine ⟨.split numSplitInos numSplitRealms, by simp [all], fun sound => ?_⟩
          have fits := sound.2.2
          lia
        · exact ⟨entry, by simp [all, listed], unsound⟩
      rintro result last ⟨looked, noted, all, ended⟩
      rw [keptRealm] at all
      refine Triple.pure ⟨noted, _, all, ended, ?_⟩
      intro entry listed
      rcases List.mem_append.mp listed with moving | split
      · obtain ⟨rfl, within⟩ := movedAll entry moving
        refine ⟨?_, fun ⟨_, _, _, same, _⟩ => by cases same⟩
        change 0 ≤ 32 + 8 * (numSplitInos + numSplitRealms)
        lia
      · rw [mem_singleton] at split
        subst split
        refine ⟨⟨fun some => ?_, fun some => ?_, ?_⟩, fun ⟨_, _, _, same, _⟩ => by cases same⟩
        · have held := first (by omega)
          lia
        · have held := second (by omega)
          omega
        · have there : region.hasRoom ahead.pos sizeofCephMdsSnapRealm = true := by
            refine decide_eq_true ?_
            change ahead.pos ≤ region.finish ∧ (48 : Int) ≤ region.finish - ahead.pos
            lia
          have low := looked there
          lia

theorem head_triple {next : α → SnapDecoder β} {count : Nat} {post : β → Reading SnapNote SnapMds → Prop}
    (reads : Consumes region count program) (place : state.pos = pos) (fresh : state.trail = [])
    (inside : 0 ≤ pos ∧ pos + count ≤ region.memory.length)
    (continues : ∀ result after, after.pos = pos + count → after.trail = [] → Triple (next result) after post stop) :
    Triple (program >>= next) state post stop := by
  subst place
  refine Triple.bind (fun _ after => after.pos = state.pos + count ∧ after.trail = []) ?_ ?_
  · exact reads.triple inside.1 inside.2 fun _ => ⟨rfl, fresh⟩
  · exact fun result after holds => continues result after holds.1 holds.2

theorem cephHandleSnap_triple {state : Reading SnapNote SnapMds} (whole : region.finish = region.memory.length)
    (short : region.memory.length < 2 ^ 32) (place : state.pos = 0) (fresh : state.trail = []) :
    Triple (cephHandleSnap region) state
      (fun outcome after => Handled region.memory.length after.trail outcome)
      fun _ after => ∃ entry ∈ after.trail, ¬entry.Sound region.memory.length := by
  refine Triple.read ?_
  split
  next => exact Triple.pure fresh
  next head =>
    have room : (24 : Int) ≤ region.memory.length := by
      change ¬region.finish - state.pos < 24 at head
      omega
    refine head_triple Consumes.fetch32 place fresh (by omega) fun op _ place fresh => ?_
    refine head_triple Consumes.fetch64 place fresh (by omega) fun split _ place fresh => ?_
    refine head_triple Consumes.fetch32 place fresh (by omega) fun numSplitInos _ place fresh => ?_
    refine head_triple Consumes.fetch32 place fresh (by omega) fun numSplitRealms _ place fresh => ?_
    refine head_triple Consumes.fetch32 place fresh (by omega) fun traceLen last place fresh => ?_
    split
    · exact splitRealm_triple whole short (by omega) fresh
    · refine Triple.bind _ ((decodeSnapTrace_triple whole short last).mono (fun _ _ holds => holds) ?_) ?_
      · rintro _ after ⟨noted, all, stops⟩
        rw [fresh, List.append_nil] at all
        rcases stops with before | unsound
        · omega
        · exact all ▸ unsound
      · rintro result after ⟨-, noted, all, ended⟩
        rw [fresh] at all
        exact Triple.pure ⟨noted, [], all, ended, fun entry none => by cases none⟩

theorem Handled.refused_iff {outcome : SnapOutcome}
    (handled : Handled length noted outcome) (short : length < 2 ^ 32) :
    (∀ entry ∈ noted, entry.Exceeds length → outcome = .traced (.error (-22))) ↔
      ∀ entry ∈ noted, entry.Sound length := by
  cases outcome with
  | bad =>
    have none : noted = [] := handled
    simp [none]
  | out =>
    have none : noted = [] := handled
    simp [none]
  | traced result =>
    obtain ⟨traced, rest, rfl, ended, others⟩ := handled
    have refused := ended.refused_iff short
    constructor
    · intro all entry listed
      rcases List.mem_append.mp listed with inside | outside
      · refine refused.mp (fun other listed exceeds => ?_) entry inside
        exact SnapOutcome.traced.inj (all other (mem_append_left _ listed) exceeds)
      · exact (others entry outside).1
    · intro sound entry listed exceeds
      rcases List.mem_append.mp listed with inside | outside
      · exact congrArg _ (refused.mpr (fun other listed => sound other (mem_append_left _ listed)) entry inside
          exceeds)
      · exact absurd exceeds (others entry outside).2

end

def frontOf (bytes : List UInt8) : Region := ⟨bytes, bytes.length⟩

def startAt (allocs : List Bool) (mds : SnapMds) : Reading SnapNote SnapMds :=
  { pos := 0, allocs, trail := [], data := mds }

def metBy {α : Type} (program : SnapDecoder α) (start : Reading SnapNote SnapMds) : List SnapNote :=
  match program start with
  | .ok _ after => after.trail
  | .error _ after => after.trail

def ReadsInside {α : Type} (length : Nat) (program : SnapDecoder α) (refused : α) (start : Reading SnapNote SnapMds) :
    Prop :=
  ∃ result after, program start = .ok result after ∧
    ∀ entry ∈ after.trail, entry.Exceeds length → result = refused

variable {α : Type} {length : Nat} {start : Reading SnapNote SnapMds} {program : SnapDecoder α} {refused : α}

theorem readsInside_iff (triple : Triple program start
      (fun result after => (∀ entry ∈ after.trail, entry.Exceeds length → result = refused) ↔
        ∀ entry ∈ after.trail, entry.Sound length) fun _ after => ∃ entry ∈ after.trail, ¬entry.Sound length) :
    ReadsInside length program refused start ↔ ∀ entry ∈ metBy program start, entry.Sound length := by
  unfold ReadsInside metBy
  cases ran : program start with
  | ok result after =>
    have both := triple.ok ran
    constructor
    · rintro ⟨_, _, same, refuses⟩
      cases same
      exact both.mp refuses
    · exact fun sound => ⟨result, after, rfl, both.mpr sound⟩
  | error reason after =>
    obtain ⟨entry, listed, unsound⟩ := triple.error ran
    constructor
    · rintro ⟨_, _, never, _⟩
      cases never
    · exact fun sound => absurd (sound entry listed) unsound

/-- A snap trace and a snap message are read inside, and counts that do not fit refused, if and only if no sum of two
counts that is taken has run over a `u32`, and the `int` counts of a split keep its arrays and its trace inside. -/
theorem snap_messages_inside (bytes : List UInt8) (short : bytes.length < 2 ^ 32) (allocs : List Bool) (mds : SnapMds) :
    (ReadsInside bytes.length (attempt (decodeSnapTrace (frontOf bytes))) (.error (-22)) (startAt allocs mds) ↔
      ∀ entry ∈ metBy (attempt (decodeSnapTrace (frontOf bytes))) (startAt allocs mds), entry.Sound bytes.length) ∧
    (ReadsInside bytes.length (cephHandleSnap (frontOf bytes)) (.traced (.error (-22))) (startAt allocs mds) ↔
      ∀ entry ∈ metBy (cephHandleSnap (frontOf bytes)) (startAt allocs mds), entry.Sound bytes.length) := by
  have traced := @decodeSnapTrace_triple (frontOf bytes) rfl short (startAt allocs mds)
  have handled := @cephHandleSnap_triple (frontOf bytes) (startAt allocs mds) rfl short rfl rfl
  constructor
  · refine readsInside_iff (traced.mono ?_ ?_)
    · rintro result after ⟨-, noted, trail, ended⟩
      have same : after.trail = noted := trail.trans (List.append_nil _)
      rw [same]
      exact ended.refused_iff short
    · rintro _ after ⟨noted, trail, stops⟩
      have same : after.trail = noted := trail.trans (List.append_nil _)
      rw [same]
      exact stops.resolve_left fun before : (0 : Int) < -40 => absurd before (by decide)
  · exact readsInside_iff (handled.mono (fun _ _ ends => ends.refused_iff short) fun _ _ unsound => unsound)

def SnapMds.empty : SnapMds where
  walk := { realms := fun _ => none, invalidate := false, dirtyRealms := [] }
  inodeRealm := fun _ => none

def bareRealm (seq numSnaps numPriorParentSnaps : Nat) : List UInt8 :=
  leBytes 32 1 ++ leBytes 8 seq ++ leBytes 4 numSnaps ++ leBytes 4 numPriorParentSnaps

/-- A realm without snaps is taken, and one that claims a snap refused. -/
theorem snap_messages_inside_bare :
    ReadsInside 48 (attempt (decodeSnapTrace (frontOf (bareRealm 1 0 0)))) (.error (-22)) (startAt [] .empty) ∧
      ReadsInside 48 (attempt (decodeSnapTrace (frontOf (bareRealm 1 1 0)))) (.error (-22)) (startAt [] .empty) := by
  constructor
  · refine (snap_messages_inside (bareRealm 1 0 0) (by decide) [] .empty).1.mpr ?_
    have met : metBy (attempt (decodeSnapTrace (frontOf (bareRealm 1 0 0)))) (startAt [] .empty) = [.realm 0 0 0] := by
      decide +kernel
    rw [met]
    intro entry listed
    rw [List.mem_singleton.mp listed]
    exact fun _ => ⟨by decide, by decide⟩
  · refine (snap_messages_inside (bareRealm 1 1 0) (by decide) [] .empty).1.mpr ?_
    have met : metBy (attempt (decodeSnapTrace (frontOf (bareRealm 1 1 0)))) (startAt [] .empty) = [.realm 0 1 0] := by
      decide +kernel
    rw [met]
    intro entry listed
    rw [List.mem_singleton.mp listed]
    exact fun _ => ⟨by decide, by decide⟩

def bareSplit (numSplitInos numSplitRealms : Nat) : List UInt8 :=
  leBytes 4 3 ++ leBytes 8 1 ++ leBytes 4 numSplitInos ++ leBytes 4 numSplitRealms ++ leBytes 4 0 ++ bareRealm 1 0 0

def readsOutside {α : Type} (program : SnapDecoder α) (start : Reading SnapNote SnapMds) : Bool :=
  match program start with
  | .error (.damage .read) _ => true
  | _ => false

theorem not_readsInside (outside : readsOutside program start = true) :
    ¬ReadsInside length program refused start := by
  rintro ⟨result, after, ran, -⟩
  rw [readsOutside, ran] at outside
  cases outside

/-- A snap is read behind a trace whose counts add up to `2 ^ 32`, and a realm before a message that splits off `-10`
inodes. -/
theorem snap_messages_outside :
    ¬ReadsInside 48 (attempt (decodeSnapTrace (frontOf (bareRealm 1 1 (2 ^ 32 - 1))))) (.error (-22))
        (startAt [] .empty) ∧
      ¬ReadsInside 72 (cephHandleSnap (frontOf (bareSplit (2 ^ 32 - 10) 0))) (.traced (.error (-22)))
        (startAt [] .empty) :=
  ⟨not_readsInside (by decide +kernel), not_readsInside (by decide +kernel)⟩

end KmodCeph.Snap
