import KmodCeph.Lib.Decoder

namespace KmodCeph.Lib

open List

variable {ν σ τ μ α β : Type}

/-- Make a change of the data and note it. -/
def commit (apply : ν → σ → σ) (entry : ν) : Decode ν σ PUnit :=
  modify fun state => { state with trail := entry :: state.trail, data := apply entry state.data }

/-- What was noted since is allowed and accounts for the change of the data. -/
def Recorded (apply : ν → σ → σ) (allowed : ν → Prop) (before after : Reading ν σ) : Prop :=
  ∃ entries, after.trail = entries ++ before.trail ∧ (∀ entry ∈ entries, allowed entry) ∧
    after.data = entries.foldr apply before.data

def Records (apply : ν → σ → σ) (allowed : ν → Prop) (program : Decode ν σ α) : Prop :=
  ∀ state, Triple program state (fun _ after => Recorded apply allowed state after)
    fun _ after => Recorded apply allowed state after

section

variable {apply : ν → σ → σ} {allowed : ν → Prop} {before middle after : Reading ν σ} {region : Region}

theorem Recorded.refl : Recorded apply allowed before before := ⟨[], rfl, nofun, rfl⟩

theorem Recorded.of_eq (trail : after.trail = before.trail) (data : after.data = before.data) :
    Recorded apply allowed before after :=
  ⟨[], trail, nofun, data⟩

theorem Recorded.trans (first : Recorded apply allowed before middle) (second : Recorded apply allowed middle after) :
    Recorded apply allowed before after := by
  obtain ⟨earlier, trail, each, data⟩ := first
  obtain ⟨later, trail', each', data'⟩ := second
  refine ⟨later ++ earlier, ?_, fun entry member => ?_, ?_⟩
  · rw [trail', trail, append_assoc]
  · rcases List.mem_append.mp member with late | early
    · exact each' entry late
    · exact each entry early
  · rw [data', data, foldr_append]

theorem Recorded.mono {weaker : ν → Prop} (recorded : Recorded apply allowed before after)
    (loosen : ∀ entry, allowed entry → weaker entry) : Recorded apply weaker before after := by
  obtain ⟨entries, trail, each, data⟩ := recorded
  exact ⟨entries, trail, fun entry member => loosen entry (each entry member), data⟩

theorem Recorded.preserves {invariant : σ → Prop} (recorded : Recorded apply allowed before after)
    (keeps : ∀ entry data, allowed entry → invariant data → invariant (apply entry data))
    (start : invariant before.data) : invariant after.data := by
  obtain ⟨entries, -, each, data⟩ := recorded
  rw [data]
  clear data
  induction entries with
  | nil => exact start
  | cons entry entries ih =>
    exact keeps entry _ (each entry mem_cons_self) (ih fun other member => each other (mem_cons_of_mem _ member))

theorem Records.pure (result : α) : Records apply allowed (Pure.pure result : Decode ν σ α) :=
  fun _ => Triple.pure Recorded.refl

theorem Records.fail (code : Int) : Records apply allowed (fail code : Decode ν σ α) :=
  fun _ => Triple.fail Recorded.refl

theorem Records.bug : Records apply allowed (bug : Decode ν σ α) :=
  fun _ => Triple.throw Recorded.refl

theorem Records.need (code : Int) (count : Nat) : Records apply allowed (need region code count : Decode ν σ PUnit) :=
  fun _ => Triple.need (fun _ => Recorded.refl) fun _ => Recorded.refl

theorem Records.fetch (count : Nat) : Records apply allowed (fetch region count : Decode ν σ (List UInt8)) :=
  fun _ => Triple.fetch (fun _ _ => .of_eq rfl rfl) fun _ => Recorded.refl

theorem Records.skip (distance : Int) : Records apply allowed (skip distance : Decode ν σ PUnit) :=
  fun _ => Triple.skip (.of_eq rfl rfl)

theorem Records.jump (pos : Int) : Records apply allowed (jump pos : Decode ν σ PUnit) :=
  fun _ => Triple.modify (.of_eq rfl rfl)

theorem Records.allocate (code : Int) (size : Nat) : Records apply allowed (allocate code size : Decode ν σ PUnit) :=
  fun _ => Triple.allocate (fun _ => .of_eq rfl rfl) (.of_eq rfl rfl)

theorem Records.commit {entry : ν} (allows : allowed entry) : Records apply allowed (commit apply entry) :=
  fun _ => Triple.modify ⟨[entry], rfl, by simpa using allows, rfl⟩

theorem Records.note {entry : ν} (allows : allowed entry) (idle : ∀ data, apply entry data = data) :
    Records apply allowed (note entry : Decode ν σ PUnit) :=
  fun state => Triple.note ⟨[entry], rfl, by simpa using allows, (idle state.data).symm⟩

theorem Records.bind {first : Decode ν σ α} {next : α → Decode ν σ β} (records : Records apply allowed first)
    (continues : ∀ result, Records apply allowed (next result)) : Records apply allowed (first >>= next) := by
  intro state
  refine Triple.bind _ (records state) fun result middle recorded => ?_
  exact (continues result middle).mono (fun _ _ later => recorded.trans later) fun _ _ later => recorded.trans later

theorem Records.read {next : Reading ν σ → Decode ν σ α} (continues : ∀ state, Records apply allowed (next state)) :
    Records apply allowed (get >>= next) :=
  fun state => Triple.read (continues state state)

theorem Records.fetch8 : Records apply allowed (fetch8 region : Decode ν σ UInt8) :=
  Records.bind (Records.fetch 1) fun _ => Records.pure _

theorem Records.fetch16 : Records apply allowed (fetch16 region : Decode ν σ UInt16) :=
  Records.bind (Records.fetch 2) fun _ => Records.pure _

theorem Records.fetch32 : Records apply allowed (fetch32 region : Decode ν σ UInt32) :=
  Records.bind (Records.fetch 4) fun _ => Records.pure _

theorem Records.fetch64 : Records apply allowed (fetch64 region : Decode ν σ UInt64) :=
  Records.bind (Records.fetch 8) fun _ => Records.pure _

theorem Records.times {program : Decode ν σ PUnit} (records : Records apply allowed program) (count : Nat) :
    Records apply allowed (times count program) := by
  induction count with
  | zero => exact Records.pure _
  | succ count ih => exact Records.bind records fun _ => ih

theorem Records.gather {program : Decode ν σ α} (records : Records apply allowed program) (count : Nat) :
    Records apply allowed (gather count program) := by
  induction count with
  | zero => exact Records.pure _
  | succ count ih => exact Records.bind records fun _ => Records.bind ih fun _ => Records.pure _

theorem Records.nested {program : Decode μ τ α} {start : τ} {noted : List μ → List ν} {damaged : Damage → Damage}
    (allows : ∀ notes, ∀ entry ∈ noted notes, allowed entry)
    (idle : ∀ notes, ∀ entry ∈ noted notes, ∀ data, apply entry data = data) :
    Records apply allowed (nested program start noted damaged : Decode ν σ (α × τ)) := by
  have unchanged : ∀ (entries : List ν) (data : σ), (∀ entry ∈ entries, ∀ data, apply entry data = data) →
      data = entries.foldr apply data := by
    intro entries data idle
    induction entries with
    | nil => rfl
    | cons entry entries ih =>
      rw [foldr_cons, ← ih fun other member => idle other (mem_cons_of_mem _ member)]
      exact (idle entry mem_cons_self data).symm
  intro state
  unfold Triple Lib.nested
  split
  · next result after ran =>
      split at ran
      · cases ran
        exact ⟨_, rfl, allows _, unchanged _ _ (idle _)⟩
      · cases ran
      · cases ran
  · next fault after ran =>
      split at ran
      · cases ran
      · cases ran
        exact ⟨_, rfl, allows _, unchanged _ _ (idle _)⟩
      · cases ran
        exact ⟨_, rfl, allows _, unchanged _ _ (idle _)⟩

theorem Records.mono {weaker : ν → Prop} {program : Decode ν σ α} (records : Records apply allowed program)
    (loosen : ∀ entry, allowed entry → weaker entry) : Records apply weaker program :=
  fun state => (records state).mono (fun _ _ recorded => recorded.mono loosen) fun _ _ recorded => recorded.mono loosen

end

end KmodCeph.Lib
