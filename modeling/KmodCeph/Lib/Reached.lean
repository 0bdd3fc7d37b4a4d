import KmodCeph.Lib.Loop

namespace KmodCeph.Lib

def haltIf {ε : Type} (condition : Prop) [Decidable condition] (fault : ε) : Except ε Unit :=
  if condition then .error fault else .ok ()

/-- The states that the machine passes when every step it takes is allowed. -/
inductive Reached {ε σ ι : Type} (step : ι → σ → Except ε σ) (allowed : ι → σ → Prop) (start : σ) : σ → Prop where
  | start : Reached step allowed start start
  | next {before after : σ} (reached : Reached step allowed start before) (call : ι)
      (meets : allowed call before) (ran : step call before = .ok after) : Reached step allowed start after

/-- No allowed step halts the machine or breaks the invariant. -/
def Keeps {ε σ ι : Type} (step : ι → σ → Except ε σ) (allowed : ι → σ → Prop) (invariant : σ → Prop) : Prop :=
  ∀ call before, allowed call before → invariant before → Returns (step call before) invariant

/-- No allowed step that does not halt the machine breaks the invariant. -/
def Preserves {ε σ ι : Type} (step : ι → σ → Except ε σ) (allowed : ι → σ → Prop) (invariant : σ → Prop) : Prop :=
  ∀ call before after, allowed call before → invariant before → step call before = .ok after → invariant after

/-- The state after the calls, if all are allowed and none halts the machine. -/
def runAll {ε σ ι : Type} (step : ι → σ → Except ε σ) (allowed : ι → σ → Prop)
    [∀ call state, Decidable (allowed call state)] : List ι → σ → Option σ
  | [], state => some state
  | call :: calls, state =>
    if allowed call state then
      match step call state with
      | .ok later => runAll step allowed calls later
      | .error _ => none
    else none

section

variable {ε σ ι α : Type} {step : ι → σ → Except ε σ} {allowed : ι → σ → Prop} {invariant : σ → Prop}
variable {start state : σ}

variable {condition : Prop} {fault : ε} {post : α → Prop} {computation : Except ε α}

theorem Returns.haltIf [Decidable condition] {next : Unit → Except ε α}
    (passes : ¬ condition) (runs : Returns (next ()) post) : Returns (haltIf condition fault >>= next) post := by
  rw [Lib.haltIf, if_neg passes]
  exact runs

theorem Returns.of_ok {result : α} (runs : Returns computation post)
    (ran : computation = .ok result) : post result := by
  obtain ⟨returned, same, holds⟩ := runs
  rw [ran] at same
  cases same
  exact holds

theorem not_of_haltIf [Decidable condition] {result : Unit}
    (passed : haltIf condition fault = .ok result) : ¬ condition := by
  intro holds
  rw [Lib.haltIf, if_pos holds] at passed
  cases passed

theorem ok_of_map {β : Type} {f : α → β} {result : β}
    (ran : computation.map f = .ok result) : ∃ value, computation = .ok value ∧ result = f value := by
  cases computation with
  | error fault => cases ran
  | ok value =>
    cases ran
    exact ⟨value, rfl, rfl⟩

theorem Reached.mono {other : ι → σ → Prop} (weaker : ∀ call state, allowed call state → other call state)
    (reached : Reached step allowed start state) : Reached step other start state := by
  induction reached with
  | start => exact .start
  | next _ call meets ran ih => exact ih.next call (weaker call _ meets) ran

theorem Reached.preserved (preserves : Preserves step allowed invariant) (initially : invariant start)
    (reached : Reached step allowed start state) : invariant state := by
  induction reached with
  | start => exact initially
  | next _ call meets ran ih => exact preserves call _ _ meets ih ran

theorem Keeps.preserves (keeps : Keeps step allowed invariant) : Preserves step allowed invariant := by
  intro call before after meets holds ran
  exact (keeps call before meets holds).of_ok ran

theorem Reached.holds (keeps : Keeps step allowed invariant) (initially : invariant start)
    (reached : Reached step allowed start state) : invariant state :=
  reached.preserved keeps.preserves initially

theorem Reached.runAll [∀ call state, Decidable (allowed call state)] {calls : List ι} {last : σ}
    (reached : Reached step allowed start state) (ran : Lib.runAll step allowed calls state = some last) :
    Reached step allowed start last := by
  induction calls generalizing state with
  | nil =>
    cases ran
    exact reached
  | cons call calls ih =>
    unfold Lib.runAll at ran
    split at ran
    next meets =>
      split at ran
      next later ok => exact ih (reached.next call meets ok) ran
      next => cases ran
    next => cases ran

end

end KmodCeph.Lib
