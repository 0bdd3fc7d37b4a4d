import KmodCeph.Lib.Loop
import Mathlib.Logic.Relation

namespace KmodCeph.Lib

variable {ε σ α β : Type}

def outcome (program : EStateM ε σ α) (before : σ) : σ :=
  match program before with
  | .ok _ after => after
  | .error _ after => after

/-- The execution from `before` is a path of `act` steps, and if it returns,
the result and the state satisfy `post`. -/
def Runs (act : σ → σ → Prop) (program : EStateM ε σ α) (before : σ) (post : α → σ → Prop) : Prop :=
  match program before with
  | .ok result after => Relation.ReflTransGen act before after ∧ post result after
  | .error _ after => Relation.ReflTransGen act before after

section

variable {act : σ → σ → Prop} {before : σ}

variable {post : α → σ → Prop}

theorem Runs.outcome {program : EStateM ε σ α} (runs : Runs act program before post) :
    Relation.ReflTransGen act before (outcome program before) := by
  unfold Runs at runs
  unfold Lib.outcome
  cases ran : program before with
  | ok result after =>
    rw [ran] at runs
    exact runs.1
  | error fault after =>
    rw [ran] at runs
    exact runs

theorem Runs.pure {result : α} (holds : post result before) :
    Runs act (Pure.pure result : EStateM ε σ α) before post :=
  ⟨.refl, holds⟩

theorem Runs.throw (fault : ε) : Runs act (throw fault : EStateM ε σ α) before post :=
  Relation.ReflTransGen.refl

theorem Runs.read {next : σ → EStateM ε σ α}
    (runs : Runs act (next before) before post) : Runs act (get >>= next) before post :=
  runs

theorem Runs.bind {first : EStateM ε σ α} {next : α → EStateM ε σ β} (middle : α → σ → Prop)
    {post : β → σ → Prop} (runs : Runs act first before middle)
    (continues : ∀ result after, middle result after → Runs act (next result) after post) :
    Runs act (first >>= next) before post := by
  unfold Runs at runs ⊢
  simp only [Bind.bind, EStateM.bind]
  cases ran : first before with
  | error fault after =>
    rw [ran] at runs
    exact runs
  | ok result after =>
    rw [ran] at runs
    obtain ⟨path, holds⟩ := runs
    have rest := continues result after holds
    unfold Runs at rest
    simp only
    cases ranNext : next result after with
    | ok final last =>
      rw [ranNext] at rest
      exact ⟨path.trans rest.1, rest.2⟩
    | error fault last =>
      rw [ranNext] at rest
      exact path.trans rest

theorem Runs.mono {program : EStateM ε σ α} {strong weak : α → σ → Prop}
    (runs : Runs act program before strong)
    (weaken : ∀ result after, strong result after → weak result after) :
    Runs act program before weak := by
  unfold Runs at runs ⊢
  cases ran : program before with
  | ok result after =>
    rw [ran] at runs
    exact ⟨runs.1, weaken _ _ runs.2⟩
  | error fault after =>
    rw [ran] at runs
    exact runs

end

/-- Repeat `body` until it is done, at most `bound` times. -/
def iterate (exhausted : ε) (body : α → EStateM ε σ (Next α β)) : Nat → α → EStateM ε σ β
  | 0, _ => throw exhausted
  | bound + 1, current => do
    match ← body current with
    | .again next => iterate exhausted body bound next
    | .done result => pure result

variable {exhausted fault : ε} {body : α → EStateM ε σ (Next α β)} {bound : Nat} {current : α}
variable {before after : σ} {first second : EStateM ε σ α} {condition : Prop}

theorem Runs.iterate {act : σ → σ → Prop} (invariant : α → σ → Prop) {post : β → σ → Prop}
    (pass : ∀ current before, invariant current before → Runs act (body current) before fun next after =>
        next.Holds (fun current => invariant current after) fun result => post result after)
    (start : invariant current before) : Runs act (iterate exhausted body bound current) before post := by
  induction bound generalizing current before with
  | zero => exact Runs.throw _
  | succ bound ih =>
    refine Runs.bind _ (pass current before start) fun next after decided => ?_
    cases next with
    | again next => exact ih decided
    | done result => exact Runs.pure decided

theorem bind_of_ok {next : α → EStateM ε σ β} {result : α}
    (ran : first before = .ok result after) : (first >>= next) before = next result after := by
  simp only [bind, EStateM.bind, ran]

theorem bind_of_error {next : α → EStateM ε σ β}
    (ran : first before = .error fault after) : (first >>= next) before = .error fault after := by
  simp only [bind, EStateM.bind, ran]

theorem outcome_of_error {program : EStateM ε σ α}
    (ran : program before = .error fault after) : outcome program before = after := by
  simp only [outcome, ran]

theorem read_eq {next : σ → EStateM ε σ α} : (get >>= next) before = next before before :=
  rfl

theorem run_of_not [Decidable condition]
    (fails : ¬ condition) : (if condition then first else second) before = second before := by
  rw [if_neg fails]

theorem run_of [Decidable condition]
    (holds : condition) : (if condition then first else second) before = first before := by
  rw [if_pos holds]

theorem iterate_of_again {next : α} (ran : body current before = .ok (.again next) after) :
    iterate exhausted body (bound + 1) current before = iterate exhausted body bound next after :=
  bind_of_ok ran

theorem iterate_of_done {result : β} (ran : body current before = .ok (.done result) after) :
    iterate exhausted body (bound + 1) current before = .ok result after :=
  bind_of_ok ran

/-- What every step preserves, every path preserves. -/
theorem preserved {act : σ → σ → Prop} {holds : σ → Prop} {before after : σ}
    (step : ∀ before after, act before after → holds before → holds after)
    (path : Relation.ReflTransGen act before after) (start : holds before) : holds after := by
  induction path with
  | refl => exact start
  | tail _ last ih => exact step _ _ last ih

end KmodCeph.Lib
