import KmodCeph.Lib.Trace

namespace KmodCeph.Lib

variable {ε σ τ α β : Type}

/-- From `before`, the program returns as `post` says or stops as `stop` says. -/
def Triple (program : EStateM ε σ α) (before : σ) (post : α → σ → Prop) (stop : ε → σ → Prop) : Prop :=
  match program before with
  | .ok result after => post result after
  | .error fault after => stop fault after

def times : Nat → EStateM ε σ PUnit → EStateM ε σ PUnit
  | 0, _ => pure ⟨⟩
  | count + 1, body => do
    body
    times count body

def gather : Nat → EStateM ε σ α → EStateM ε σ (List α)
  | 0, _ => pure []
  | count + 1, body => do
    let first ← body
    let rest ← gather count body
    pure (first :: rest)

section

variable {before : σ} {stop : ε → σ → Prop}

variable {result : α} {fault : ε} {program : EStateM ε σ α} {after : σ}

theorem Triple.pure {post : α → σ → Prop} (holds : post result before) :
    Triple (Pure.pure result : EStateM ε σ α) before post stop :=
  holds

theorem Triple.throw {post : α → σ → Prop} (holds : stop fault before) :
    Triple (throw fault : EStateM ε σ α) before post stop :=
  holds

theorem Triple.read {next : σ → EStateM ε σ α} {post : α → σ → Prop}
    (triple : Triple (next before) before post stop) : Triple (get >>= next) before post stop :=
  triple

theorem Triple.modify {post : PUnit → σ → Prop} {change : σ → σ} (holds : post ⟨⟩ (change before)) :
    Triple (modify change : EStateM ε σ PUnit) before post stop :=
  holds

theorem Triple.bind {first : EStateM ε σ α} {next : α → EStateM ε σ β} (middle : α → σ → Prop)
    {post : β → σ → Prop} (triple : Triple first before middle stop)
    (continues : ∀ result after, middle result after → Triple (next result) after post stop) :
    Triple (first >>= next) before post stop := by
  unfold Triple at triple ⊢
  simp only [Bind.bind, EStateM.bind]
  cases ran : first before with
  | error fault after =>
    rw [ran] at triple
    exact triple
  | ok result after =>
    rw [ran] at triple
    exact continues result after triple

theorem Triple.mono {program : EStateM ε σ α} {strong weak : α → σ → Prop} {halts ends : ε → σ → Prop}
    (triple : Triple program before strong halts) (weaken : ∀ result after, strong result after → weak result after)
    (loosen : ∀ fault after, halts fault after → ends fault after) : Triple program before weak ends := by
  unfold Triple at triple ⊢
  cases ran : program before with
  | ok result after =>
    rw [ran] at triple
    exact weaken _ _ triple
  | error fault after =>
    rw [ran] at triple
    exact loosen _ _ triple

theorem Triple.weaken {strong weak : α → σ → Prop}
    (triple : Triple program before strong stop) (weaken : ∀ result after, strong result after → weak result after) :
    Triple program before weak stop :=
  triple.mono weaken fun _ _ holds => holds

theorem Triple.both {post other : α → σ → Prop} {halts : ε → σ → Prop}
    (triple : Triple program before post stop) (second : Triple program before other halts) :
    Triple program before (fun result after => post result after ∧ other result after)
      fun fault after => stop fault after ∧ halts fault after := by
  unfold Triple at triple second ⊢
  cases ran : program before with
  | ok result after =>
    rw [ran] at triple second
    exact ⟨triple, second⟩
  | error fault after =>
    rw [ran] at triple second
    exact ⟨triple, second⟩

theorem Triple.any : Triple program before (fun _ _ => True) fun _ _ => True := by
  unfold Triple
  cases program before with
  | ok result after => trivial
  | error fault after => trivial

theorem Triple.ok {post : α → σ → Prop}
    (triple : Triple program before post stop) (ran : program before = .ok result after) : post result after := by
  unfold Triple at triple
  rw [ran] at triple
  exact triple

theorem Triple.error {post : α → σ → Prop}
    (triple : Triple program before post stop) (ran : program before = .error fault after) : stop fault after := by
  unfold Triple at triple
  rw [ran] at triple
  exact triple

theorem Triple.times {body : EStateM ε σ PUnit} (invariant : σ → Prop)
    (pass : ∀ before, invariant before → Triple body before (fun _ after => invariant after) stop)
    {count : Nat} {before : σ} (start : invariant before) :
    Triple (times count body) before (fun _ after => invariant after) stop := by
  induction count generalizing before with
  | zero => exact Triple.pure start
  | succ count ih => exact Triple.bind _ (pass before start) fun _ after kept => ih kept

theorem Triple.gather {body : EStateM ε σ α} (invariant : σ → Prop) {each : α → Prop}
    (pass : ∀ before, invariant before → Triple body before (fun result after => each result ∧ invariant after) stop)
    {count : Nat} {before : σ} (start : invariant before) :
    Triple (gather count body) before
      (fun results after => results.length = count ∧ (∀ result ∈ results, each result) ∧ invariant after) stop := by
  induction count generalizing before with
  | zero => exact Triple.pure ⟨rfl, by simp, start⟩
  | succ count ih =>
    refine Triple.bind _ (pass before start) fun first middle kept => ?_
    refine Triple.bind _ (ih kept.2) fun rest after kept' => ?_
    refine Triple.pure ⟨by simp [kept'.1], fun result member => ?_, kept'.2.2⟩
    rcases List.mem_cons.mp member with rfl | later
    · exact kept.1
    · exact kept'.2.1 result later

end

def valueOf : EStateM.Result ε σ α → Option α
  | .ok result _ => some result
  | .error _ _ => none

def finalState : EStateM.Result ε σ α → σ
  | .ok _ after => after
  | .error _ after => after

variable {result : EStateM.Result ε σ α}

theorem eq_ok_of_valueOf {value : α} (returned : valueOf result = some value) :
    result = .ok value (finalState result) := by
  cases result with
  | ok other after =>
    cases returned
    rfl
  | error fault after => cases returned

def faultOf : EStateM.Result ε σ α → Option ε
  | .ok _ _ => none
  | .error fault _ => some fault

theorem eq_error_of_faultOf {fault : ε} (ended : faultOf result = some fault) :
    result = .error fault (finalState result) := by
  cases result with
  | ok value after => cases ended
  | error other after =>
    cases ended
    rfl

end KmodCeph.Lib
