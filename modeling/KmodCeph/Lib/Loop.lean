import Mathlib.Tactic

namespace KmodCeph.Lib

variable {ε σ ρ α β : Type}

def Returns (computation : Except ε α) (post : α → Prop) : Prop :=
  ∃ result, computation = .ok result ∧ post result

theorem Returns.pure {post : α → Prop} {result : α} (holds : post result) :
    Returns (Except.ok result : Except ε α) post :=
  ⟨result, rfl, holds⟩

theorem Returns.bind {first : Except ε α} {next : α → Except ε β}
    {middle : α → Prop} {post : β → Prop} (runs : Returns first middle)
    (continues : ∀ result, middle result → Returns (next result) post) :
    Returns (first >>= next) post := by
  obtain ⟨result, rfl, holds⟩ := runs
  exact continues result holds

theorem Returns.mono {computation : Except ε α} {weak strong : α → Prop}
    (runs : Returns computation strong) (weaken : ∀ result, strong result → weak result) :
    Returns computation weak := by
  obtain ⟨result, ran, holds⟩ := runs
  exact ⟨result, ran, weaken result holds⟩

theorem ok_of_bind {first : Except ε α} {next : α → Except ε β} {result : β}
    (ran : (first >>= next) = .ok result) :
    ∃ value, first = .ok value ∧ next value = .ok result := by
  cases first with
  | error fault => cases ran
  | ok value => exact ⟨value, rfl, ran⟩

/-- What one turn of a loop says. A loop takes its bound on the turns as an argument and stops with a fault of its own
when it is used up, so that "terminates" is "returns for every large enough bound". -/
inductive Next (σ ρ : Type) where
  | again (state : σ)
  | done (result : ρ)

def Next.Holds (continues : σ → Prop) (stops : ρ → Prop) : Next σ ρ → Prop
  | .again state => continues state
  | .done result => stops result

/-- Repeat `body` until it is done, at most `bound` times. -/
def loop (exhausted : ε) (body : σ → Except ε (Next σ ρ)) : Nat → σ → Except ε ρ
  | 0, _ => .error exhausted
  | bound + 1, state =>
    match body state with
    | .error fault => .error fault
    | .ok (.done result) => .ok result
    | .ok (.again next) => loop exhausted body bound next

variable {exhausted fault : ε} {body : σ → Except ε (Next σ ρ)} {bound : Nat} {state : σ}

theorem loop_again {next : σ} (ran : body state = .ok (.again next)) :
    loop exhausted body (bound + 1) state = loop exhausted body bound next := by
  simp only [loop, ran]

theorem loop_done {result : ρ} (ran : body state = .ok (.done result)) :
    loop exhausted body (bound + 1) state = .ok result := by
  simp only [loop, ran]

theorem loop_error (failed : body state = .error fault) : loop exhausted body (bound + 1) state = .error fault := by
  simp only [loop, failed]

/-- A loop that ends ends the same way with a larger bound. -/
theorem loop_mono {longer : σ → Except ε (Next σ ρ)}
    (follows : ∀ state next, body state = .ok next → longer state = .ok next) {more : Nat} (later : bound ≤ more)
    {result : ρ} (ran : loop exhausted body bound state = .ok result) :
    loop exhausted longer more state = .ok result := by
  induction bound generalizing state more with
  | zero => cases ran
  | succ bound ih =>
    obtain ⟨more, rfl⟩ := Nat.exists_eq_succ_of_ne_zero (show more ≠ 0 by omega)
    cases passed : body state with
    | error fault =>
      rw [loop_error passed] at ran
      cases ran
    | ok next =>
      have passed' := follows _ _ passed
      cases next with
      | done other =>
        rw [loop_done passed] at ran
        rw [loop_done passed', ran]
      | again after =>
        rw [loop_again passed] at ran
        rw [loop_again passed']
        exact ih (by omega) ran

/-- Total correctness of a loop: an invariant indexed by a variant that every
pass through the body lowers. -/
theorem Returns.loop (invariant : Nat → σ → Prop) {post : ρ → Prop} (pass : ∀ variant state, invariant variant state →
      Returns (body state) (Next.Holds (fun after => ∃ lower < variant, invariant lower after) post))
    {variant : Nat} (enough : variant < bound) (start : invariant variant state) :
    Returns (loop exhausted body bound state) post := by
  induction bound generalizing variant state with
  | zero => omega
  | succ bound ih =>
    obtain ⟨next, ran, decided⟩ := pass variant state start
    cases next with
    | done result =>
      rw [loop_done ran]
      exact ⟨result, rfl, decided⟩
    | again after =>
      obtain ⟨lower, below, holds⟩ := decided
      rw [loop_again ran]
      exact ih (by omega) holds

/-- Divergence of a loop: an invariant under which the body always asks for
another pass. -/
theorem loop_exhausted (invariant : σ → Prop)
    (pass : ∀ state, invariant state → ∃ after, body state = .ok (.again after) ∧ invariant after)
    (bound : Nat) (start : invariant state) : loop exhausted body bound state = .error exhausted := by
  induction bound generalizing state with
  | zero => rfl
  | succ bound ih =>
    obtain ⟨after, ran, holds⟩ := pass state start
    rw [loop_again ran]
    exact ih holds

theorem foldlM_mono {short long : β → α → Except ε β}
    (longer : ∀ state item next, short state item = .ok next → long state item = .ok next) {items : List α}
    {start result : β} (ran : items.foldlM short start = .ok result) : items.foldlM long start = .ok result := by
  induction items generalizing start with
  | nil => exact ran
  | cons item rest ih =>
    rw [List.foldlM_cons] at ran ⊢
    obtain ⟨next, first, ran⟩ := ok_of_bind ran
    rw [longer start item next first]
    exact ih ran

def readAt (fault : ε) (values : List α) (index : Nat) : Except ε α :=
  match values[index]? with
  | some value => .ok value
  | none => .error fault

def writeAt (fault : ε) (values : List α) (index : Nat) (value : α) : Except ε (List α) :=
  if index < values.length then .ok (values.set index value) else .error fault

theorem readAt_eq_ok {fault : ε} {values : List α} {index : Nat} (bounded : index < values.length) :
    readAt fault values index = .ok values[index] := by
  simp [readAt, bounded]

theorem writeAt_eq_ok {values : List α} {index : Nat} {value : α} (bounded : index < values.length) :
    writeAt fault values index value = .ok (values.set index value) := by
  simp [writeAt, bounded]

end KmodCeph.Lib
