import KmodCeph.Lib.Loop

namespace KmodCeph.Lib

variable {ε σ ρ α β : Type}

/-- The computation returns as `post` says, or stops with a fault that is not bad. -/
def Avoids (bad : ε → Prop) (computation : Except ε α) (post : α → Prop) : Prop :=
  match computation with
  | .ok result => post result
  | .error fault => ¬ bad fault

section

variable {bad : ε → Prop} {post : α → Prop}

variable {result : α} {fault : ε} {computation : Except ε α} {values : List α} {index : Nat}

theorem Avoids.pure (holds : post result) : Avoids bad (.ok result : Except ε α) post :=
  holds

theorem Avoids.stop (harmless : ¬ bad fault) : Avoids bad (.error fault : Except ε α) post :=
  harmless

theorem Avoids.nothing : Avoids (fun _ => False) computation fun _ => True := by
  cases computation with
  | error fault => exact id
  | ok result => exact trivial

theorem Avoids.bind {first : Except ε α} {next : α → Except ε β} (middle : α → Prop) {post : β → Prop}
    (avoids : Avoids bad first middle) (continues : ∀ result, middle result → Avoids bad (next result) post) :
    Avoids bad (first >>= next) post := by
  cases first with
  | error fault => exact avoids
  | ok result => exact continues result avoids

theorem Avoids.mono {computation : Except ε α} {strong : α → Prop} (avoids : Avoids bad computation strong)
    (weaken : ∀ result, strong result → post result) : Avoids bad computation post := by
  cases computation with
  | error fault => exact avoids
  | ok result => exact weaken result avoids

theorem Avoids.map {change : α → β} {post : β → Prop}
    (avoids : Avoids bad computation fun result => post (change result)) :
    Avoids bad (computation.map change) post := by
  cases computation with
  | error fault => exact avoids
  | ok result => exact avoids

theorem Avoids.ite {condition : Prop} [Decidable condition] {first second : Except ε α}
    (holds : condition → Avoids bad first post) (fails : ¬ condition → Avoids bad second post) :
    Avoids bad (if condition then first else second) post := by
  split
  · exact holds ‹_›
  · exact fails ‹_›

theorem Avoids.ok (avoids : Avoids bad computation post) (ran : computation = .ok result) : post result := by
  subst ran
  exact avoids

theorem Avoids.error (avoids : Avoids bad computation post) (ran : computation = .error fault) : ¬ bad fault := by
  subst ran
  exact avoids

theorem Avoids.loop {exhausted : ε} {body : σ → Except ε (Next σ ρ)} (invariant : σ → Prop) {post : ρ → Prop}
    (harmless : ¬ bad exhausted)
    (pass : ∀ state, invariant state → Avoids bad (body state) (Next.Holds invariant post))
    {bound : Nat} {state : σ} (start : invariant state) :
    Avoids bad (loop exhausted body bound state) post := by
  induction bound generalizing state with
  | zero => exact harmless
  | succ bound ih =>
    have decided := pass state start
    cases ran : body state with
    | error fault =>
      rw [loop_error ran]
      exact decided.error ran
    | ok next =>
      have holds := decided.ok ran
      cases next with
      | done result =>
        rw [loop_done ran]
        exact holds
      | again after =>
        rw [loop_again ran]
        exact ih holds

theorem Avoids.readAt (inside : bad fault → index < values.length) :
    Avoids bad (readAt fault values index) fun value => values[index]? = some value := by
  unfold Lib.readAt
  split
  · exact ‹_›
  · rename_i missing
    intro wrong
    exact absurd (List.getElem?_eq_none_iff.mp missing) (Nat.not_le.mpr (inside wrong))

theorem Avoids.writeAt {value : α} (inside : bad fault → index < values.length) :
    Avoids bad (writeAt fault values index value) fun after =>
      after = values.set index value ∧ index < values.length := by
  unfold Lib.writeAt
  split
  · exact ⟨rfl, ‹_›⟩
  · rename_i outside
    exact fun wrong => outside (inside wrong)

end

end KmodCeph.Lib
