import KmodCeph.Lib.Trace

namespace KmodCeph.Lib

open List

variable {ε σ : Type}

def repeatCalls (call : EStateM ε σ Int) : Nat → EStateM ε σ Int
  | 0 => pure 0
  | calls + 1 => do
    let ret ← call
    if ret = 0 then repeatCalls call calls else pure ret

structure Transfer (body : EStateM ε σ (Next PUnit Int)) (answers : σ → List Int) (code : Int → Int)
    (left : Nat → σ → Prop) (finished : σ → Prop) : Prop where
  blocked : ∀ count before, left count before → 0 < count → (answers before).headD 0 ≤ 0 →
    ∃ after, body before = .ok (.done (code ((answers before).headD 0))) after ∧ left count after ∧
      answers after = (answers before).tail
  moved : ∀ count before, left count before → 0 < count → 0 < (answers before).headD 0 →
    ∃ lower after, lower < count ∧ body before = .ok (.again ⟨⟩) after ∧ left lower after ∧
      answers after = (answers before).tail
  stopped : ∀ before, left 0 before → ∃ after, body before = .ok (.done 1) after ∧ finished after
  codes : ∀ answer, answer ≤ 0 → code answer ≤ 0

/-- Answers that let a number of calls finish: enough of them take something,
none is an error, and there are more calls than interruptions. -/
structure Patient (code : Int → Int) (count calls : Nat) (answers : List Int) : Prop where
  eager : count ≤ answers.countP fun answer => 0 < answer
  mild : ∀ answer ∈ answers, answer ≤ 0 → code answer = 0
  calls : answers.countP (fun answer => answer ≤ 0) < calls

section

variable {body : EStateM ε σ (Next PUnit Int)} {answers : σ → List Int} {code : Int → Int}
variable {left : Nat → σ → Prop} {finished : σ → Prop}

variable {replies : List Int}

theorem Patient.moved {count lower calls : Nat} (patient : Patient code count calls replies)
    (below : lower < count) (taken : 0 < replies.headD 0) : Patient code lower calls replies.tail := by
  obtain ⟨eager, mild, fewer⟩ := patient
  cases replies with
  | nil => cases taken
  | cons answer rest =>
    simp only [headD_cons] at taken
    simp only [countP_cons, taken, decide_true, if_true] at eager
    have not_ : ¬ answer ≤ 0 := by omega
    simp only [countP_cons, not_, decide_false, Bool.false_eq_true, if_false] at fewer
    exact ⟨by simp only [tail_cons]; omega, fun other member => mild other (by simp at member; simp [member]), fewer⟩

theorem Patient.blocked {count calls : Nat} (patient : Patient code count (calls + 1) replies)
    (some_ : 0 < count) (refused : replies.headD 0 ≤ 0) :
    code (replies.headD 0) = 0 ∧ Patient code count calls replies.tail := by
  obtain ⟨eager, mild, fewer⟩ := patient
  cases replies with
  | nil =>
    simp only [countP_nil] at eager
    omega
  | cons answer rest =>
    simp only [headD_cons] at refused ⊢
    have not_ : ¬ 0 < answer := by omega
    simp only [countP_cons, not_, decide_false, Bool.false_eq_true, if_false] at eager
    simp only [countP_cons, refused, decide_true, if_true] at fewer
    exact ⟨mild answer (by simp) refused, ⟨by simpa using eager,
      fun other member => mild other (by simp at member; simp [member]), by simp only [tail_cons]; omega⟩⟩

theorem Transfer.call {exhausted : ε} (transfer : Transfer body answers code left finished) {bound count : Nat}
    {before : σ} (start : left count before) (enough : count < bound) :
    ∃ ret after, iterate exhausted (fun _ => body) bound PUnit.unit before = .ok ret after ∧
      (ret = 1 ∧ finished after ∨ ret ≤ 0 ∧ ∃ lower ≤ count, left lower after ∧
        ∀ calls, Patient code count (calls + 1) (answers before) → ret = 0 ∧ Patient code lower calls (answers after)) := by
  induction bound generalizing count before with
  | zero => omega
  | succ bound ih =>
    rcases Nat.eq_zero_or_pos count with rfl | some_
    · obtain ⟨after, ran, done⟩ := transfer.stopped before start
      exact ⟨1, after, iterate_of_done ran, .inl ⟨rfl, done⟩⟩
    · by_cases refused : (answers before).headD 0 ≤ 0
      · obtain ⟨after, ran, kept, rest⟩ := transfer.blocked count before start some_ refused
        refine ⟨_, after, iterate_of_done ran, .inr ⟨transfer.codes _ refused, count, le_rfl, kept, ?_⟩⟩
        intro calls patient
        rw [rest]
        exact patient.blocked some_ refused
      · have taken : 0 < (answers before).headD 0 := by omega
        obtain ⟨lower, middle, below, ran, kept, rest⟩ := transfer.moved count before start some_ taken
        obtain ⟨ret, after, calledAgain, ended⟩ := ih kept (by omega)
        refine ⟨ret, after, (iterate_of_again ran).trans calledAgain, ?_⟩
        rcases ended with done | ⟨stopped, last, bounded, left_, patience⟩
        · exact .inl done
        · refine .inr ⟨stopped, last, by omega, left_, fun calls patient => patience calls ?_⟩
          rw [rest]
          exact patient.moved below taken

theorem Transfer.calls {exhausted : ε} {call : EStateM ε σ Int} (transfer : Transfer body answers code left finished)
    {bound : Nat} (called : ∀ count before, left count before →
      call before = iterate exhausted (fun _ => body) bound PUnit.unit before)
    (calls : Nat) {count : Nat} {before : σ} (start : left count before) (enough : count < bound) :
    ∃ ret after, repeatCalls call calls before = .ok ret after ∧
      (ret = 1 ∧ finished after ∨ ret ≤ 0 ∧ ∃ lower ≤ count, left lower after) ∧
      (Patient code count calls (answers before) → ret = 1) := by
  induction calls generalizing count before with
  | zero =>
    exact ⟨0, before, rfl, .inr ⟨le_rfl, count, le_rfl, start⟩, fun patient => by
      have none_ := patient.calls
      omega⟩
  | succ calls ih =>
    obtain ⟨ret, middle, ran, ended⟩ := transfer.call start enough
    have first : repeatCalls call (calls + 1) before =
        (if ret = 0 then repeatCalls call calls else pure ret) middle :=
      bind_of_ok ((called count before start).trans ran)
    rcases ended with ⟨rfl, done⟩ | ⟨stopped, lower, bounded, left_, patience⟩
    · exact ⟨1, middle, first, .inl ⟨rfl, done⟩, fun _ => rfl⟩
    · by_cases zero : ret = 0
      · obtain ⟨last, after, ranAgain, result, waits⟩ := ih left_ (by omega)
        rw [first, if_pos zero]
        refine ⟨last, after, ranAgain, ?_, fun patient => waits (patience calls patient).2⟩
        rcases result with done | ⟨stopped, final, below, rest⟩
        · exact .inl done
        · exact .inr ⟨stopped, final, by omega, rest⟩
      · rw [first, if_neg zero]
        exact ⟨ret, middle, rfl, .inr ⟨stopped, lower, bounded, left_⟩, fun patient =>
          absurd (patience calls patient).1 zero⟩

end

end KmodCeph.Lib
