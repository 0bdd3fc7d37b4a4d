import KmodCeph.Crush.Bounds
import KmodCeph.Crush.Hazards

namespace KmodCeph.Crush

open Lib List Nat

def RuleStep.Fills (step : RuleStep) : Prop :=
  step.op = crushRuleChooseIndep ∨ step.op = crushRuleChooseleafIndep

def RuleStep.Chooses (step : RuleStep) : Prop :=
  step.op = crushRuleChooseFirstn ∨ step.op = crushRuleChooseleafFirstn ∨ step.Fills

instance (step : RuleStep) : Decidable step.Fills := inferInstanceAs (Decidable (_ ∨ _))

instance (step : RuleStep) : Decidable step.Chooses := inferInstanceAs (Decidable (_ ∨ _ ∨ _))

def reachedSteps (input : RuleInput) (bound : Nat) : List RuleStep → RuleState → List (RuleStep × RuleState)
  | [], _ => []
  | step :: rest, state =>
    (step, state) ::
      match ruleStep input bound step state with
      | .error _ => []
      | .ok after => reachedSteps input bound rest after

def evaluated (input : RuleInput) (bound : Nat) (ruleno : Int) (scratch : List Int) (perms : Perms) :
    List (RuleStep × RuleState) :=
  match input.map.rules[(UInt32.ofInt ruleno).toNat]? with
  | some (some rule) => reachedSteps input bound rule.steps (input.start scratch perms)
  | _ => []

def Roomy (input : RuleInput) (step : RuleStep) (state : RuleState) : Prop :=
  state.wsize * (resolveNumrep input.resultMax step.arg1).toNat ≤ input.resultMax

section

variable {hazard : Hazard} {input : RuleInput} {bound : Nat} {step : RuleStep} {state : RuleState}

structure RuleState.Safe (state : RuleState) (input : RuleInput) : Prop where
  w : state.w.length = max input.resultMax 1
  o : state.o.length = input.resultMax
  c : state.c.length = input.resultMax
  wsize : state.wsize ≤ max input.resultMax 1
  few : state.result.length ≤ input.resultMax

structure EachSafe (input : RuleInput) (firstn : Bool) (osize numrep count : Nat) (result : Nat × RuleState) : Prop where
  safe : result.2.Safe input
  inside : result.1 ≤ input.resultMax
  fills : firstn = false → result.1 = osize + count * numrep

theorem length_splice {values out : List Int} {osize : Nat} (inside : osize ≤ values.length)
    (kept : out.length = (values.drop osize).length) : (values.take osize ++ out).length = values.length := by
  rw [length_append, kept, List.length_take, length_drop]
  lia

theorem checkSlot_avoids {slot : Int} : Avoids hazard.Faults (input.map.checkSlot slot) fun _ => True := by
  cases hazard with
  | nothing => exact Avoids.nothing
  | scratch =>
    unfold CrushMap.checkSlot
    split
    · exact Avoids.stop nofun
    · exact Avoids.pure trivial

/-- The loop from parent `i`, with `count` parents left and at most `i * numrep`
positions filled. -/
theorem chooseEach_avoids {firstn recurseToLeaf : Bool} {numrep : Nat}
    (resolved : (resolveNumrep input.resultMax step.arg1).toNat = numrep) (safe : state.Safe input) {wsize : Nat}
    (same : state.wsize = wsize) (room : hazard = .scratch → wsize * numrep ≤ input.resultMax) {i count osize : Nat}
    (whole : i + count = wsize) (filled : osize ≤ i * numrep) (inside : osize ≤ input.resultMax) :
    Avoids hazard.Faults (chooseEach input bound step firstn recurseToLeaf count i osize state)
      (EachSafe input firstn osize numrep count) := by
  induction count generalizing i osize state with
  | zero => exact Avoids.pure ⟨safe, inside, fun _ => by simp⟩
  | succ rest ih =>
    have last : (rest + 1) * numrep = rest * numrep + numrep := succ_mul rest numrep
    have below : (i + 1) * numrep ≤ wsize * numrep := mul_le_mul_right _ (by omega)
    have lengthO := safe.o
    have lengthC := safe.c
    have within : i < state.w.length := by
      have := safe.w
      have := safe.wsize
      omega
    unfold chooseEach
    dsimp only
    split
    · have none : numrep = 0 := by lia
      refine Avoids.mono (ih safe same (by lia) (by lia) inside) fun result each => ?_
      refine ⟨each.safe, each.inside, fun fixed => ?_⟩
      have := each.fills fixed
      lia
    refine Avoids.bind _ (Avoids.readAt fun _ => within) fun start _ => ?_
    refine Avoids.bind _ checkSlot_avoids fun _ _ => ?_
    have insideO : hazard = .scratch → (resolveNumrep input.resultMax step.arg1).toNat ≤ (state.o.drop osize).length :=
      fun scratch => by
        have := room scratch
        rw [length_drop]
        lia
    have insideC : hazard = .scratch → (resolveNumrep input.resultMax step.arg1).toNat ≤ (state.c.drop osize).length :=
      fun scratch => by
        have := room scratch
        rw [length_drop]
        lia
    have kept : ∀ {out out2 : List Int} {perms : Perms}, out.length = (state.o.drop osize).length →
        out2.length = (state.c.drop osize).length →
        RuleState.Safe { state with o := state.o.take osize ++ out, c := state.c.take osize ++ out2, perms } input :=
      fun keptO keptC =>
        ⟨safe.w, (length_splice (by lia) keptO).trans lengthO, (length_splice (by lia) keptC).trans lengthC,
          safe.wsize, safe.few⟩
    split
    · rename_i first
      refine Avoids.bind _ (crushChooseFirstn_avoids insideO insideC) fun result chosen => ?_
      obtain ⟨taken, out, out2, perms⟩ := result
      have reached := chosen.reached
      have within := chosen.inside (zero_le _)
      rw [length_drop] at within
      refine Avoids.mono (ih (kept chosen.out chosen.out2) same (by lia) (by lia) (by lia))
        fun result each => ⟨each.safe, each.inside, fun fixed => ?_⟩
      rw [fixed] at first
      cases first
    · refine Avoids.bind _ (crushChooseIndep_avoids insideO insideC) fun result chosen => ?_
      obtain ⟨out, out2, perms⟩ := result
      obtain ⟨keptO, ⟨after, rfl, keptC⟩, within⟩ := chosen
      rw [length_drop] at within
      refine Avoids.mono (ih (kept keptO keptC) same (by lia) (by lia) (by lia))
        fun result each => ⟨each.safe, each.inside, fun fixed => ?_⟩
      have := each.fills fixed
      lia

theorem chooseStep_avoids {firstn recurseToLeaf : Bool} (roomy : hazard = .scratch → Roomy input step state)
    (safe : state.Safe input) :
    Avoids hazard.Faults (chooseStep input bound step firstn recurseToLeaf state) fun after =>
      after.Safe input ∧ (firstn = false → Roomy input step state) := by
  unfold chooseStep
  split
  · rename_i none
    refine Avoids.pure ⟨safe, fun _ => ?_⟩
    rw [Roomy, none, Nat.zero_mul]
    exact zero_le _
  refine Avoids.bind _ (chooseEach_avoids rfl safe rfl roomy (Nat.zero_add _) (zero_le _) (zero_le _)) fun result each => ?_
  obtain ⟨osize, after⟩ := result
  obtain ⟨keeps, inside, fills⟩ := each
  have lengthW := keeps.w
  have lengthO := keeps.o
  refine Avoids.pure ⟨⟨?_, ?_, keeps.c, inside.trans (le_max_left _ _), keeps.few⟩, fun fixed => ?_⟩
  · split
    · simp only [length_append, List.length_take, length_drop]
      lia
    · simp only [length_append, length_drop]
      lia
  · simp only [List.length_take]
    lia
  · have := fills fixed
    unfold Roomy
    lia

theorem ruleStep_avoids (roomy : hazard = .scratch → step.Chooses → Roomy input step state) (safe : state.Safe input) :
    Avoids hazard.Faults (ruleStep input bound step state) fun after =>
      after.Safe input ∧ (step.Fills → Roomy input step state) := by
  have other : ¬ step.Chooses → step.Fills → Roomy input step state := fun plain fills =>
    absurd (.inr (.inr fills)) plain
  have sets : ∀ {condition : Prop} [Decidable condition] {after : RuleState}, ¬ step.Chooses →
      after.Safe input → Avoids hazard.Faults (.ok (if condition then after else state)) fun after =>
        after.Safe input ∧ (step.Fills → Roomy input step state) := by
    intro condition _ after plain holds
    split
    · exact Avoids.pure ⟨holds, other plain⟩
    · exact Avoids.pure ⟨safe, other plain⟩
  have plain : ∀ {op : UInt32}, step.op = op → ¬ RuleStep.Chooses ⟨op, 0, 0⟩ → ¬ step.Chooses := by
    rintro op rfl different
    exact different
  obtain ⟨w, o, c, wsize, few⟩ := id safe
  refine Avoids.ite (fun op => ?_) fun _ => ?_
  · refine Avoids.bind _ (Avoids.place fun _ => by lia) fun after placed => ?_
    exact Avoids.pure ⟨⟨placed.1.trans w, o, c, le_max_right _ _, few⟩, other (plain op (by decide))⟩
  refine Avoids.ite (fun op => sets (plain op (by decide)) ⟨w, o, c, wsize, few⟩) fun _ => ?_
  refine Avoids.ite (fun op => sets (plain op (by decide)) ⟨w, o, c, wsize, few⟩) fun _ => ?_
  refine Avoids.ite (fun op => sets (plain op (by decide)) ⟨w, o, c, wsize, few⟩) fun _ => ?_
  refine Avoids.ite (fun op => sets (plain op (by decide)) ⟨w, o, c, wsize, few⟩) fun _ => ?_
  refine Avoids.ite (fun op => sets (plain op (by decide)) ⟨w, o, c, wsize, few⟩) fun _ => ?_
  refine Avoids.ite (fun op => ?_) fun leafFirstn => ?_
  · refine Avoids.mono (chooseStep_avoids (fun scratch => roomy scratch (.inr (.inl op))) safe)
      fun after kept => ⟨kept.1, fun fills => ?_⟩
    simp only [RuleStep.Fills, op] at fills
    exact absurd fills (by decide)
  refine Avoids.ite (fun op => ?_) fun plainFirstn => ?_
  · refine Avoids.mono (chooseStep_avoids (fun scratch => roomy scratch (.inl op)) safe)
      fun after kept => ⟨kept.1, fun fills => ?_⟩
    simp only [RuleStep.Fills, op] at fills
    exact absurd fills (by decide)
  refine Avoids.ite (fun op => ?_) fun leafIndep => ?_
  · exact Avoids.mono (chooseStep_avoids (fun scratch => roomy scratch (.inr (.inr (.inr op)))) safe)
      fun after kept => ⟨kept.1, fun _ => kept.2 rfl⟩
  refine Avoids.ite (fun op => ?_) fun plainIndep => ?_
  · exact Avoids.mono (chooseStep_avoids (fun scratch => roomy scratch (.inr (.inr (.inl op)))) safe)
      fun after kept => ⟨kept.1, fun _ => kept.2 rfl⟩
  have none : ¬ step.Chooses := by
    rintro (first | first | indep | indep)
    · exact plainFirstn first
    · exact leafFirstn first
    · exact plainIndep indep
    · exact leafIndep indep
  refine Avoids.ite (fun _ => ?_) fun _ => Avoids.pure ⟨safe, other none⟩
  refine Avoids.pure ⟨⟨w, o, c, zero_le _, ?_⟩, other none⟩
  simp only [length_append, List.length_take]
  lia

theorem ruleSteps_avoids {steps : List RuleStep}
    (roomy : hazard = .scratch → ∀ entry ∈ reachedSteps input bound steps state, entry.1.Chooses →
      Roomy input entry.1 entry.2) (safe : state.Safe input) :
    Avoids hazard.Faults (ruleSteps input bound steps state) fun after =>
      after.Safe input ∧
        ∀ entry ∈ reachedSteps input bound steps state, entry.1.Fills → Roomy input entry.1 entry.2 := by
  induction steps generalizing state with
  | nil => exact Avoids.pure ⟨safe, forall_mem_nil _⟩
  | cons step rest ih =>
    have first := @ruleStep_avoids hazard input bound step state
      (fun scratch => roomy scratch (step, state) mem_cons_self) safe
    cases ran : ruleStep input bound step state with
    | error fault =>
      simp only [ruleSteps, ran, bind, Except.bind]
      exact first.error ran
    | ok after =>
      obtain ⟨kept, revealed⟩ := first.ok ran
      simp only [ruleSteps, reachedSteps, ran, bind, Except.bind]
      refine Avoids.mono (ih (fun scratch entry member => roomy scratch entry ?_) kept) fun final holds => ⟨holds.1, ?_⟩
      · simp only [reachedSteps, ran]
        exact mem_cons_of_mem _ member
      · intro entry member
        rcases List.mem_cons.mp member with rfl | later
        · exact revealed
        · exact holds.2 entry later

theorem start_safe {scratch : List Int} {perms : Perms} (space : 3 * input.resultMax ≤ scratch.length)
    (nonempty : 0 < scratch.length) : (input.start scratch perms).Safe input := by
  refine ⟨?_, ?_, ?_, zero_le _, zero_le _⟩
  · simp only [RuleInput.start, List.length_take]
    lia
  · simp only [RuleInput.start, List.length_take, length_drop]
    lia
  · simp only [RuleInput.start, List.length_take, length_drop]
    lia

theorem crushDoRule_avoids {ruleno : Int} {scratch : List Int} {perms : Perms}
    (space : 3 * input.resultMax ≤ scratch.length) (nonempty : 0 < scratch.length)
    (roomy : hazard = .scratch → ∀ entry ∈ evaluated input bound ruleno scratch perms, entry.1.Chooses →
      Roomy input entry.1 entry.2) :
    Avoids hazard.Faults (crushDoRule input bound ruleno scratch perms) fun result =>
      result.1.length ≤ input.resultMax ∧
        ∀ entry ∈ evaluated input bound ruleno scratch perms, entry.1.Fills → Roomy input entry.1 entry.2 := by
  unfold crushDoRule
  unfold evaluated at roomy ⊢
  split
  · rename_i outside
    have missing : input.map.rules[(UInt32.ofInt ruleno).toNat]? = none := List.getElem?_eq_none_iff.mpr outside
    rw [missing]
    exact Avoids.pure ⟨zero_le _, forall_mem_nil _⟩
  rename_i inside
  cases found : input.map.rules[(UInt32.ofInt ruleno).toNat]? with
  | none => exact absurd (List.getElem?_eq_none_iff.mp found) inside
  | some slot =>
    cases slot with
    | none =>
      cases hazard with
      | nothing => exact Avoids.stop id
      | scratch => exact Avoids.stop (by decide)
    | some rule =>
      rw [found] at roomy
      refine Avoids.bind _ (ruleSteps_avoids roomy (start_safe space nonempty)) fun after kept => ?_
      exact Avoids.pure ⟨kept.1.few, kept.2⟩

end

end KmodCeph.Crush
