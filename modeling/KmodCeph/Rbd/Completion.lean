import KmodCeph.Rbd.Image

namespace KmodCeph.Rbd

open Lib List

inductive CallbackStage where
  | pending
  /-- It has dropped the lock. -/
  | unlocked (more : Bool)
  | returned
deriving DecidableEq

/-- States of object requests, with where their callback is. -/
class HasCallback (σ : Type) where
  callback : σ → CallbackStage

instance CallbackStage.hasCallback : HasCallback CallbackStage where
  callback stage := stage

section

variable {σ : Type}

def ImgRequest.filled (op : ObjOperationType) (type : ObjRequestType) (child layered : Bool)
    (order offset length xferred : Nat) (stage : σ) : ImgRequest σ :=
  let objRequests := fillObjRequests order type stage length offset length
  { op := op
    child := child
    layered := layered
    offset := offset
    length := length
    objRequests := objRequests
    nextCompletion := 0
    result := 0
    xferred := xferred
    refs := 1 + objRequests.length
    rq := length
    ended := []
    completed := 0 }

variable [HasCallback σ]

def ObjRequest.callback (obj : ObjRequest σ) : CallbackStage :=
  HasCallback.callback obj.stage

def ObjRequest.Held (obj : ObjRequest σ) : Bool :=
  obj.callback ≠ .returned

/-- An object request whose callback has ended the last one. -/
def ObjRequest.Closes (obj : ObjRequest σ) : Bool :=
  obj.callback = .unlocked false

structure Completing (img : ImgRequest σ) : Prop where
  nonempty : 0 < img.objRequests.length
  ends : img.Ends
  open' : ∀ obj, img.objRequests[img.nextCompletion]? = some obj → obj.done = true → obj.callback = .pending
  called : ∀ obj ∈ img.objRequests, obj.callback ≠ .pending → obj.done = true
  once : img.completed + img.objRequests.countP (·.Closes) = if img.nextCompletion = img.objRequests.length then 1 else 0
  refs : img.refs = (if img.completed = 0 then 1 else 0) + img.objRequests.countP (·.Held)
  xferred : img.completed ≠ 0 → img.result = 0 → img.xferred = (img.objRequests.map (·.length)).sum

end

/-- The done flag of an object request is set, its callback takes the lock, and it goes on without it. -/
inductive CompletionCall where
  | done (which : Nat) (result : Int)
  | callback (which : Nat)
  | finish (which : Nat)
deriving DecidableEq

def CompletionCall.run : CompletionCall → ImgRequest CallbackStage → Except RbdAssert (ImgRequest CallbackStage)
  | .done which result, img => return img.setObj which fun obj => { obj with
      done := true
      xferred := obj.length
      result := result }
  | .callback which, img => do
    let (more, img) ← img.rbdImgObjCallback which
    return img.setObj which fun obj => { obj with stage := .unlocked more }
  | .finish which, img =>
    match img.objRequests[which]? with
    | none => return img
    | some obj =>
      match obj.stage with
      | .unlocked more => return (img.setObj which fun obj => { obj with stage := .returned }).finishCallback more
      | _ => return img

/-- A callback runs once, after its done flag is set. -/
def CompletionCall.Proper : CompletionCall → ImgRequest CallbackStage → Prop
  | .done which _, img => ∃ obj, img.objRequests[which]? = some obj ∧ obj.done = false
  | .callback which, img => ∃ obj, img.objRequests[which]? = some obj ∧ obj.done = true ∧ obj.stage = .pending
  | .finish which, img => ∃ obj more, img.objRequests[which]? = some obj ∧ obj.stage = .unlocked more

section

variable {σ : Type} [HasCallback σ] {img : ImgRequest σ} {which : Nat} {obj : ObjRequest σ}
variable {change : ObjRequest σ → ObjRequest σ} {stage : σ}

theorem Completing.filled {op : ObjOperationType} {type : ObjRequestType} {child layered : Bool}
    {order offset length xferred : Nat} (some : 0 < length) (fits : min length (2 ^ order) ≤ uintMax)
    (pending : HasCallback.callback stage = .pending) :
    Completing (.filled op type child layered order offset length xferred stage) := by
  have sum := @fillObjRequests_sum _ order type stage length offset length (le_refl _)
  have mem : ∀ obj ∈ fillObjRequests order type stage length offset length,
      0 < obj.length ∧ obj.length ≤ uintMax ∧ obj.done = false ∧ obj.callback = .pending := by
    intro obj listed
    obtain ⟨positive, below, -, segment, -, -, -, done, -, -, -, -, at'⟩ := fillObjRequests_mem listed
    exact ⟨positive, by lia, done, by rw [ObjRequest.callback, at', pending]⟩
  have nonempty : 0 < (fillObjRequests order type stage length offset length).length := by
    rw [length_pos_iff]
    intro none
    rw [none] at sum
    simp only [map_nil, sum_nil] at sum
    omega
  refine ⟨nonempty, ⟨Nat.zero_le _, ?_, ?_, ?_⟩, ?_, ?_, ?_, ?_, ?_⟩
  · cases child <;> simp [ImgRequest.endedTo, ImgRequest.filled, firstError, sum]
  · simp [ImgRequest.filled]
  · intro obj listed
    obtain ⟨positive, below, done, -⟩ := mem obj listed
    exact ⟨positive, below, fun set => by rw [done] at set; cases set⟩
  · intro obj found done
    rw [(mem obj (mem_of_getElem? found)).2.2.1] at done
    cases done
  · intro obj listed called
    exact absurd (mem obj listed).2.2.2 called
  · have none : (fillObjRequests order type stage length offset length).countP (·.Closes) = 0 := by
      refine List.countP_eq_zero.mpr fun obj listed => ?_
      simp [ObjRequest.Closes, (mem obj listed).2.2.2]
    have differs : (0 : Nat) ≠ (fillObjRequests order type stage length offset length).length := by omega
    simp [ImgRequest.filled, none, differs]
  · have all : (fillObjRequests order type stage length offset length).countP (·.Held) =
        (fillObjRequests order type stage length offset length).length := by
      refine List.countP_eq_length.mpr fun obj listed => ?_
      simp [ObjRequest.Held, (mem obj listed).2.2.2]
    simp [ImgRequest.filled, all]
  · intro completed
    exact absurd rfl completed

section

variable (completing : Completing img) (here : img.objRequests[which]? = some obj) (unset : obj.done = false)
include completing here unset

theorem Completing.late : ¬ which < img.nextCompletion := by
  intro before
  have taken : (img.objRequests.take img.nextCompletion)[which]? = some obj := by
    rw [getElem?_take_of_lt before]
    exact here
  rw [completing.ends.done obj (mem_of_getElem? taken)] at unset
  cases unset

theorem Completing.pending : obj.callback = .pending := by
  by_contra called
  rw [completing.called obj (mem_of_getElem? here) called] at unset
  cases unset

/-- A change of an object request that is not done, which can set its done flag. -/
theorem Completing.progress (length : (change obj).length = obj.length) (pending : (change obj).callback = .pending)
    (whole : (change obj).done = true → (change obj).xferred = obj.length) : Completing (img.setObj which change) := by
  have late := completing.late here unset
  have before := completing.pending here unset
  have lengths : ∀ other, img.objRequests[which]? = some other → (change other).length = other.length := by
    intro other found
    rw [here] at found
    cases found
    exact length
  refine ⟨?_, ?_, ?_, ?_, ?_, ?_, ?_⟩
  · simpa [ImgRequest.setObj] using completing.nonempty
  · refine completing.ends.setObj lengths (fun _ _ before => absurd before late) ?_
    intro other found kept
    rw [here] at found
    cases found
    exact ⟨length.symm ▸ kept.1, length.symm ▸ kept.2.1, fun set => (whole set).trans length.symm⟩
  · intro other found set
    simp only [ImgRequest.setObj] at found
    by_cases at' : which = img.nextCompletion
    · rw [← at', getElem?_modify_eq, here] at found
      cases found
      exact pending
    · rw [getElem?_modify_ne _ _ at'] at found
      exact completing.open' other found set
  · intro other listed called
    rcases mem_modify listed with was | ⟨old, found, rfl⟩
    · exact completing.called other was called
    · rw [here] at found
      cases found
      exact absurd pending called
  · have counts := @countP_modify _ img.objRequests change which obj (·.Closes) here
    have same : (change obj).Closes = obj.Closes := by simp only [ObjRequest.Closes, pending, before]
    have once := completing.once
    simp only [ImgRequest.setObj, length_modify]
    lia
  · have counts := @countP_modify _ img.objRequests change which obj (·.Held) here
    have same : (change obj).Held = obj.Held := by simp only [ObjRequest.Held, pending, before]
    have refs := completing.refs
    change img.refs = (if img.completed = 0 then 1 else 0) + (img.objRequests.modify which _).countP _
    lia
  · intro completed clean
    have same := @map_modify_same _ _ img.objRequests change (fun obj => obj.length) which lengths
    have set' := completing.xferred completed clean
    simp only [ImgRequest.setObj, same]
    exact set'

end

theorem Completing.setStage (nonempty : 0 < img.objRequests.length) (ends : img.Ends)
    (open' : ∀ obj, img.objRequests[img.nextCompletion]? = some obj → obj.done = true → which ≠ img.nextCompletion ∧ obj.callback = .pending)
    (called : ∀ obj ∈ img.objRequests, obj.callback ≠ .pending → obj.done = true)
    (here : img.objRequests[which]? = some obj) (done : obj.done = true)
    (once : img.completed + img.objRequests.countP (·.Closes) + (decide (HasCallback.callback stage = .unlocked false)).toNat =
      (if img.nextCompletion = img.objRequests.length then 1 else 0) + obj.Closes.toNat)
    (refs : img.refs + obj.Held.toNat = (if img.completed = 0 then 1 else 0) + img.objRequests.countP (·.Held) +
      (decide (HasCallback.callback stage ≠ .returned)).toNat)
    (xferred : img.completed ≠ 0 → img.result = 0 → img.xferred = (img.objRequests.map (·.length)).sum) :
    Completing (img.setObj which fun obj => { obj with stage := stage }) := by
  refine ⟨?_, ?_, ?_, ?_, ?_, ?_, ?_⟩
  · simpa [ImgRequest.setObj] using nonempty
  · exact ends.setObj (fun _ _ => rfl) (fun _ _ _ => ⟨rfl, rfl⟩) fun _ _ whole => whole
  · intro other found set
    simp only [ImgRequest.setObj] at found
    by_cases at' : which = img.nextCompletion
    · rw [at'] at here
      exact absurd at' (open' obj here done).1
    · rw [getElem?_modify_ne _ _ at'] at found
      exact (open' other found set).2
  · intro other listed gone
    rcases mem_modify listed with was | ⟨old, found, rfl⟩
    · exact called other was gone
    · rw [here] at found
      cases found
      exact done
  · have counts := @countP_modify _ img.objRequests (fun obj => { obj with stage := stage }) which obj (·.Closes) here
    have closes : ({ obj with stage := stage } : ObjRequest σ).Closes = decide (HasCallback.callback stage = .unlocked false) := rfl
    simp only [ImgRequest.setObj, length_modify]
    lia
  · have counts := @countP_modify _ img.objRequests (fun obj => { obj with stage := stage }) which obj (·.Held) here
    have held : ({ obj with stage := stage } : ObjRequest σ).Held = decide (HasCallback.callback stage ≠ .returned) := rfl
    change img.refs = (if img.completed = 0 then 1 else 0) + (img.objRequests.modify which _).countP _
    lia
  · intro completed clean
    have same := @map_modify_same _ _ img.objRequests (fun obj => { obj with stage := stage }) (fun obj => obj.length) which
      fun _ _ => rfl
    simp only [ImgRequest.setObj, same]
    exact xferred completed clean

theorem Completing.callback {unlocked : Bool → σ} (completing : Completing img) (here : img.objRequests[which]? = some obj)
    (done : obj.done = true) (pending : obj.callback = .pending)
    (stages : ∀ more, HasCallback.callback (unlocked more) = .unlocked more) :
    ∃ more last, img.rbdImgObjCallback which = .ok (more, { img.endedTo last with nextCompletion := last }) ∧
      Completing (({ img.endedTo last with nextCompletion := last } : ImgRequest σ).setObj which fun obj =>
        { obj with stage := unlocked more }) := by
  have inside := (List.getElem?_eq_some_iff.mp here).1
  have open'' : obj.Closes = false := by simp [ObjRequest.Closes, pending]
  have held : obj.Held = true := by simp [ObjRequest.Held, pending]
  have once := completing.once
  have refs := completing.refs
  by_cases parked : which = img.nextCompletion
  · subst parked
    obtain ⟨last, after, within, later, ends, ran⟩ := completing.ends.callback inside
    have differs : img.nextCompletion ≠ img.objRequests.length := Nat.ne_of_lt inside
    rw [if_neg differs] at once
    refine ⟨_, last, ran, ?_⟩
    refine @Completing.setStage _ _ { img.endedTo last with nextCompletion := last } img.nextCompletion obj _
      completing.nonempty ends ?_ completing.called here done ?_ ?_ ?_
    · intro other found set
      rw [later other found] at set
      cases set
    · rw [open'', stages]
      change img.completed + img.objRequests.countP (·.Closes) + _ = (if last = img.objRequests.length then 1 else 0) + 0
      rcases Nat.lt_or_eq_of_le within with less | all
      · simp [less, Nat.ne_of_lt less, once]
      · simp [all, once]
    · rw [held, stages]
      change img.refs + 1 = (if img.completed = 0 then 1 else 0) + img.objRequests.countP (·.Held) + _
      simp [refs]
    · intro completed
      have completed : img.completed ≠ 0 := completed
      lia
  · have same : ({ img.endedTo img.nextCompletion with nextCompletion := img.nextCompletion } : ImgRequest σ) = img := by
      conv_rhs => rw [completing.ends.ended]
      rfl
    refine ⟨true, img.nextCompletion, ?_, ?_⟩
    · rw [same]
      exact callback_parked inside parked
    · rw [same]
      refine Completing.setStage completing.nonempty completing.ends ?_ completing.called here done ?_ ?_ completing.xferred
      · intro other found set
        exact ⟨parked, completing.open' other found set⟩
      · simp [open'', once, stages]
      · simp [held, refs, stages]

theorem Completing.finish {more : Bool} (completing : Completing img) (here : img.objRequests[which]? = some obj)
    (unlocked : obj.callback = .unlocked more) (returned : HasCallback.callback stage = .returned) :
    Completing ((img.setObj which fun obj => { obj with stage := stage }).finishCallback more) := by
  have gone : obj.callback ≠ .pending := by
    rw [unlocked]
    exact nofun
  have done := completing.called obj (mem_of_getElem? here) gone
  have open'' : ∀ obj, img.objRequests[img.nextCompletion]? = some obj → obj.done = true →
      which ≠ img.nextCompletion ∧ obj.callback = .pending := by
    intro other found set
    refine ⟨?_, completing.open' other found set⟩
    intro at'
    rw [at'] at here
    exact gone (completing.open' obj here done)
  have held : obj.Held = true := by simp [ObjRequest.Held, unlocked]
  have some : 0 < img.objRequests.countP (·.Held) :=
    List.countP_pos_iff.mpr ⟨obj, mem_of_getElem? here, held⟩
  have once := completing.once
  have refs := completing.refs
  cases more with
  | true =>
    have closes : obj.Closes = false := by simp [ObjRequest.Closes, unlocked]
    refine @Completing.setStage _ _ { img with refs := img.refs - 1 } which obj stage completing.nonempty completing.ends.counts
      open'' completing.called here done ?_ ?_ completing.xferred
    · simp [closes, once, returned]
    · simp only [held, refs, returned]
      simp
      lia
  | false =>
    have closes : obj.Closes = true := by simp [ObjRequest.Closes, unlocked]
    have last : 0 < img.objRequests.countP (·.Closes) :=
      List.countP_pos_iff.mpr ⟨obj, mem_of_getElem? here, closes⟩
    have all : img.nextCompletion = img.objRequests.length := by
      by_contra differs
      rw [if_neg differs] at once
      omega
    have fresh : img.completed = 0 := by
      rw [if_pos all] at once
      omega
    rw [if_pos all] at once
    rw [if_pos fresh] at refs
    have lengths : (img.objRequests.map ObjRequest.xferred).sum = (img.objRequests.map (·.length)).sum := by
      have same : img.objRequests.map ObjRequest.xferred = img.objRequests.map (·.length) := by
        refine map_congr_left fun other listed => ?_
        have ended : other ∈ img.objRequests.take img.nextCompletion := by
          rw [all, take_length]
          exact listed
        exact (completing.ends.whole other listed).2.2 (completing.ends.done other ended)
      rw [same]
    have stages : ((img.setObj which fun obj => { obj with stage := stage }).objRequests.map ObjRequest.xferred) =
        img.objRequests.map ObjRequest.xferred := map_modify_same fun _ _ => rfl
    unfold ImgRequest.finishCallback ImgRequest.rbdImgRequestComplete ImgRequest.rbdImgRequestPut
    rw [stages, lengths]
    refine @Completing.setStage _ _
      { img with
        xferred := if img.result = 0 then (img.objRequests.map (·.length)).sum else img.xferred
        completed := img.completed + 1
        refs := img.refs - 1 - 1 } which obj stage completing.nonempty completing.ends.counts open'' completing.called here
      done ?_ ?_ ?_
    · simp [closes, all, returned]
      omega
    · simp only [held, refs, returned]
      simp
      lia
    · intro _ clean
      exact if_pos clean

/-- What the object requests wait for at first does not matter. -/
theorem Completing.restage {choose : ObjRequest σ → σ} (completing : Completing img) (unset : ∀ obj ∈ img.objRequests, obj.done = false)
    (pending : ∀ obj, HasCallback.callback (choose obj) = .pending) :
    Completing { img with objRequests := img.objRequests.map fun obj => { obj with stage := choose obj } } := by
  have same : ∀ {β : Type} (view : ObjRequest σ → β), (∀ obj stage, view { obj with stage := stage } = view obj) →
      (img.objRequests.map fun obj => { obj with stage := choose obj }).map view = img.objRequests.map view := by
    intro β view kept
    rw [map_map]
    exact map_congr_left fun obj _ => kept obj _
  have before : ∀ obj ∈ img.objRequests, obj.callback = .pending := by
    intro obj listed
    by_contra called
    have done := completing.called obj listed called
    rw [unset obj listed] at done
    cases done
  have after : ∀ obj ∈ img.objRequests.map fun obj => { obj with stage := choose obj },
      obj.callback = .pending ∧ obj.done = false := by
    intro obj listed
    obtain ⟨old, was, rfl⟩ := List.mem_map.mp listed
    exact ⟨pending old, unset old was⟩
  have counts : ∀ holds : CallbackStage → Bool, (img.objRequests.map fun obj => { obj with stage := choose obj }).countP
      (fun obj => holds obj.callback) = img.objRequests.countP fun obj => holds obj.callback := by
    intro holds
    rw [countP_map]
    refine countP_congr fun obj listed => ?_
    simp only [Function.comp, ObjRequest.callback, pending]
    rw [← ObjRequest.callback, before obj listed]
  refine ⟨?_, ⟨?_, ?_, ?_, ?_⟩, ?_, ?_, ?_, ?_, ?_⟩
  · simpa using completing.nonempty
  · simpa using completing.ends.next
  · have results := same ObjRequest.result fun _ _ => rfl
    have lengths := same (fun obj => obj.length) fun _ _ => rfl
    have ended := completing.ends.ended
    unfold ImgRequest.endedTo at ended ⊢
    rw [map_take, map_drop, results, lengths, ← map_take, ← map_drop]
    conv_lhs => rw [ended]
  · intro obj listed
    obtain ⟨old, was, rfl⟩ := List.mem_map.mp (map_take ▸ listed)
    exact completing.ends.done old was
  · intro obj listed
    obtain ⟨old, was, rfl⟩ := List.mem_map.mp listed
    exact completing.ends.whole old was
  · intro obj found _
    exact (after obj (mem_of_getElem? found)).1
  · intro obj listed called
    exact absurd (after obj listed).1 called
  · have once := completing.once
    have closes := counts fun stage => stage = .unlocked false
    simp only [ObjRequest.Closes] at once ⊢
    simpa only [closes, length_map] using once
  · have refs := completing.refs
    have held := counts fun stage => stage ≠ .returned
    simp only [ObjRequest.Held] at refs ⊢
    simpa only [held] using refs
  · intro completed clean
    have lengths := same (fun obj => obj.length) fun _ _ => rfl
    exact (completing.xferred completed clean).trans (congrArg List.sum lengths.symm)

theorem Completing.all_returned (completing : Completing img) (returned : ∀ obj ∈ img.objRequests, obj.callback = .returned) :
    img.nextCompletion = img.objRequests.length ∧ img.completed = 1 := by
  have none : img.objRequests.countP (·.Closes) = 0 := by
    refine List.countP_eq_zero.mpr fun obj listed => ?_
    simp [ObjRequest.Closes, returned obj listed]
  have once := completing.once
  have all : img.nextCompletion = img.objRequests.length := by
    by_contra differs
    have inside : img.nextCompletion < img.objRequests.length := Nat.lt_of_le_of_ne completing.ends.next differs
    have here := getElem?_eq_getElem inside
    have gone : img.objRequests[img.nextCompletion].callback ≠ .pending := by
      rw [returned _ (getElem_mem inside)]
      exact nofun
    exact gone (completing.open' _ here (completing.called _ (getElem_mem inside) gone))
  rw [if_pos all] at once
  exact ⟨all, by omega⟩

end

section

variable {img next : ImgRequest CallbackStage} {call : CompletionCall} {which : Nat} {obj : ObjRequest CallbackStage}

theorem CompletionCall.completing (completing : Completing img) (meets : call.Proper img) : Returns (call.run img) Completing := by
  cases call with
  | done which result =>
    obtain ⟨obj, here, unset⟩ := meets
    have pending := completing.pending here unset
    exact ⟨_, rfl, completing.progress here unset rfl pending fun _ => rfl⟩
  | callback which =>
    obtain ⟨obj, here, done, pending⟩ := meets
    obtain ⟨more, last, ran, after⟩ := completing.callback here done pending fun _ => rfl
    refine ⟨_, ?_, after⟩
    simp only [CompletionCall.run, ran, bind, Except.bind]
    rfl
  | finish which =>
    obtain ⟨obj, more, here, unlocked⟩ := meets
    refine ⟨_, ?_, completing.finish here unlocked rfl⟩
    simp only [CompletionCall.run, here, unlocked]
    rfl

@[simp] theorem ObjRequest.callback_stage : obj.callback = obj.stage :=
  rfl

theorem ObjRequest.closes_iff : obj.Closes = true ↔ obj.stage = .unlocked false := by
  simp only [ObjRequest.Closes, decide_eq_true_eq]
  rfl

/-- Only the end of a callback that closes completes the image request. -/
theorem CompletionCall.completes_iff (ran : call.run img = .ok next) : next.completed ≠ img.completed ↔
    ∃ which obj, call = .finish which ∧ img.objRequests[which]? = some obj ∧ obj.Closes = true := by
  cases call with
  | done which result =>
    cases ran
    simp [ImgRequest.setObj]
  | callback which =>
    obtain ⟨⟨more, ended⟩, callback, ran⟩ := ok_of_bind ran
    cases ran
    have same : ended.completed = img.completed := callback_completed callback
    simp [ImgRequest.setObj, same]
  | finish which =>
    unfold CompletionCall.run at ran
    cases found : img.objRequests[which]? with
    | none =>
      simp only [found] at ran
      cases ran
      simp [found]
    | some obj =>
      simp only [found] at ran
      cases stage : obj.stage with
      | unlocked more =>
        simp only [stage] at ran
        cases ran
        cases more <;> simp [ImgRequest.finishCallback, ImgRequest.rbdImgRequestComplete, ImgRequest.rbdImgRequestPut,
          ImgRequest.setObj, found, ObjRequest.closes_iff, stage]
      | pending =>
        simp only [stage] at ran
        cases ran
        simp [found, ObjRequest.closes_iff, stage]
      | returned =>
        simp only [stage] at ran
        cases ran
        simp [found, ObjRequest.closes_iff, stage]

/-- A callback closes when it ends the last object request. -/
theorem Completing.closes_iff (completing : Completing img) (here : img.objRequests[which]? = some obj)
    (ran : (CompletionCall.callback which).run img = .ok next) : (∃ obj, next.objRequests[which]? = some obj ∧ obj.Closes = true) ↔
      img.nextCompletion < next.nextCompletion ∧ next.nextCompletion = img.objRequests.length := by
  have inside := (List.getElem?_eq_some_iff.mp here).1
  obtain ⟨⟨more, ended⟩, callback, ran⟩ := ok_of_bind ran
  cases ran
  simp only [ImgRequest.setObj, getElem?_modify_eq]
  by_cases parked : which = img.nextCompletion
  · subst parked
    obtain ⟨last, after, within, later, ends, ended'⟩ := completing.ends.callback inside
    rw [callback] at ended'
    cases ended'
    change (∃ other, Option.map _ img.objRequests[img.nextCompletion]? = some other ∧ _) ↔
      img.nextCompletion < last ∧ last = img.objRequests.length
    rw [here]
    simp only [Option.map_some, Option.some.injEq, exists_eq_left', ObjRequest.closes_iff, CallbackStage.unlocked.injEq,
      decide_eq_false_iff_not]
    lia
  · rw [callback_parked inside parked] at callback
    cases callback
    rw [here]
    simp [ObjRequest.closes_iff]

/-- What holds at every moment of the completion of an image request. -/
structure ImgRequest.CompletesOnce (img : ImgRequest CallbackStage) : Prop where
  inOrder : img.ended = List.range img.nextCompletion
  within : img.nextCompletion ≤ img.objRequests.length
  once : img.completed + img.objRequests.countP (·.Closes) = if img.nextCompletion = img.objRequests.length then 1 else 0
  result : img.completed ≠ 0 → img.result = firstError (img.objRequests.map (·.result))
  xferred : img.completed ≠ 0 → img.result = 0 → img.xferred = (img.objRequests.map (·.length)).sum
  refs : img.refs = (if img.completed = 0 then 1 else 0) + img.objRequests.countP (·.Held)
  finished : (∀ obj ∈ img.objRequests, obj.stage = .returned) → img.completed = 1

theorem Completing.completesOnce (completing : Completing img) : img.CompletesOnce := by
  have once := completing.once
  refine ⟨?_, completing.ends.next, once, ?_, completing.xferred, completing.refs, ?_⟩
  · rw [completing.ends.ended]
    rfl
  · intro completed
    have all : img.nextCompletion = img.objRequests.length := by
      by_contra differs
      rw [if_neg differs] at once
      lia
    have result := congrArg ImgRequest.result completing.ends.ended
    simp only [ImgRequest.endedTo, all, take_length] at result
    exact result
  · exact fun returned => (completing.all_returned returned).2

end

section

variable {op : ObjOperationType} {type : ObjRequestType} {child layered : Bool} {order offset length xferred : Nat}

/-- Whatever the order of the done flags and the callbacks, the object requests end in order, and the
callback that ends the last one completes the image request. -/
theorem imgRequest_completesOnce (nonempty : 0 < length) (fits : min length (2 ^ order) ≤ uintMax) {img : ImgRequest CallbackStage}
    (reached : Reached CompletionCall.run CompletionCall.Proper (.filled op type child layered order offset length xferred .pending) img) :
    img.CompletesOnce ∧ ∀ call : CompletionCall, call.Proper img → ∃ next, call.run img = .ok next ∧
      (next.completed ≠ img.completed ↔
        ∃ which obj, call = .finish which ∧ img.objRequests[which]? = .some obj ∧ obj.Closes = true) ∧
      ∀ which, call = .callback which → ((∃ obj, next.objRequests[which]? = .some obj ∧ obj.Closes = true) ↔
        img.nextCompletion < next.nextCompletion ∧ next.nextCompletion = img.objRequests.length) := by
  have keeps : Keeps CompletionCall.run CompletionCall.Proper Completing :=
    fun call before meets completing => CompletionCall.completing completing meets
  have completing := reached.holds keeps (.filled nonempty fits rfl)
  refine ⟨completing.completesOnce, fun call meets => ?_⟩
  obtain ⟨next, ran, -⟩ := keeps call img meets completing
  refine ⟨next, ran, CompletionCall.completes_iff ran, ?_⟩
  intro which is
  subst is
  obtain ⟨obj, here, -⟩ := meets
  exact completing.closes_iff here ran

/-- Three object requests, the last of which is the first to be done. -/
theorem imgRequest_completesOnce_reversed : ∃ img : ImgRequest CallbackStage,
    Reached CompletionCall.run CompletionCall.Proper (.filled .read .bio false false 9 512 1536 0 .pending) img ∧ img.CompletesOnce ∧
    img.completed = 1 ∧ img.result = -5 := by
  have begun : Reached CompletionCall.run CompletionCall.Proper (.filled .read .bio false false 9 512 1536 0 .pending) _ := .start
  have done := begun.next (.done 2 (-7)) ⟨_, rfl, rfl⟩ rfl
  have parked := done.next (.callback 2) ⟨_, rfl, rfl, rfl⟩ rfl
  have done' := parked.next (.done 1 (-5)) ⟨_, rfl, rfl⟩ rfl
  have first := done'.next (.done 0 0) ⟨_, rfl, rfl⟩ rfl
  have closes := first.next (.callback 0) ⟨_, rfl, rfl, rfl⟩ rfl
  have late := closes.next (.callback 1) ⟨_, rfl, rfl, rfl⟩ rfl
  have completes := late.next (.finish 0) ⟨_, _, rfl, rfl⟩ rfl
  exact ⟨_, completes, (imgRequest_completesOnce (by decide) (by decide) completes).1, by decide, by decide⟩

end

end KmodCeph.Rbd
