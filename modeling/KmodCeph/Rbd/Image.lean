import KmodCeph.Lib.Reached
import Mathlib.Algebra.Order.BigOperators.Group.List
import Mathlib.Data.List.Range

namespace KmodCeph.Rbd

open Lib List

inductive ObjOperationType where
  | write
  | read
  | discard
deriving DecidableEq

inductive ObjRequestType where
  | nodata
  | bio
  | pages
deriving DecidableEq

/-- What `rbd_handle_request` fills an image request with. -/
def ObjOperationType.dataType : ObjOperationType → ObjRequestType
  | .write => .bio
  | .read => .bio
  | .discard => .nodata

/-- `struct rbd_obj_request`, with its flags; `present` is `OBJ_REQ_EXISTS`, and the stage is what the
object request is at. -/
structure ObjRequest (σ : Type) where
  offset : Nat
  length : Nat
  imgOffset : Nat
  type : ObjRequestType
  done : Bool
  known : Bool
  present : Bool
  xferred : Nat
  result : Int
  stage : σ

/-- `struct rbd_img_request`. `rq` is what is left of the block request, `ended` the object requests that
`rbd_img_obj_end_request` has been applied to, and `completed` counts the calls of
`rbd_img_request_complete`. -/
structure ImgRequest (σ : Type) where
  op : ObjOperationType
  child : Bool
  layered : Bool
  offset : Nat
  length : Nat
  objRequests : List (ObjRequest σ)
  nextCompletion : Nat
  result : Int
  xferred : Nat
  refs : Nat
  rq : Nat
  ended : List Nat
  completed : Nat

inductive RbdAssert where
  | whichBelow
  | moreLeft
  | xferredFits
  | moreUnlessLast
  | hasData
  | typed
  | parent
  | parentXferred
  | startsBelow
  | endFits
  | detached

def uintMax : Nat := 2 ^ 32 - 1

def rbdSegmentOffset (order offset : Nat) : Nat :=
  offset % 2 ^ order

def rbdSegmentLength (order offset length : Nat) : Nat :=
  let offset := offset % 2 ^ order
  if offset + length > 2 ^ order then 2 ^ order - offset else length

section

variable {σ : Type}

/-- The object request that `rbd_img_request_fill` creates for the next segment. -/
def rbdObjRequestCreate (order : Nat) (type : ObjRequestType) (stage : σ) (imgOffset resid : Nat) : ObjRequest σ where
  offset := rbdSegmentOffset order imgOffset
  length := rbdSegmentLength order imgOffset resid
  imgOffset := imgOffset
  type := type
  done := false
  known := false
  present := false
  xferred := 0
  result := 0
  stage := stage

/-- The loop of `rbd_img_request_fill`, which makes progress for as long as there are bytes. -/
def fillObjRequests (order : Nat) (type : ObjRequestType) (stage : σ) : Nat → Nat → Nat → List (ObjRequest σ)
  | 0, _, _ => []
  | fuel + 1, imgOffset, resid =>
    if resid = 0 then []
    else
      let obj := rbdObjRequestCreate order type stage imgOffset resid
      obj :: fillObjRequests order type stage fuel (imgOffset + obj.length) (resid - obj.length)

theorem rbdSegmentLength_pos {order offset length : Nat} (some : 0 < length) : 0 < rbdSegmentLength order offset length := by
  have inside : offset % 2 ^ order < 2 ^ order := Nat.mod_lt _ (Nat.two_pow_pos order)
  unfold rbdSegmentLength
  dsimp only
  split
  · lia
  · exact some

theorem rbdSegmentLength_le {order offset length : Nat} : rbdSegmentLength order offset length ≤ length := by
  unfold rbdSegmentLength
  dsimp only
  split
  · lia
  · exact le_refl _

theorem rbdSegmentLength_segment {order offset length : Nat} :
    rbdSegmentOffset order offset + rbdSegmentLength order offset length ≤ 2 ^ order := by
  have inside : offset % 2 ^ order < 2 ^ order := Nat.mod_lt _ (Nat.two_pow_pos order)
  unfold rbdSegmentLength rbdSegmentOffset
  dsimp only
  split <;> lia

theorem fillObjRequests_sum {order : Nat} {type : ObjRequestType} {stage : σ} {fuel imgOffset resid : Nat} (enough : resid ≤ fuel) :
    ((fillObjRequests order type stage fuel imgOffset resid).map (·.length)).sum = resid := by
  induction fuel generalizing imgOffset resid with
  | zero =>
    have none : resid = 0 := by omega
    simp [fillObjRequests, none]
  | succ fuel ih =>
    unfold fillObjRequests
    split
    next none => simp [none]
    next some =>
      have positive := @rbdSegmentLength_pos order imgOffset resid (by omega)
      have within := @rbdSegmentLength_le order imgOffset resid
      dsimp only [rbdObjRequestCreate]
      rw [map_cons, sum_cons, ih (by lia)]
      lia

theorem fillObjRequests_mem {order : Nat} {type : ObjRequestType} {stage : σ} {fuel imgOffset resid : Nat}
    {obj : ObjRequest σ} (listed : obj ∈ fillObjRequests order type stage fuel imgOffset resid) :
    0 < obj.length ∧ obj.length ≤ resid ∧ obj.offset = obj.imgOffset % 2 ^ order ∧ obj.offset + obj.length ≤ 2 ^ order ∧
    imgOffset ≤ obj.imgOffset ∧ obj.imgOffset + obj.length ≤ imgOffset + resid ∧
    obj.type = type ∧ obj.done = false ∧ obj.known = false ∧ obj.present = false ∧ obj.xferred = 0 ∧
    obj.result = 0 ∧ obj.stage = stage := by
  induction fuel generalizing imgOffset resid with
  | zero => cases listed
  | succ fuel ih =>
    unfold fillObjRequests at listed
    split at listed
    · cases listed
    next some =>
      have positive := @rbdSegmentLength_pos order imgOffset resid (by omega)
      have within := @rbdSegmentLength_le order imgOffset resid
      rcases List.mem_cons.mp listed with rfl | later
      · have end' : imgOffset + rbdSegmentLength order imgOffset resid ≤ imgOffset + resid := by omega
        exact ⟨positive, within, rfl, rbdSegmentLength_segment, le_refl _, end', rfl, rfl, rfl, rfl, rfl, rfl, rfl⟩
      · obtain ⟨length, below, aligned, segment, first, last, rest⟩ := ih later
        exact ⟨length, by omega, aligned, segment, by omega, by lia, rest⟩

section

variable {order imgOffset resid fuel position : Nat} {type : ObjRequestType} {stage : σ} {obj : ObjRequest σ}

theorem rbdSegmentLength_end (more : rbdSegmentLength order imgOffset resid < resid) :
    imgOffset + rbdSegmentLength order imgOffset resid = (imgOffset / 2 ^ order + 1) * 2 ^ order := by
  have inside : imgOffset % 2 ^ order < 2 ^ order := Nat.mod_lt _ (Nat.two_pow_pos order)
  have parts := Nat.div_add_mod' imgOffset (2 ^ order)
  unfold rbdSegmentLength at more ⊢
  dsimp only at more ⊢
  split at more
  next across =>
    lia
  · omega

theorem fillObjRequests_later (listed : obj ∈ fillObjRequests order type stage fuel (imgOffset + rbdSegmentLength order imgOffset resid)
    (resid - rbdSegmentLength order imgOffset resid)) : imgOffset / 2 ^ order + 1 ≤ obj.imgOffset / 2 ^ order ∧
      imgOffset + rbdSegmentLength order imgOffset resid = (imgOffset / 2 ^ order + 1) * 2 ^ order := by
  obtain ⟨positive, within, -, -, after, -⟩ := fillObjRequests_mem listed
  have end' := @rbdSegmentLength_end order imgOffset resid (by lia)
  rw [end'] at after
  exact ⟨(Nat.le_div_iff_mul_le (Nat.two_pow_pos order)).mpr after, end'⟩

theorem fillObjRequests_numbers : ((fillObjRequests order type stage fuel imgOffset resid).map (·.imgOffset / 2 ^ order)).Nodup := by
  induction fuel generalizing imgOffset resid with
  | zero => exact nodup_nil
  | succ fuel ih =>
    unfold fillObjRequests
    split
    · exact nodup_nil
    · refine List.nodup_cons.mpr ⟨?_, ih⟩
      intro again
      obtain ⟨obj, later, same⟩ := List.mem_map.mp again
      dsimp only [rbdObjRequestCreate] at later same
      have after := (fillObjRequests_later later).1
      omega

end

namespace ImgRequest

/-- `blk_end_request`, which returns whether bytes of the block request are left. -/
def blkEndRequest (bytes : Nat) (img : ImgRequest σ) : Bool × ImgRequest σ :=
  (img.rq - bytes ≠ 0, { img with rq := img.rq - bytes })

def rbdImgObjEndRequest (which : Nat) (obj : ObjRequest σ) (img : ImgRequest σ) :
    Except RbdAssert (Bool × ImgRequest σ) := do
  haltIf (uintMax < obj.xferred) .xferredFits
  let img := { img with
    result := if img.result = 0 then obj.result else img.result
    ended := img.ended ++ [which] }
  if img.child then return (which < img.objRequests.length - 1, img)
  else return img.blkEndRequest obj.xferred

/-- The loop of `rbd_img_obj_callback`, from the object request that is next. -/
def endRequests : List (ObjRequest σ) → Nat → Bool → ImgRequest σ → Except RbdAssert (Nat × Bool × ImgRequest σ)
  | [], which, more, img => return (which, more, img)
  | obj :: rest, which, more, img => do
    haltIf (more = false) .moreLeft
    haltIf (¬ which < img.objRequests.length) .whichBelow
    if obj.done = false then return (which, more, img)
    else
      let (more, img) ← img.rbdImgObjEndRequest which obj
      endRequests rest (which + 1) more img

def rbdImgObjCallback (which : Nat) (img : ImgRequest σ) : Except RbdAssert (Bool × ImgRequest σ) := do
  haltIf (¬ which < img.objRequests.length) .whichBelow
  if which ≠ img.nextCompletion then return (true, img)
  else
    let (which, more, img) ← endRequests (img.objRequests.drop which) which true img
    haltIf (more = (which = img.objRequests.length : Bool)) .moreUnlessLast
    return (more, { img with nextCompletion := which })

def rbdImgRequestPut (img : ImgRequest σ) : ImgRequest σ :=
  { img with refs := img.refs - 1 }

/-- `rbd_img_request_complete` and the put that it or the callback of a child ends with. -/
def rbdImgRequestComplete (img : ImgRequest σ) : ImgRequest σ :=
  { img with
    xferred := if img.result = 0 then (img.objRequests.map ObjRequest.xferred).sum else img.xferred
    completed := img.completed + 1 }.rbdImgRequestPut

/-- `rbd_img_obj_callback` from the unlock on. -/
def finishCallback (more : Bool) (img : ImgRequest σ) : ImgRequest σ :=
  if more then img.rbdImgRequestPut else img.rbdImgRequestPut.rbdImgRequestComplete

end ImgRequest

def firstError (results : List Int) : Int :=
  (results.find? (· ≠ 0)).getD 0

theorem firstError_snoc {results : List Int} {result : Int} :
    firstError (results ++ [result]) = if firstError results = 0 then result else firstError results := by
  induction results with
  | nil =>
    by_cases zero : result = 0 <;> simp [firstError, zero]
  | cons first rest ih =>
    by_cases zero : first = 0
    · simpa [firstError, zero] using ih
    · simp [firstError, zero]

def ImgRequest.endedTo (last : Nat) (img : ImgRequest σ) : ImgRequest σ :=
  { img with
    result := firstError ((img.objRequests.take last).map (·.result))
    rq := if img.child then img.rq else ((img.objRequests.drop last).map (·.length)).sum
    ended := List.range last }

/-- An object request that is done has transferred its length, which is not 0. -/
def ObjRequest.Whole (obj : ObjRequest σ) : Prop :=
  0 < obj.length ∧ obj.length ≤ uintMax ∧ (obj.done = true → obj.xferred = obj.length)

/-- The object requests before the next have been ended, and only they. -/
structure ImgRequest.Ends (img : ImgRequest σ) : Prop where
  next : img.nextCompletion ≤ img.objRequests.length
  ended : img = img.endedTo img.nextCompletion
  done : ∀ obj ∈ img.objRequests.take img.nextCompletion, obj.done = true
  whole : ∀ obj ∈ img.objRequests, obj.Whole

variable {img : ImgRequest σ} {which : Nat} {obj : ObjRequest σ} {objs : List (ObjRequest σ)}

theorem split_at_which (rest : img.objRequests.drop which = obj :: objs) :
    img.objRequests.take (which + 1) = img.objRequests.take which ++ [obj] ∧ img.objRequests.drop (which + 1) = objs ∧
    which < img.objRequests.length ∧ obj ∈ img.objRequests := by
  have below : which < img.objRequests.length := by
    by_contra above
    rw [drop_eq_nil_of_le (by omega)] at rest
    cases rest
  have here : img.objRequests[which]? = some obj := by
    rw [← head?_drop, rest, head?_cons]
  refine ⟨?_, ?_, below, mem_of_getElem? here⟩
  · rw [take_add_one, here]
    rfl
  · rw [← drop_drop, rest, drop_one, tail_cons]

theorem sum_drop_pos (positive : ∀ obj ∈ img.objRequests, 0 < obj.length) :
    ((img.objRequests.drop which).map (·.length)).sum ≠ 0 ↔ which < img.objRequests.length := by
  cases rest : img.objRequests.drop which with
  | nil =>
    have all := List.drop_eq_nil_iff.mp rest
    simp only [map_nil, sum_nil, ne_eq, not_true_eq_false, false_iff]
    omega
  | cons obj objs =>
    obtain ⟨-, -, below, listed⟩ := split_at_which rest
    have some := positive obj listed
    rw [map_cons, sum_cons]
    exact ⟨fun _ => below, fun _ => by omega⟩

theorem endRequest_step (rest : img.objRequests.drop which = obj :: objs) (whole : ∀ obj ∈ img.objRequests, obj.Whole)
    (done : obj.done = true) : (img.endedTo which).rbdImgObjEndRequest which obj =
      .ok (decide (which + 1 < img.objRequests.length), img.endedTo (which + 1)) := by
  obtain ⟨taken, dropped, below, listed⟩ := split_at_which rest
  obtain ⟨positive, fits, transferred⟩ := whole obj listed
  have xferred := transferred done
  have passes : ¬ uintMax < obj.xferred := by omega
  have result : (img.endedTo (which + 1)).result =
      if (img.endedTo which).result = 0 then obj.result else (img.endedTo which).result := by
    unfold ImgRequest.endedTo
    rw [taken, map_append, map_cons, map_nil, firstError_snoc]
  have ended : (img.endedTo (which + 1)).ended = (img.endedTo which).ended ++ [which] := range_succ
  unfold ImgRequest.rbdImgObjEndRequest
  rw [haltIf, if_neg passes]
  rw [← result, ← ended]
  cases child : img.child with
  | true =>
    have more : decide (which < img.objRequests.length - 1) = decide (which + 1 < img.objRequests.length) := by
      congr 1
      exact propext (by lia)
    simp only [ImgRequest.endedTo, child, if_true, more]
    rfl
  | false =>
    have left : ((img.objRequests.drop which).map (·.length)).sum = obj.length + (objs.map (·.length)).sum := by
      rw [rest, map_cons, sum_cons]
    have rq : (img.endedTo which).rq - obj.xferred = (img.endedTo (which + 1)).rq := by
      simp only [ImgRequest.endedTo, child, Bool.false_eq_true, if_false, dropped]
      lia
    have more : decide ((img.endedTo (which + 1)).rq ≠ 0) = decide (which + 1 < img.objRequests.length) := by
      simp only [ImgRequest.endedTo, child, Bool.false_eq_true, if_false]
      congr 1
      exact propext (sum_drop_pos fun obj listed => (whole obj listed).1)
    have here : (img.endedTo which).child = false := child
    simp only [here, Bool.false_eq_true, if_false, ImgRequest.blkEndRequest, rq, more]
    simp only [ImgRequest.endedTo, child]
    rfl

/-- The loop of `rbd_img_obj_callback` ends what is done, up to the first object request that is not. -/
theorem endRequests_ended (rest : img.objRequests.drop which = objs) (whole : ∀ obj ∈ img.objRequests, obj.Whole)
    (below : which ≤ img.objRequests.length) : ∃ last, which ≤ last ∧ last ≤ img.objRequests.length ∧
      (∀ obj ∈ (img.objRequests.take last).drop which, obj.done = true) ∧
      (∀ obj, img.objRequests[last]? = some obj → obj.done = false) ∧
      ImgRequest.endRequests objs which (decide (which < img.objRequests.length)) (img.endedTo which) =
        .ok (last, decide (last < img.objRequests.length), img.endedTo last) := by
  induction objs generalizing which with
  | nil =>
    have all : img.objRequests.length ≤ which := List.drop_eq_nil_iff.mp rest
    refine ⟨which, le_refl _, below, ?_, ?_, rfl⟩
    · simp
    · intro obj here
      rw [getElem?_eq_none all] at here
      cases here
  | cons obj rest' ih =>
    obtain ⟨taken, dropped, inside, listed⟩ := split_at_which rest
    have length : (img.endedTo which).objRequests.length = img.objRequests.length := rfl
    have here : img.objRequests[which]? = some obj := by
      rw [← head?_drop, rest, head?_cons]
    unfold ImgRequest.endRequests
    simp only [haltIf, length, inside, decide_true, Bool.true_eq_false, if_false, not_true_eq_false, bind, Except.bind]
    cases done : obj.done with
    | false =>
      refine ⟨which, le_refl _, below, by simp, ?_, ?_⟩
      · intro other found
        rw [here] at found
        cases found
        exact done
      · simp only [if_true, inside, decide_true]
        rfl
    | true =>
      simp only [Bool.true_eq_false, if_false, endRequest_step rest whole done]
      obtain ⟨last, after, within, ended, open', ran⟩ := ih dropped inside
      refine ⟨last, by omega, within, ?_, open', ran⟩
      intro other member
      have split' : (img.objRequests.take last).drop which = obj :: (img.objRequests.take last).drop (which + 1) := by
        rw [drop_take, rest, drop_take, dropped]
        rw [show last - which = last - (which + 1) + 1 by lia, take_succ_cons]
      rw [split'] at member
      rcases List.mem_cons.mp member with rfl | later
      · exact done
      · exact ended other later

theorem endedTo_next {last : Nat} : ({ img.endedTo last with nextCompletion := last } : ImgRequest σ) =
    ({ img.endedTo last with nextCompletion := last } : ImgRequest σ).endedTo last := by
  cases child : img.child <;> simp [ImgRequest.endedTo, child]

theorem ImgRequest.Ends.callback (ends : img.Ends) (inside : img.nextCompletion < img.objRequests.length) :
    ∃ last, img.nextCompletion ≤ last ∧ last ≤ img.objRequests.length ∧
      (∀ obj, img.objRequests[last]? = some obj → obj.done = false) ∧
      ({ img.endedTo last with nextCompletion := last } : ImgRequest σ).Ends ∧
      img.rbdImgObjCallback img.nextCompletion =
        .ok (decide (last < img.objRequests.length), { img.endedTo last with nextCompletion := last }) := by
  obtain ⟨last, after, within, ended, open', ran⟩ := @endRequests_ended _ img img.nextCompletion _ rfl ends.whole ends.next
  refine ⟨last, after, within, open', ⟨within, endedTo_next, ?_, ends.whole⟩, ?_⟩
  · intro obj listed
    have parts : img.objRequests.take last =
        img.objRequests.take img.nextCompletion ++ (img.objRequests.take last).drop img.nextCompletion := by
      have short : (img.objRequests.take last).take img.nextCompletion = img.objRequests.take img.nextCompletion := by
        rw [take_take, Nat.min_eq_left after]
      rw [← short]
      exact (take_append_drop _ _).symm
    have member : obj ∈ img.objRequests.take last := listed
    rw [parts] at member
    exact (List.mem_append.mp member).elim (ends.done obj) (ended obj)
  · unfold ImgRequest.rbdImgObjCallback
    rw [← ends.ended, decide_eq_true inside] at ran
    simp only [haltIf, inside, not_true_eq_false, if_false, ne_eq, bind, Except.bind, ran]
    have exclusive : ¬ (decide (last < img.objRequests.length) = decide (last = (img.endedTo last).objRequests.length)) := by
      change ¬ (decide (last < img.objRequests.length) = decide (last = img.objRequests.length))
      rcases Nat.lt_or_eq_of_le within with less | all
      · simp [less, Nat.ne_of_lt less]
      · simp [all]
    rw [if_neg exclusive]
    rfl

theorem ImgRequest.Ends.counts {refs completed xferred : Nat} (ends : img.Ends) :
    ({ img with
      refs := refs
      completed := completed
      xferred := xferred } : ImgRequest σ).Ends := by
  refine ⟨ends.next, ?_, ends.done, ends.whole⟩
  have ended := ends.ended
  unfold ImgRequest.endedTo at ended ⊢
  conv_lhs => rw [ended]

theorem callback_parked (inside : which < img.objRequests.length) (parked : which ≠ img.nextCompletion) :
    img.rbdImgObjCallback which = .ok (true, img) := by
  unfold ImgRequest.rbdImgObjCallback
  simp only [haltIf, inside, not_true_eq_false, if_false, bind, Except.bind, parked, ne_eq, not_false_eq_true, if_true]
  rfl

theorem endRequests_completed {more more' : Bool} {last : Nat} {ended : ImgRequest σ}
    (ran : ImgRequest.endRequests objs which more img = .ok (last, more', ended)) : ended.completed = img.completed := by
  induction objs generalizing which more img with
  | nil =>
    cases ran
    rfl
  | cons obj rest ih =>
    obtain ⟨-, -, ran⟩ := ok_of_bind ran
    obtain ⟨-, -, ran⟩ := ok_of_bind ran
    split at ran
    · cases ran
      rfl
    · obtain ⟨⟨more, next⟩, step, ran⟩ := ok_of_bind ran
      obtain ⟨-, -, step⟩ := ok_of_bind step
      rw [ih ran]
      dsimp only at step
      split at step
      · cases step
        rfl
      · cases step
        rfl

theorem callback_completed {more : Bool} {ended : ImgRequest σ} (ran : img.rbdImgObjCallback which = .ok (more, ended)) :
    ended.completed = img.completed := by
  obtain ⟨-, -, ran⟩ := ok_of_bind ran
  split at ran
  · cases ran
    rfl
  · obtain ⟨⟨last, more, next⟩, loop, ran⟩ := ok_of_bind ran
    obtain ⟨-, -, ran⟩ := ok_of_bind ran
    cases ran
    have same := endRequests_completed loop
    exact same

def ImgRequest.setObj (which : Nat) (change : ObjRequest σ → ObjRequest σ) (img : ImgRequest σ) : ImgRequest σ :=
  { img with objRequests := img.objRequests.modify which change }

theorem map_modify_same {α β : Type} {items : List α} {change : α → α} {view : α → β} {at' : Nat}
    (same : ∀ item, items[at']? = some item → view (change item) = view item) :
    (items.modify at' change).map view = items.map view := by
  refine ext_getElem? fun index => ?_
  rw [getElem?_map, getElem?_map, getElem?_modify]
  cases found : items[index]? with
  | none => rfl
  | some item =>
    by_cases here : at' = index
    · subst here
      simp [same item found]
    · simp [here]

theorem countP_modify {α : Type} {items : List α} {change : α → α} {at' : Nat} {item : α} {holds : α → Bool}
    (found : items[at']? = some item) : (items.modify at' change).countP holds + (holds item).toNat =
      items.countP holds + (holds (change item)).toNat := by
  have inside : at' < items.length := (List.getElem?_eq_some_iff.mp found).1
  obtain ⟨before, here, after, parts, length, changed⟩ := exists_of_modify change inside
  have same : here = item := by
    rw [parts, getElem?_append_right (by omega), length] at found
    simpa using found
  rw [changed, parts, same]
  simp only [countP_append, countP_cons]
  cases holds item <;> cases holds (change item) <;> simp <;> lia

theorem mem_modify {α : Type} {items : List α} {change : α → α} {at' : Nat} {item : α}
    (listed : item ∈ items.modify at' change) : item ∈ items ∨ ∃ old, items[at']? = some old ∧ item = change old := by
  obtain ⟨index, found⟩ := mem_iff_getElem?.mp listed
  rw [getElem?_modify] at found
  obtain ⟨old, here, same⟩ := Option.map_eq_some_iff.mp found
  by_cases equal : at' = index
  · subst equal
    rw [if_pos rfl] at same
    exact .inr ⟨old, here, same.symm⟩
  · rw [if_neg equal] at same
    exact .inl (same ▸ mem_of_getElem? here)

theorem ImgRequest.Ends.setObj {change : ObjRequest σ → ObjRequest σ} (ends : img.Ends)
    (length : ∀ obj, img.objRequests[which]? = some obj → (change obj).length = obj.length)
    (early : ∀ obj, img.objRequests[which]? = some obj → which < img.nextCompletion →
      (change obj).result = obj.result ∧ (change obj).done = obj.done)
    (whole : ∀ obj, img.objRequests[which]? = some obj → obj.Whole → (change obj).Whole) : (img.setObj which change).Ends := by
  have taken : ∀ {β : Type} (view : ObjRequest σ → β), (∀ obj, img.objRequests[which]? = some obj →
      which < img.nextCompletion → view (change obj) = view obj) →
      ((img.objRequests.modify which change).take img.nextCompletion).map view =
        (img.objRequests.take img.nextCompletion).map view := by
    intro β view same
    rw [take_modify]
    refine map_modify_same fun obj found => ?_
    have inside := (List.getElem?_eq_some_iff.mp found).1
    rw [List.length_take] at inside
    rw [getElem?_take_of_lt (by lia)] at found
    exact same obj found (by lia)
  refine ⟨?_, ?_, ?_, ?_⟩
  · simpa [ImgRequest.setObj] using ends.next
  · have results := taken ObjRequest.result fun obj found before => (early obj found before).1
    have lengths : ((img.objRequests.modify which change).drop img.nextCompletion).map (·.length) =
        (img.objRequests.drop img.nextCompletion).map (·.length) := by
      rw [map_drop, map_drop, map_modify_same length]
    have ended := ends.ended
    unfold ImgRequest.endedTo at ended ⊢
    unfold ImgRequest.setObj
    rw [results, lengths]
    conv_lhs => rw [ended]
  · intro obj listed
    have dones := taken ObjRequest.done fun obj found before => (early obj found before).2
    have member : obj.done ∈ (img.objRequests.take img.nextCompletion).map ObjRequest.done := by
      rw [← dones]
      exact mem_map_of_mem listed
    obtain ⟨old, listed', same⟩ := List.mem_map.mp member
    rw [← same]
    exact ends.done old listed'
  · intro obj listed
    rcases mem_modify listed with was | ⟨old, here, rfl⟩
    · exact ends.whole obj was
    · exact whole old here (ends.whole old (mem_of_getElem? here))

end

end KmodCeph.Rbd
