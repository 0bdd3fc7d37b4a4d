import KmodCeph.Rbd.Completion

namespace KmodCeph.Rbd

open Lib List

inductive FillFailure where
  | objectName
  | objRequest
  | bioClone
  | osdRequest
deriving DecidableEq

def FillFailure.added : FillFailure → Bool
  | .objectName => false
  | .objRequest => false
  | .bioClone => true
  | .osdRequest => true

/-- The submission of an object request fails, or `rbd_img_obj_exists_submit` fails in one of its steps. -/
inductive SubmitFailure where
  | start
  | statPages
  | statRequest
  | statOsdRequest
  | statStart
deriving DecidableEq

inductive FailurePoint where
  | imgRequest
  | fill (which : Nat) (failure : FillFailure)
  | submit (which : Nat) (failure : SubmitFailure)
deriving DecidableEq

/-- Where `rbd_handle_request` is; the object requests are submitted from the last to the first. -/
inductive HandlePhase where
  | creating
  | filling (imgOffset resid : Nat)
  | submitting (unsubmitted : Nat)
  | returned
  | failed (point : FailurePoint)

/-- A block request in `rbd_handle_request`. `bytesEnded` are the bytes that were ended for the block
layer, `orphaned` the object requests that were freed before their callback returned. An osd request has a
reference of its own to the snapshot context. -/
structure HandledRequest where
  img : ImgRequest CallbackStage
  order : Nat
  phase : HandlePhase
  unsubmitted : Nat
  imgsCreated : Nat
  imgsFreed : Nat
  objsCreated : Nat
  objsFreed : Nat
  orphaned : Nat
  snapRefs : Int
  bytesEnded : Nat

namespace HandledRequest

def snapRef (req : HandledRequest) : Int :=
  if req.img.op = .read then 0 else 1

/-- A block request after the range checks, which get the snapshot context. -/
def start (op : ObjOperationType) (layered : Bool) (order offset length xferred : Nat) (snapRefs : Int) : HandledRequest where
  img :=
    { op := op
      child := false
      layered := layered
      offset := offset
      length := length
      objRequests := []
      nextCompletion := 0
      result := 0
      xferred := xferred
      refs := 0
      rq := length
      ended := []
      completed := 0 }
  order := order
  phase := .creating
  unsubmitted := 0
  imgsCreated := 0
  imgsFreed := 0
  objsCreated := 0
  objsFreed := 0
  orphaned := 0
  snapRefs := snapRefs + if op = .read then 0 else 1
  bytesEnded := 0

def inFlight (req : HandledRequest) : Nat :=
  (req.img.objRequests.drop req.unsubmitted).countP (·.Held)

def rbdImgRequestDestroy (req : HandledRequest) : HandledRequest :=
  { req with
    img := { req.img with objRequests := [] }
    imgsFreed := req.imgsFreed + 1
    objsFreed := req.objsFreed + req.img.objRequests.length
    orphaned := req.orphaned + req.inFlight
    snapRefs := req.snapRefs - req.snapRef * req.img.objRequests.length - req.snapRef }

def imgRequestPut (req : HandledRequest) : HandledRequest :=
  let req := { req with img := req.img.rbdImgRequestPut }
  if req.img.refs = 0 then req.rbdImgRequestDestroy else req

def blkEndRequestAll (req : HandledRequest) : HandledRequest :=
  { req with
    img := { req.img with rq := 0 }
    bytesEnded := req.bytesEnded + req.img.rq }

def errRq (point : FailurePoint) (req : HandledRequest) : HandledRequest :=
  { req with
    phase := .failed point
    snapRefs := req.snapRefs - req.snapRef }.blkEndRequestAll

def errImgRequest (point : FailurePoint) (req : HandledRequest) : HandledRequest :=
  req.imgRequestPut.errRq point

def rbdImgRequestCreate (req : HandledRequest) : HandledRequest :=
  { req with
    img := { req.img with refs := 1 }
    imgsCreated := req.imgsCreated + 1
    phase := .filling req.img.offset req.img.length }

def fillNext (imgOffset resid : Nat) (req : HandledRequest) : HandledRequest :=
  let obj := rbdObjRequestCreate req.order req.img.op.dataType .pending imgOffset resid
  let objRequests := req.img.objRequests ++ [obj]
  { req with
    img := { req.img with
      objRequests := objRequests
      refs := req.img.refs + 1 }
    unsubmitted := objRequests.length
    objsCreated := req.objsCreated + 1
    snapRefs := req.snapRefs + req.snapRef
    phase := if resid - obj.length = 0 then .submitting objRequests.length
      else .filling (imgOffset + obj.length) (resid - obj.length) }

/-- `out_unwind` of `rbd_img_request_fill`, and what its caller does. -/
def fillUnwind (failure : FillFailure) (req : HandledRequest) : HandledRequest :=
  let built := req.img.objRequests.length
  { req with
    img := { req.img with objRequests := [] }
    unsubmitted := 0
    objsCreated := req.objsCreated + failure.added.toNat
    objsFreed := req.objsFreed + built + failure.added.toNat
    snapRefs := req.snapRefs - req.snapRef * built }.errImgRequest (.fill built failure)

def newlyEnded (before after : ImgRequest CallbackStage) : Nat :=
  ((after.ended.drop before.ended.length).map fun which => (after.objRequests[which]?.map (·.xferred)).getD 0).sum

end HandledRequest

/-- Steps of `rbd_handle_request` and of the object requests that it has submitted. -/
inductive HandleCall where
  | create (success : Bool)
  | fill (failure : Option FillFailure)
  | submit (failure : Option SubmitFailure)
  | complete (call : CompletionCall)

def CompletionCall.which : CompletionCall → Nat
  | .done which _ => which
  | .callback which => which
  | .finish which => which

def HandleCall.run : HandleCall → HandledRequest → Except RbdAssert HandledRequest
  | .create true, req => return req.rbdImgRequestCreate
  | .create false, req => return req.errRq .imgRequest
  | .fill failure, req =>
    match req.phase, failure with
    | .filling imgOffset resid, none => return req.fillNext imgOffset resid
    | .filling _ _, some failure => return req.fillUnwind failure
    | _, _ => return req
  | .submit failure, req =>
    match req.phase, failure with
    | .submitting (which + 1), none => return { req with
        unsubmitted := which
        phase := if which = 0 then .returned else .submitting which }
    -- `rbd_img_obj_exists_submit` puts a reference that it has not got, the last one.
    | .submitting (_ + 1), some .statRequest => throw .detached
    | .submitting (which + 1), some failure => return req.errImgRequest (.submit which failure)
    | _, _ => return req
  | .complete call, req => do
    let img ← call.run req.img
    let req' := { req with
      img := img
      bytesEnded := req.bytesEnded + HandledRequest.newlyEnded req.img img }
    return if img.refs = 0 then req'.rbdImgRequestDestroy else req'

def HandleCall.Proper : HandleCall → HandledRequest → Prop
  | .create _, req => req.phase = .creating
  | .fill failure, req => (∃ imgOffset resid, req.phase = .filling imgOffset resid) ∧
      (failure = some .bioClone → req.img.op ≠ .discard)
  | .submit failure, req => (∃ which, req.phase = .submitting (which + 1)) ∧
      (failure ≠ none → failure ≠ some .start → req.img.layered = true ∧ req.img.op ≠ .read)
  | .complete call, req => req.unsubmitted ≤ call.which ∧ call.Proper req.img

/-- No object request has been ended, as the first one is not submitted. `handler` is 1 until
`rbd_handle_request` has dropped what it has. -/
structure HandledRequest.Parked (handler length : Nat) (snapRefs : Int) (req : HandledRequest) : Prop where
  unsubmitted : req.unsubmitted ≤ req.img.objRequests.length
  first : req.img.objRequests ≠ [] → 0 < req.unsubmitted
  pending : ∀ obj ∈ req.img.objRequests.take req.unsubmitted, obj.stage = .pending
  parked : ∀ obj ∈ req.img.objRequests, obj.stage ≠ .unlocked false
  next : req.img.nextCompletion = 0
  ended : req.img.ended = []
  refs : req.img.refs = handler + req.img.objRequests.countP (·.Held)
  imgs : req.imgsCreated = 1 ∧ req.imgsFreed = 0
  objs : req.objsCreated = req.img.objRequests.length ∧ req.objsFreed = 0
  orphaned : req.orphaned = 0
  snapRefs : req.snapRefs = snapRefs + req.snapRef * ((handler + req.img.objRequests.length : Nat) : Int)
  bytes : req.img.rq = handler * length ∧ req.bytesEnded = (1 - handler) * length

/-- A block request that cannot be sent is undone. -/
structure HandledRequest.Unwound (length : Nat) (snapRefs : Int) (req : HandledRequest) : Prop where
  bytes : req.img.rq = 0 ∧ req.bytesEnded = length
  snapRefs : req.snapRefs = snapRefs
  imgs : req.imgsFreed = req.imgsCreated
  objs : req.objsFreed = req.objsCreated
  orphaned : req.orphaned = 0

def FailurePoint.Undone (op : ObjOperationType) : FailurePoint → Prop
  | .imgRequest => True
  | .fill which _ => which = 0 ∧ op = .read
  | .submit _ _ => False

/-- What every step keeps, by where `rbd_handle_request` is. -/
def HandledRequest.Handled (op : ObjOperationType) (length : Nat) (snapRefs : Int) (req : HandledRequest) : Prop :=
  req.phase ≠ .returned → req.img.op = op ∧
  match req.phase with
  | .creating => ∃ layered order offset xferred, req = .start op layered order offset length xferred snapRefs
  | .filling _ _ => req.Parked 1 length snapRefs ∧ req.unsubmitted = req.img.objRequests.length
  | .submitting unsubmitted => req.Parked 1 length snapRefs ∧ req.unsubmitted = unsubmitted ∧ 0 < unsubmitted
  | .returned => True
  | .failed (.submit which _) => req.Parked 0 length snapRefs ∧ req.unsubmitted = which + 1
  | .failed point => req.img.objRequests = [] ∧ (req.Unwound length snapRefs ↔ point.Undone op)

section

variable {req next : HandledRequest} {op : ObjOperationType} {handler length which : Nat} {snapRefs : Int} {call : CompletionCall}
variable {obj : ObjRequest CallbackStage} {img : ImgRequest CallbackStage}

theorem held_pending (pending : obj.stage = .pending) : obj.Held = true := by
  simp [ObjRequest.Held, pending]

theorem HandledRequest.Parked.held (parked : req.Parked handler length snapRefs) :
    req.unsubmitted ≤ req.img.objRequests.countP (·.Held) := by
  have all : (req.img.objRequests.take req.unsubmitted).countP (·.Held) = (req.img.objRequests.take req.unsubmitted).length :=
    List.countP_eq_length.mpr fun obj listed => held_pending (parked.pending obj listed)
  have part := (take_sublist req.unsubmitted req.img.objRequests).countP_le (p := (·.Held))
  rw [all, List.length_take, Nat.min_eq_left parked.unsubmitted] at part
  exact part

theorem HandledRequest.Parked.fillNext {imgOffset resid : Nat} (parked : req.Parked 1 length snapRefs)
    (filled : req.unsubmitted = req.img.objRequests.length) : (req.fillNext imgOffset resid).Parked 1 length snapRefs := by
  have earlier := parked.pending
  rw [filled, take_length] at earlier
  have all : ∀ obj ∈ (req.fillNext imgOffset resid).img.objRequests, obj.stage = .pending := by
    intro obj listed
    rcases List.mem_append.mp listed with was | new
    · exact earlier obj was
    · rw [List.mem_singleton.mp new]
      rfl
  have held : (rbdObjRequestCreate req.order req.img.op.dataType CallbackStage.pending imgOffset resid).Held = true := rfl
  refine ⟨le_refl _, fun _ => ?_, ?_, ?_, parked.next, parked.ended, ?_, parked.imgs, ?_, parked.orphaned, ?_, parked.bytes⟩
  · simp [HandledRequest.fillNext]
  · exact fun obj listed => all obj (mem_of_mem_take listed)
  · intro obj listed
    rw [all obj listed]
    exact nofun
  · simp [HandledRequest.fillNext, parked.refs, held, Nat.add_assoc]
  · simp [HandledRequest.fillNext, parked.objs]
  · have same : (req.fillNext imgOffset resid).snapRef = req.snapRef := rfl
    rw [same]
    simp only [HandledRequest.fillNext, length_append, length_singleton, parked.snapRefs]
    push_cast
    ring

theorem HandledRequest.Parked.change {change : ObjRequest CallbackStage → ObjRequest CallbackStage} {refs : Nat}
    (parked : req.Parked handler length snapRefs) (submitted : req.unsubmitted ≤ which)
    (stage : ∀ obj, req.img.objRequests[which]? = some obj → (change obj).stage ≠ .unlocked false)
    (counts : refs = handler + (req.img.objRequests.modify which change).countP (·.Held)) :
    ({ req with
      img := { req.img.setObj which change with refs := refs }
      bytesEnded := req.bytesEnded + HandledRequest.newlyEnded req.img { req.img.setObj which change with refs := refs } } :
      HandledRequest).Parked handler length snapRefs := by
  have none : HandledRequest.newlyEnded req.img { req.img.setObj which change with refs := refs } = 0 := by
    simp [HandledRequest.newlyEnded, ImgRequest.setObj]
  have length' : (req.img.objRequests.modify which change).length = req.img.objRequests.length := length_modify ..
  rw [none, Nat.add_zero]
  refine ⟨?_, ?_, ?_, ?_, parked.next, parked.ended, counts, parked.imgs, ?_, parked.orphaned, ?_, parked.bytes⟩
  · exact length' ▸ parked.unsubmitted
  · intro some
    refine parked.first fun none' => some ?_
    simp [ImgRequest.setObj, none']
  · intro obj listed
    simp only [ImgRequest.setObj, take_modify] at listed
    rcases mem_modify listed with was | ⟨old, found, -⟩
    · exact parked.pending obj was
    · have inside := (List.getElem?_eq_some_iff.mp found).1
      rw [List.length_take] at inside
      lia
  · intro obj listed
    rcases mem_modify listed with was | ⟨old, found, rfl⟩
    · exact parked.parked obj was
    · exact stage old found
  · exact ⟨parked.objs.1.trans length'.symm, parked.objs.2⟩
  · have snapRefs := parked.snapRefs
    rw [← length'] at snapRefs
    exact snapRefs

theorem CompletionCall.Proper.found (meets : call.Proper img) : ∃ obj, img.objRequests[call.which]? = some obj := by
  cases call with
  | done which result => exact ⟨_, meets.choose_spec.1⟩
  | callback which => exact ⟨_, meets.choose_spec.1⟩
  | finish which =>
    obtain ⟨obj, more, here, -⟩ := meets
    exact ⟨obj, here⟩

theorem HandledRequest.Parked.complete (parked : req.Parked handler length snapRefs) (submitted : req.unsubmitted ≤ call.which)
    (meets : call.Proper req.img) : Returns ((HandleCall.complete call).run req) fun next =>
      next.Parked handler length snapRefs ∧ next.unsubmitted = req.unsubmitted ∧ next.phase = req.phase ∧ next.img.op = req.img.op := by
  obtain ⟨obj, here⟩ := meets.found
  have inside := (List.getElem?_eq_some_iff.mp here).1
  have some : 0 < req.unsubmitted := parked.first (ne_nil_of_mem (mem_of_getElem? here))
  have late : call.which ≠ req.img.nextCompletion := by
    rw [parked.next]
    omega
  -- The image request outlives the step, as the first object request has a reference to it.
  have ends : ∀ (change : ObjRequest CallbackStage → ObjRequest CallbackStage) (refs : Nat),
      call.run req.img = .ok { req.img.setObj call.which change with refs := refs } →
      (∀ obj, req.img.objRequests[call.which]? = .some obj → (change obj).stage ≠ .unlocked false) →
      refs = handler + (req.img.objRequests.modify call.which change).countP (·.Held) →
      Returns ((HandleCall.complete call).run req) fun next =>
        next.Parked handler length snapRefs ∧ next.unsubmitted = req.unsubmitted ∧ next.phase = req.phase ∧ next.img.op = req.img.op := by
    intro change refs ran stage counts
    have next := parked.change submitted stage counts
    have held := next.held
    have alive : refs ≠ 0 := by
      have atLeast : req.unsubmitted ≤ (req.img.objRequests.modify call.which change).countP (·.Held) := held
      lia
    refine ⟨_, ?_, next, rfl, rfl, rfl⟩
    simp only [HandleCall.run, ran, bind, Except.bind, alive, if_false]
    rfl
  have refs := parked.refs
  cases call with
  | done which result =>
    obtain ⟨-, -, -⟩ := meets
    refine ends _ req.img.refs rfl (fun obj found => parked.parked obj (mem_of_getElem? found)) ?_
    have counts := @countP_modify _ req.img.objRequests (fun obj => { obj with
      done := true
      xferred := obj.length
      result := result }) which obj (·.Held) here
    have same : ∀ obj : ObjRequest CallbackStage, ({ obj with
      done := true
      xferred := obj.length
      result := result } : ObjRequest CallbackStage).Held = obj.Held := fun _ => rfl
    simp only [same] at counts
    simp only [CompletionCall.which]
    lia
  | callback which =>
    obtain ⟨other, here', done, pending⟩ := meets
    have same := here.symm.trans here'
    cases same
    refine ends (fun obj => { obj with stage := .unlocked true }) req.img.refs ?_ (fun _ _ => (by simp)) ?_
    · have parked' : req.img.rbdImgObjCallback which = .ok (true, req.img) := callback_parked inside late
      simp only [CompletionCall.run, parked', bind, Except.bind]
      rfl
    · have counts := @countP_modify _ req.img.objRequests (fun obj => { obj with stage := .unlocked true }) which obj (·.Held) here'
      have held : ({ obj with stage := .unlocked true } : ObjRequest CallbackStage).Held = true := rfl
      simp only [held, held_pending pending] at counts
      simp only [CompletionCall.which]
      lia
  | finish which =>
    obtain ⟨other, more, here', unlocked⟩ := meets
    have same := here.symm.trans here'
    cases same
    have true' : more = true := by
      cases more with
      | true => rfl
      | false => exact absurd unlocked (parked.parked obj (mem_of_getElem? here'))
    subst true'
    refine ends (fun obj => { obj with stage := .returned }) (req.img.refs - 1) ?_ (fun _ _ => (by simp)) ?_
    · simp only [CompletionCall.run, here', unlocked]
      rfl
    · have counts := @countP_modify _ req.img.objRequests (fun obj => { obj with stage := .returned }) which obj (·.Held) here'
      have gone : ({ obj with stage := .returned } : ObjRequest CallbackStage).Held = false := rfl
      have held : obj.Held = true := by simp [ObjRequest.Held, unlocked]
      simp only [held, gone, Bool.toNat_true, Bool.toNat_false] at counts
      simp only [CompletionCall.which]
      lia

theorem HandledRequest.Parked.submit {failure : SubmitFailure} (parked : req.Parked 1 length snapRefs)
    (some : 0 < req.unsubmitted) : (req.errImgRequest (.submit which failure)).Parked 0 length snapRefs := by
  have held := parked.held
  have refs : req.img.refs - 1 = req.img.objRequests.countP (·.Held) := by
    rw [parked.refs]
    omega
  have alive : ¬ req.img.refs - 1 = 0 := by omega
  unfold HandledRequest.errImgRequest HandledRequest.imgRequestPut ImgRequest.rbdImgRequestPut
  simp only [alive, if_false]
  refine ⟨parked.unsubmitted, parked.first, parked.pending, parked.parked, parked.next, parked.ended, ?_, parked.imgs,
    parked.objs, parked.orphaned, ?_, ?_⟩
  · simpa [HandledRequest.errRq, HandledRequest.blkEndRequestAll] using refs
  · have snapRefs := parked.snapRefs
    simp only [HandledRequest.errRq, HandledRequest.blkEndRequestAll, HandledRequest.snapRef] at snapRefs ⊢
    rw [snapRefs]
    by_cases read : req.img.op = .read
    · simp [read]
    · simp [read]
      ring
  · simp [HandledRequest.errRq, HandledRequest.blkEndRequestAll, parked.bytes]

theorem HandledRequest.Parked.fillUnwind {failure : FillFailure} (parked : req.Parked 1 length snapRefs)
    (filled : req.unsubmitted = req.img.objRequests.length) : (req.fillUnwind failure).img.objRequests = [] ∧
      ((req.fillUnwind failure).Unwound length snapRefs ↔ req.img.objRequests.length = 0 ∧ req.img.op = .read) := by
  have all := parked.pending
  rw [filled, take_length] at all
  have refs : req.img.refs - 1 = req.img.objRequests.length := by
    rw [parked.refs, List.countP_eq_length.mpr fun obj listed => held_pending (all obj listed)]
    lia
  obtain ⟨created, freed⟩ := parked.imgs
  obtain ⟨objsCreated, objsFreed⟩ := parked.objs
  have snapRefs' := parked.snapRefs
  unfold HandledRequest.fillUnwind HandledRequest.errImgRequest HandledRequest.imgRequestPut ImgRequest.rbdImgRequestPut
  simp only [refs]
  split
  next none =>
    -- The image request drops the snapshot context, and `err_rq` drops it again.
    have snapRefs'' : req.snapRefs - req.snapRef - req.snapRef = snapRefs - req.snapRef := by
      rw [snapRefs', none]
      ring
    refine ⟨rfl, ⟨fun unwound => ⟨none, ?_⟩, fun undone => ⟨?_, ?_, ?_, ?_, ?_⟩⟩⟩
    · have same := unwound.snapRefs
      simp only [HandledRequest.errRq, HandledRequest.blkEndRequestAll, HandledRequest.rbdImgRequestDestroy,
        HandledRequest.snapRef, none] at same snapRefs''
      by_contra write
      lia
    · simp [HandledRequest.errRq, HandledRequest.blkEndRequestAll, HandledRequest.rbdImgRequestDestroy, parked.bytes]
    · simp only [HandledRequest.errRq, HandledRequest.blkEndRequestAll, HandledRequest.rbdImgRequestDestroy,
        HandledRequest.snapRef, undone.2] at snapRefs' ⊢
      simpa using snapRefs'
    · simp [HandledRequest.errRq, HandledRequest.blkEndRequestAll, HandledRequest.rbdImgRequestDestroy, created, freed]
    · simp [HandledRequest.errRq, HandledRequest.blkEndRequestAll, HandledRequest.rbdImgRequestDestroy, objsCreated, objsFreed, none]
    · simp [HandledRequest.errRq, HandledRequest.blkEndRequestAll, HandledRequest.rbdImgRequestDestroy,
        HandledRequest.inFlight, parked.orphaned]
  next some =>
    refine ⟨rfl, ⟨fun unwound => ?_, fun undone => absurd undone.1 some⟩⟩
    have same := unwound.imgs
    simp [HandledRequest.errRq, HandledRequest.blkEndRequestAll, created, freed] at same

theorem HandledRequest.imgRequestPut_op : req.imgRequestPut.img.op = req.img.op := by
  unfold HandledRequest.imgRequestPut
  dsimp only
  split <;> rfl

theorem HandledRequest.Handled.create {success : Bool} (handled : req.Handled op length snapRefs) (meets : req.phase = .creating)
    (ran : (HandleCall.create success).run req = .ok next) : next.Handled op length snapRefs := by
  obtain ⟨is, phases⟩ := handled (by simp [meets])
  rw [meets] at phases
  obtain ⟨layered, order, offset, xferred, rfl⟩ := phases
  cases success with
  | true =>
    cases ran
    have snapRefs' : (HandledRequest.start op layered order offset length xferred snapRefs).rbdImgRequestCreate.snapRefs =
        snapRefs + (if op = .read then 0 else 1) * ((1 + 0 : Nat) : Int) := by
      simp [HandledRequest.rbdImgRequestCreate, HandledRequest.start]
    refine fun _ => ⟨rfl, ⟨le_refl _, fun some => absurd rfl some, ?_, ?_, rfl, rfl, rfl, ⟨rfl, rfl⟩, ⟨rfl, rfl⟩, rfl, snapRefs', ?_⟩, rfl⟩
    · exact fun obj listed => nomatch listed
    · exact fun obj listed => nomatch listed
    · exact ⟨(Nat.one_mul _).symm, (Nat.zero_mul _).symm⟩
  | false =>
    cases ran
    have undone : ((HandledRequest.start op layered order offset length xferred snapRefs).errRq .imgRequest).Unwound
        length snapRefs := by
      refine ⟨⟨rfl, Nat.zero_add _⟩, ?_, rfl, rfl, rfl⟩
      by_cases read : op = .read <;>
        simp [HandledRequest.errRq, HandledRequest.blkEndRequestAll, HandledRequest.start, HandledRequest.snapRef, read]
    exact fun _ => ⟨rfl, rfl, fun _ => trivial, fun _ => undone⟩

theorem HandledRequest.Handled.fill {failure : Option FillFailure} (handled : req.Handled op length snapRefs)
    (meets : ∃ imgOffset resid, req.phase = .filling imgOffset resid) (ran : (HandleCall.fill failure).run req = .ok next) :
    next.Handled op length snapRefs := by
  obtain ⟨imgOffset, resid, phase⟩ := meets
  obtain ⟨is, phases⟩ := handled (by simp [phase])
  rw [phase] at phases
  obtain ⟨parked, filled⟩ := phases
  cases failure with
  | none =>
    simp only [HandleCall.run, phase] at ran
    cases ran
    refine fun _ => ⟨is, ?_⟩
    have next := @HandledRequest.Parked.fillNext _ _ _ imgOffset resid parked filled
    have all : (req.fillNext imgOffset resid).unsubmitted = (req.fillNext imgOffset resid).img.objRequests.length := rfl
    have some : 0 < (req.fillNext imgOffset resid).img.objRequests.length := by simp [HandledRequest.fillNext]
    have phase' : (req.fillNext imgOffset resid).phase = .submitting (req.fillNext imgOffset resid).img.objRequests.length ∨
        ∃ imgOffset' resid', (req.fillNext imgOffset resid).phase = .filling imgOffset' resid' := by
      by_cases last : resid - (rbdObjRequestCreate req.order req.img.op.dataType CallbackStage.pending imgOffset resid).length = 0
      · exact .inl (if_pos last)
      · exact .inr ⟨_, _, if_neg last⟩
    rcases phase' with last | ⟨imgOffset', resid', more⟩
    · rw [last]
      exact ⟨next, all, some⟩
    · rw [more]
      exact ⟨next, all⟩
  | some failure =>
    simp only [HandleCall.run, phase] at ran
    cases ran
    obtain ⟨none, undone⟩ := @HandledRequest.Parked.fillUnwind _ _ _ failure parked filled
    rw [is] at undone
    exact fun _ => ⟨HandledRequest.imgRequestPut_op.trans is, none, undone⟩

theorem HandledRequest.Handled.submit {failure : Option SubmitFailure} (handled : req.Handled op length snapRefs)
    (meets : ∃ which, req.phase = .submitting (which + 1)) (ran : (HandleCall.submit failure).run req = .ok next) :
    next.Handled op length snapRefs := by
  obtain ⟨which, phase⟩ := meets
  obtain ⟨is, phases⟩ := handled (by simp [phase])
  rw [phase] at phases
  obtain ⟨parked, unsubmitted, some⟩ := phases
  cases failure with
  | none =>
    simp only [HandleCall.run, phase] at ran
    cases ran
    refine fun going => ⟨is, ?_⟩
    by_cases last : which = 0
    · exact absurd (if_pos last) going
    · have within := parked.unsubmitted
      have earlier : ∀ obj ∈ req.img.objRequests.take which, obj.stage = .pending := by
        intro obj listed
        have fewer : which ≤ req.unsubmitted := by omega
        exact parked.pending obj (take_subset_take_left _ fewer listed)
      simp only [last, if_false]
      have within' : which ≤ req.img.objRequests.length := by omega
      exact ⟨⟨within', fun _ => Nat.pos_of_ne_zero last, earlier, parked.parked, parked.next, parked.ended, parked.refs, parked.imgs,
        parked.objs, parked.orphaned, parked.snapRefs, parked.bytes⟩, trivial, Nat.pos_of_ne_zero last⟩
  | some failure =>
    have positive : 0 < req.unsubmitted := by omega
    have next := @HandledRequest.Parked.submit _ _ which _ failure parked positive
    have put : (req.errImgRequest (.submit which failure)).unsubmitted = req.unsubmitted := by
      unfold HandledRequest.errImgRequest HandledRequest.imgRequestPut
      dsimp only
      split <;> rfl
    cases failure with
    | statRequest =>
      simp only [HandleCall.run, phase] at ran
      cases ran
    | start | statPages | statOsdRequest | statStart =>
      simp only [HandleCall.run, phase] at ran
      cases ran
      exact fun _ => ⟨HandledRequest.imgRequestPut_op.trans is, next, put.trans unsubmitted⟩

theorem HandledRequest.complete_phase (ran : (HandleCall.complete call).run req = .ok next) : next.phase = req.phase := by
  obtain ⟨img, -, ran⟩ := ok_of_bind ran
  split at ran
  · cases ran
    rfl
  · cases ran
    rfl

theorem HandledRequest.Handled.complete (handled : req.Handled op length snapRefs) (submitted : req.unsubmitted ≤ call.which)
    (meets : call.Proper req.img) (ran : (HandleCall.complete call).run req = .ok next) : next.Handled op length snapRefs := by
  have same := HandledRequest.complete_phase ran
  intro going
  rw [same] at going
  obtain ⟨is, phases⟩ := handled going
  obtain ⟨obj, here⟩ := meets.found
  have listed := mem_of_getElem? here
  have parked : ∀ handler, req.Parked handler length snapRefs → next.Parked handler length snapRefs ∧
      next.unsubmitted = req.unsubmitted ∧ next.phase = req.phase ∧ next.img.op = req.img.op := by
    intro handler parked
    obtain ⟨result, returned, kept⟩ := parked.complete submitted meets
    rw [ran] at returned
    cases returned
    exact kept
  rw [same]
  cases phase : req.phase with
  | creating =>
    rw [phase] at phases
    obtain ⟨layered, order, offset, xferred, rfl⟩ := phases
    cases listed
  | filling imgOffset resid =>
    rw [phase] at phases
    have inside := (List.getElem?_eq_some_iff.mp here).1
    omega
  | submitting unsubmitted =>
    rw [phase] at phases
    obtain ⟨kept, left, -, is'⟩ := parked 1 phases.1
    exact ⟨is'.trans is, kept, left.trans phases.2.1, phases.2.2⟩
  | returned => exact absurd phase going
  | failed point =>
    rw [phase] at phases
    cases point with
    | submit which failure =>
      obtain ⟨kept, left, -, is'⟩ := parked 0 phases.1
      exact ⟨is'.trans is, kept, left.trans phases.2⟩
    | imgRequest =>
      have none : req.img.objRequests = [] := phases.1
      rw [none] at listed
      cases listed
    | fill which failure =>
      have none : req.img.objRequests = [] := phases.1
      rw [none] at listed
      cases listed

theorem HandledRequest.handled_preserved : Preserves HandleCall.run HandleCall.Proper (HandledRequest.Handled op length snapRefs) := by
  intro call before after meets handled ran
  cases call with
  | create success => exact handled.create meets ran
  | fill failure => exact handled.fill meets.1 ran
  | submit failure => exact handled.submit meets.1 ran
  | complete call => exact handled.complete meets.1 meets.2 ran

end

section

variable {op : ObjOperationType} {layered : Bool} {order offset length xferred : Nat} {snapRefs : Int} {req : HandledRequest}

theorem HandledRequest.start_handled :
    (HandledRequest.start op layered order offset length xferred snapRefs).Handled op length snapRefs :=
  fun _ => ⟨rfl, layered, order, offset, xferred, rfl⟩

theorem HandledRequest.Handled.complete_returns {call : CompletionCall} (handled : req.Handled op length snapRefs)
    (submitted : req.unsubmitted ≤ call.which) (meets : call.Proper req.img) (going : req.phase ≠ .returned) :
    ∃ next, (HandleCall.complete call).run req = .ok next := by
  obtain ⟨-, phases⟩ := handled going
  obtain ⟨obj, here⟩ := meets.found
  have listed := mem_of_getElem? here
  have parked : ∀ handler, req.Parked handler length snapRefs → ∃ next, (HandleCall.complete call).run req = .ok next := by
    intro handler parked
    obtain ⟨next, ran, -⟩ := parked.complete submitted meets
    exact ⟨next, ran⟩
  cases phase : req.phase with
  | creating =>
    rw [phase] at phases
    obtain ⟨layered, order, offset, xferred, rfl⟩ := phases
    cases listed
  | filling imgOffset resid =>
    rw [phase] at phases
    exact parked 1 phases.1
  | submitting unsubmitted =>
    rw [phase] at phases
    exact parked 1 phases.1
  | returned => exact absurd phase going
  | failed point =>
    rw [phase] at phases
    cases point with
    | submit which failure => exact parked 0 phases.1
    | imgRequest =>
      have none : req.img.objRequests = [] := phases.1
      rw [none] at listed
      cases listed
    | fill which failure =>
      have none : req.img.objRequests = [] := phases.1
      rw [none] at listed
      cases listed

/-- Only a failure to create the stat request is not handled at all. -/
theorem HandledRequest.Handled.runs_iff {call : HandleCall} (handled : req.Handled op length snapRefs) (meets : call.Proper req)
    (going : req.phase ≠ .returned) : (∃ next, call.run req = .ok next) ↔ call ≠ .submit (some .statRequest) := by
  cases call with
  | create success => cases success <;> exact ⟨fun _ => nofun, fun _ => ⟨_, rfl⟩⟩
  | fill failure =>
    obtain ⟨⟨imgOffset, resid, phase⟩, -⟩ := meets
    refine ⟨fun _ => nofun, fun _ => ?_⟩
    cases failure <;> exact ⟨_, by simp only [HandleCall.run, phase]; rfl⟩
  | submit failure =>
    obtain ⟨⟨which, phase⟩, -⟩ := meets
    cases failure with
    | none => exact ⟨fun _ => nofun, fun _ => ⟨_, by simp only [HandleCall.run, phase]; rfl⟩⟩
    | some failure =>
      cases failure with
      | statRequest =>
        refine ⟨fun ⟨next, ran⟩ => ?_, fun differs => absurd rfl differs⟩
        simp only [HandleCall.run, phase] at ran
        cases ran
      | start | statPages | statOsdRequest | statStart =>
        exact ⟨fun _ => nofun, fun _ => ⟨_, by simp only [HandleCall.run, phase]; rfl⟩⟩
  | complete call => exact ⟨fun _ => nofun, fun _ => handled.complete_returns meets.1 meets.2 going⟩

/-- A failed block request is undone when the image request could not be created, and when the first
object request of a read could not be; no other one is. -/
theorem handleRequest_unwinds
    (reached : Reached HandleCall.run HandleCall.Proper (.start op layered order offset length xferred snapRefs) req) :
    (∀ point, req.phase = .failed point → req.inFlight = 0 → (req.Unwound length snapRefs ↔ point.Undone op)) ∧
    ∀ call : HandleCall, call.Proper req → req.phase ≠ .returned →
      ((∃ next, call.run req = .ok next) ↔ call ≠ .submit (some .statRequest)) := by
  have handled := reached.preserved HandledRequest.handled_preserved HandledRequest.start_handled
  refine ⟨?_, fun call meets going => handled.runs_iff meets going⟩
  intro point phase _
  obtain ⟨-, phases⟩ := handled (by simp [phase])
  rw [phase] at phases
  cases point with
  | submit which failure =>
    obtain ⟨created, freed⟩ := phases.1.imgs
    refine ⟨fun unwound => ?_, fun undone => undone.elim⟩
    have same := unwound.imgs
    rw [created, freed] at same
    cases same
  | imgRequest => exact phases.2
  | fill which failure => exact phases.2

end

/-- A read of which the first object request could not be created. -/
theorem handleRequest_unwinds_read : ∃ req : HandledRequest,
    Reached HandleCall.run HandleCall.Proper (.start .read false 9 0 1024 0 1) req ∧ req.Unwound 1024 1 := by
  have begun : Reached HandleCall.run HandleCall.Proper (.start .read false 9 0 1024 0 1) _ := .start
  have created := begun.next (.create true) rfl rfl
  have failed := created.next (.fill (some .objRequest)) ⟨⟨0, 1024, rfl⟩, nofun⟩ rfl
  exact ⟨_, failed, ((handleRequest_unwinds failed).1 (.fill 0 .objRequest) rfl rfl).mpr ⟨rfl, rfl⟩⟩

/-- A write of two object requests, of which the second could not be created, and one of which none could. -/
theorem handleRequest_leaks : (∃ req : HandledRequest,
    Reached HandleCall.run HandleCall.Proper (.start .write false 9 0 1024 0 1) req ∧ req.phase = .failed (.fill 1 .objRequest) ∧
    req.inFlight = 0 ∧ ¬ req.Unwound 1024 1) ∧ ∃ req : HandledRequest,
    Reached HandleCall.run HandleCall.Proper (.start .write false 9 0 1024 0 1) req ∧ req.phase = .failed (.fill 0 .objRequest) ∧
    req.inFlight = 0 ∧ ¬ req.Unwound 1024 1 := by
  have begun : Reached HandleCall.run HandleCall.Proper (.start .write false 9 0 1024 0 1) _ := .start
  have created := begun.next (.create true) rfl rfl
  have first := created.next (.fill (some .objRequest)) ⟨⟨0, 1024, rfl⟩, nofun⟩ rfl
  have filled := created.next (.fill none) ⟨⟨0, 1024, rfl⟩, nofun⟩ rfl
  have second := filled.next (.fill (some .objRequest)) ⟨⟨512, 512, rfl⟩, nofun⟩ rfl
  refine ⟨⟨_, second, rfl, rfl, fun unwound => ?_⟩, _, first, rfl, rfl, fun unwound => ?_⟩
  · exact absurd unwound.imgs (by decide)
  · exact absurd unwound.snapRefs (by decide)

end KmodCeph.Rbd
