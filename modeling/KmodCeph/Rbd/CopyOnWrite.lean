import KmodCeph.Rbd.Completion
import KmodCeph.Rbd.Layering
import KmodCeph.Rbd.ParentPages

namespace KmodCeph.Rbd

open Lib List

/-- The bytes of an object, which are zero past its end. One that was sent from memory nothing was read into has no
value. -/
abbrev Content := Nat → Option UInt8

inductive OsdOp where
  | read (offset length : Nat)
  | write (offset length : Nat) (data : Nat → UInt8)
  | truncate (offset : Nat)
  | zero (offset length : Nat)
  | delete
  | copyup (length : Nat) (data : Content)

def OsdOp.apply : OsdOp → Option Content → Option Content
  | .read _ _, object => object
  | .write offset length data, object => some fun position =>
    if offset ≤ position ∧ position < offset + length then some (data (position - offset))
    else (object.map (· position)).getD (some 0)
  | .truncate _, none => none
  | .truncate offset, some content => some fun position => if position < offset then content position else some 0
  | .zero _ _, none => none
  | .zero offset length, some content => some fun position =>
    if offset ≤ position ∧ position < offset + length then some 0 else content position
  | .delete, _ => none
  | .copyup length data, none => some fun position => if position < length then data position else some 0
  | .copyup _ _, some content => some content

/-- The fields of the header, and the parent image. -/
structure ClonedImage where
  order : Nat
  parentOverlap : Nat
  imageSize : Nat
  parent : ParentImage

namespace ClonedImage

def byteOf (image : ClonedImage) (object : Option Content) (position : Nat) : Option UInt8 :=
  match object with
  | some content => content (position % 2 ^ image.order)
  | none => some (if position < image.parentOverlap then image.parent.visible position else 0)

def visible (image : ClonedImage) (objects : Nat → Option Content) (position : Nat) : Option UInt8 :=
  image.byteOf (objects (position / 2 ^ image.order)) position

/-- What the parent read of `rbd_img_obj_parent_read_full` leaves in its page array. -/
def parentPages (image : ClonedImage) (offset length : Nat) : Content :=
  (image.parent.read 0 offset length).byte

end ClonedImage

inductive CowStage where
  | ready
  | stat
  | parentRead (offset length : Nat)
  | copyup (length : Nat) (data : Content)
  | sent
  | done

/-- The object requests of a write or a discard, and the data objects of the image. -/
structure CowState where
  objRequests : List (ObjRequest CowStage)
  objects : Nat → Option Content

namespace ClonedImage

variable (image : ClonedImage) (img : ImgRequest CowStage) (data : Nat → UInt8)

/-- The data operation of `rbd_img_obj_request_fill`, `data` being the bytes of the block request. -/
def rbdImgObjRequestFill (obj : ObjRequest CowStage) : OsdOp :=
  let objectSize := (rbdObjBytes image.order).toNat
  if img.op = .discard then
    if obj.offset = 0 ∧ obj.length = objectSize ∧
        (img.layered = false ∨ objRequestOverlapsParent image.order image.parentOverlap obj.imgOffset = false) then .delete
    else if obj.offset + obj.length = objectSize then .truncate obj.offset
    else if obj.imgOffset + obj.length = image.imageSize then .truncate obj.offset
    else .zero obj.offset obj.length
  else if img.op = .write then .write obj.offset obj.length fun position => data (obj.imgOffset + position)
  else .read obj.offset obj.length

def rbdImgObjRequestSubmit (obj : ObjRequest CowStage) : Except RbdAssert (ObjRequest CowStage) :=
  if imgObjRequestSimple image.order image.parentOverlap img obj then return { obj with stage := .sent }
  else if obj.known then do
    let (offset, length) ← parentReadFullRange image.order image.parentOverlap obj
    return { obj with stage := .parentRead offset length }
  else return { obj with stage := .stat }

def number (obj : ObjRequest CowStage) : Nat :=
  obj.imgOffset / 2 ^ image.order

end ClonedImage

/-- Steps of an object request: it is submitted, the stat finds what is there, the parent has been read, and
the data operations are applied. -/
inductive CowCall where
  | submit (which : Nat)
  | stat (which : Nat)
  | read (which : Nat)
  | apply (which : Nat)

def CowCall.which : CowCall → Nat
  | .submit which => which
  | .stat which => which
  | .read which => which
  | .apply which => which

def CowCall.step (image : ClonedImage) (img : ImgRequest CowStage) (data : Nat → UInt8) (call : CowCall) (obj : ObjRequest CowStage)
    (object : Option Content) : Except RbdAssert (ObjRequest CowStage × Option Content) :=
  match call, obj.stage with
  | .submit _, .ready => do
    let obj ← image.rbdImgObjRequestSubmit img obj
    return (obj, object)
  | .stat _, .stat => do
    let obj ← image.rbdImgObjRequestSubmit img { obj with
      known := true
      present := obj.present || object.isSome }
    return (obj, object)
  | .read _, .parentRead offset length =>
    return ({ obj with stage := .copyup length (image.parentPages offset length) }, object)
  | .apply _, .sent => return ({ obj with stage := .done }, (image.rbdImgObjRequestFill img data obj).apply object)
  | .apply _, .copyup length content => return ({ obj with stage := .done },
      (image.rbdImgObjRequestFill img data obj).apply ((OsdOp.copyup length content).apply object))
  | _, _ => return (obj, object)

def CowCall.run (image : ClonedImage) (img : ImgRequest CowStage) (data : Nat → UInt8) (call : CowCall) (state : CowState) :
    Except RbdAssert CowState :=
  match state.objRequests[call.which]? with
  | none => return state
  | some obj => do
    let (obj', object) ← call.step image img data obj (state.objects (image.number obj))
    return {
      objRequests := state.objRequests.set call.which obj'
      objects := fun number => if number = image.number obj then object else state.objects number }

def ClonedImage.outcome (image : ClonedImage) (img : ImgRequest CowStage) (data : Nat → UInt8) (obj : ObjRequest CowStage)
    (object : Option Content) : Option Content :=
  let op := image.rbdImgObjRequestFill img data obj
  if imgObjRequestSimple image.order image.parentOverlap img obj = true ∨ object ≠ none then op.apply object
  else
    match parentReadFullRange image.order image.parentOverlap obj with
    | .ok (offset, length) => op.apply ((OsdOp.copyup length (image.parentPages offset length)).apply object)
    | .error _ => none

/-- Where an object request is, from the object request as it was filled and the object as it was. -/
structure ObjRequest.Follows (image : ClonedImage) (img : ImgRequest CowStage) (data : Nat → UInt8) (obj filled : ObjRequest CowStage)
    (before object : Option Content) : Prop where
  same : obj.offset = filled.offset ∧ obj.length = filled.length ∧ obj.imgOffset = filled.imgOffset
  stage :
    match obj.stage with
    | .ready => obj.known = false ∧ obj.present = false ∧ object = before
    | .stat => obj.known = false ∧ obj.present = false ∧ object = before ∧
        imgObjRequestSimple image.order image.parentOverlap img filled = false
    | .parentRead offset length => object = none ∧ before = none ∧
        imgObjRequestSimple image.order image.parentOverlap img filled = false ∧
        parentReadFullRange image.order image.parentOverlap filled = .ok (offset, length)
    | .copyup length content => object = none ∧ before = none ∧
        imgObjRequestSimple image.order image.parentOverlap img filled = false ∧ ∃ offset,
        parentReadFullRange image.order image.parentOverlap filled = .ok (offset, length) ∧
        content = image.parentPages offset length
    | .sent => object = before ∧ (imgObjRequestSimple image.order image.parentOverlap img filled = true ∨ before ≠ none)
    | .done => object = image.outcome img data filled before ∧
        (imgObjRequestSimple image.order image.parentOverlap img filled = true ∨ before ≠ none ∨
          ∃ range, parentReadFullRange image.order image.parentOverlap filled = .ok range)

section

variable {image : ClonedImage} {img : ImgRequest CowStage} {data : Nat → UInt8} {filled obj obj' : ObjRequest CowStage}
variable {before object object' : Option Content} {call : CowCall}

def ObjRequest.Fresh (obj : ObjRequest CowStage) : Prop :=
  obj.known = false ∧ obj.present = false

theorem rbdImgObjRequestFill_congr (same : obj.offset = filled.offset ∧ obj.length = filled.length ∧ obj.imgOffset = filled.imgOffset) :
    image.rbdImgObjRequestFill img data obj = image.rbdImgObjRequestFill img data filled := by
  obtain ⟨offset, length, imgOffset⟩ := same
  unfold ClonedImage.rbdImgObjRequestFill
  rw [offset, length, imgOffset]

theorem parentReadFullRange_congr (same : obj.offset = filled.offset ∧ obj.length = filled.length ∧ obj.imgOffset = filled.imgOffset) :
    parentReadFullRange image.order image.parentOverlap obj = parentReadFullRange image.order image.parentOverlap filled := by
  obtain ⟨offset, -, imgOffset⟩ := same
  unfold parentReadFullRange
  rw [offset, imgOffset]

theorem imgObjRequestSimple_eq (same : obj.offset = filled.offset ∧ obj.length = filled.length ∧ obj.imgOffset = filled.imgOffset)
    (fresh : filled.Fresh) : imgObjRequestSimple image.order image.parentOverlap img obj =
      (imgObjRequestSimple image.order image.parentOverlap img filled || (obj.known && obj.present)) := by
  obtain ⟨offset, length, imgOffset⟩ := same
  unfold imgObjRequestSimple
  rw [offset, length, imgOffset, fresh.1]
  split
  · rfl
  · split
    · rfl
    · split
      · rfl
      · split
        · rfl
        · simp

/-- What `rbd_img_obj_request_submit` leads to: the object request is new, or it is known whether the object exists. -/
theorem rbdImgObjRequestSubmit_follows (fresh : filled.Fresh)
    (same : obj.offset = filled.offset ∧ obj.length = filled.length ∧ obj.imgOffset = filled.imgOffset)
    (known : (obj.known = false ∧ obj.present = false) ∨ obj.known = true ∧ obj.present = before.isSome ∧
      imgObjRequestSimple image.order image.parentOverlap img filled = false)
    (ran : image.rbdImgObjRequestSubmit img obj = .ok obj') : obj'.Follows image img data filled before before := by
  have simple := @imgObjRequestSimple_eq image img filled obj same fresh
  unfold ClonedImage.rbdImgObjRequestSubmit at ran
  split at ran
  next sent =>
    cases ran
    refine ⟨same, rfl, ?_⟩
    rw [simple, Bool.or_eq_true] at sent
    refine sent.imp_right fun both => ?_
    rw [Bool.and_eq_true] at both
    rcases known with ⟨unknown, -⟩ | ⟨-, exists', -⟩
    · rw [unknown] at both
      cases both.1
    · rw [exists', Option.isSome_iff_ne_none] at both
      exact both.2
  next complex =>
    rcases known with ⟨unknown, missing⟩ | ⟨known, exists', complex'⟩
    · rw [if_neg (by simp [unknown])] at ran
      cases ran
      refine ⟨same, unknown, missing, rfl, ?_⟩
      rw [simple, unknown] at complex
      simpa using complex
    · rw [if_pos known] at ran
      obtain ⟨⟨offset, length⟩, range, ran⟩ := ok_of_bind ran
      cases ran
      have missing : before = none := by
        rw [simple, known, exists', complex'] at complex
        simpa using complex
      exact ⟨same, missing, missing, complex', (parentReadFullRange_congr same) ▸ range⟩

theorem ObjRequest.Follows.step (follows : obj.Follows image img data filled before object) (fresh : filled.Fresh)
    (ran : call.step image img data obj object = .ok (obj', object')) : obj'.Follows image img data filled before object' := by
  obtain ⟨same, stages⟩ := follows
  have kept : obj.Follows image img data filled before object := ⟨same, stages⟩
  have fill := @rbdImgObjRequestFill_congr image img data filled obj same
  unfold CowCall.step at ran
  split at ran
  next stage =>
    rw [stage] at stages
    obtain ⟨unknown, missing, rfl⟩ := stages
    obtain ⟨next, submitted, ran⟩ := ok_of_bind ran
    cases ran
    exact rbdImgObjRequestSubmit_follows fresh same (.inl ⟨unknown, missing⟩) submitted
  next stage =>
    rw [stage] at stages
    obtain ⟨unknown, missing, rfl, complex⟩ := stages
    obtain ⟨next, submitted, ran⟩ := ok_of_bind ran
    cases ran
    have known : ({ obj with
        known := true
        present := obj.present || object.isSome } : ObjRequest CowStage).present = object.isSome := by simp [missing]
    exact @rbdImgObjRequestSubmit_follows _ _ _ _ { obj with
        known := true
        present := obj.present || object.isSome } _ _ fresh same (.inr ⟨rfl, known, complex⟩) submitted
  next offset length stage =>
    cases ran
    rw [stage] at stages
    obtain ⟨none, missing, complex, range⟩ := stages
    exact ⟨same, none, missing, complex, offset, range, rfl⟩
  next stage =>
    cases ran
    rw [stage] at stages
    obtain ⟨rfl, simple⟩ := stages
    refine ⟨same, ?_, simple.imp_right .inl⟩
    rw [ClonedImage.outcome, if_pos simple, fill]
  next length content stage =>
    cases ran
    rw [stage] at stages
    obtain ⟨rfl, rfl, complex, offset, range, rfl⟩ := stages
    refine ⟨same, ?_, .inr (.inr ⟨_, range⟩)⟩
    have missing : ¬ (imgObjRequestSimple image.order image.parentOverlap img filled = true ∨ (none : Option Content) ≠ none) := by
      simp [complex]
    rw [ClonedImage.outcome, if_neg missing, range, fill]
  next =>
    cases ran
    exact kept

end

/-- What holds in every state of a request, from the object requests as they were filled and the objects as
they were. -/
structure CowState.Follows (image : ClonedImage) (img : ImgRequest CowStage) (data : Nat → UInt8) (start : Nat → Option Content)
    (state : CowState) : Prop where
  length : state.objRequests.length = img.objRequests.length
  objs : ∀ (which : Nat) (filled : ObjRequest CowStage), img.objRequests[which]? = some filled → ∃ obj,
    state.objRequests[which]? = some obj ∧
    obj.Follows image img data filled (start (image.number filled)) (state.objects (image.number filled))
  others : ∀ number, (∀ filled ∈ img.objRequests, image.number filled ≠ number) → state.objects number = start number

section

variable {image : ClonedImage} {img : ImgRequest CowStage} {data : Nat → UInt8} {start : Nat → Option Content}

end

def ImgRequest.written (img : ImgRequest CowStage) (data : Nat → UInt8) (position : Nat) : Option UInt8 :=
  if img.op = .discard then some 0 else some (data position)

section

variable {image : ClonedImage} {img : ImgRequest CowStage} {data : Nat → UInt8} {obj : ObjRequest CowStage} {position : Nat}
variable {object : Option Content} {content : Content}

end

section

variable {image : ClonedImage} {op : ObjOperationType} {offset length : Nat} {data : Nat → UInt8} {objects : Nat → Option Content}
variable {state : CowState}

def ClonedImage.request (image : ClonedImage) (op : ObjOperationType) (offset length : Nat) : ImgRequest CowStage :=
  .filled op op.dataType false (image.parentOverlap ≠ 0) image.order offset length 0 .ready

end

end KmodCeph.Rbd
