import KmodCeph.Rbd.Completion
import KmodCeph.Rbd.Layering

namespace KmodCeph.Rbd

open Lib List

inductive Device where
  | flat (order : Nat)
  | clone (order parentOverlap : Nat) (parent : Device)

namespace Device

def order : Device → Nat
  | .flat order => order
  | .clone order _ _ => order

def parentOverlap : Device → Nat
  | .flat _ => 0
  | .clone _ parentOverlap _ => parentOverlap

def rbdDevParentGet (dev : Device) : Bool :=
  dev.parentOverlap ≠ 0

end Device

/-- An object request waits for its own osd request, for a stat, for an image request to the parent or for
a copyup, and then its callback runs. -/
inductive Stage where
  | data
  | stat
  | parentRead (child : Nat)
  | parentReadFull (child : Nat)
  | copyup
  | called (callback : CallbackStage)
deriving DecidableEq

instance Stage.hasCallback : HasCallback Stage where
  callback
    | .called callback => callback
    | _ => .pending

def Stage.child? : Stage → Option Nat
  | .parentRead child => some child
  | .parentReadFull child => some child
  | _ => none

def Stage.submitted (simple : Bool) : Stage :=
  match simple with
  | true => .data
  | false => .stat

/-- An image request, the object requests of which go through the stages of a layered image. -/
structure ChainedRequest where
  dev : Device
  img : ImgRequest Stage

/-- What an OSD operation comes back with, `length` being `r_reply_op_len[0]`. What is sent next fails with
`failure`, and a new image request has `memory` in its field `xferred`. -/
structure Reply where
  result : Int
  length : Nat
  memory : Nat
  failure : Option Int
deriving DecidableEq

def eNoEnt : Int := -2

namespace ObjRequest

def received (reply : Reply) (obj : ObjRequest Stage) : ObjRequest Stage :=
  { obj with
    result := if reply.result < 0 then reply.result else obj.result
    xferred := reply.length }

def complete (obj : ObjRequest Stage) : ObjRequest Stage :=
  { obj with
    done := true
    stage := .called .pending }

def readCallback (obj : ObjRequest Stage) : ObjRequest Stage :=
  { obj with
    result := if obj.result = eNoEnt then 0 else obj.result
    xferred := obj.length }.complete

def writeCallback (obj : ObjRequest Stage) : ObjRequest Stage :=
  { obj with xferred := obj.length }.complete

def discardCallback (obj : ObjRequest Stage) : ObjRequest Stage :=
  { obj with
    result := if obj.result = eNoEnt then 0 else obj.result
    xferred := obj.length }.complete

/-- `rbd_osd_trivial_callback` and `rbd_img_obj_copyup_callback`. -/
def copyupCallback (obj : ObjRequest Stage) : ObjRequest Stage :=
  { obj with xferred := if obj.result = 0 then obj.length else obj.xferred }.complete

def fail (errno : Int) (obj : ObjRequest Stage) : ObjRequest Stage :=
  { obj with
    result := errno
    xferred := 0 }.complete

def abandon (errno : Int) (obj : ObjRequest Stage) : ObjRequest Stage :=
  { obj with
    result := errno
    stage := .called .pending }

end ObjRequest

/-- The image requests, of which the first is the block request's. -/
abbrev Requests := List ChainedRequest

namespace Requests

def find (id which : Nat) (requests : Requests) : Option (ChainedRequest × ObjRequest Stage) := do
  let req ← requests[id]?
  let obj ← req.img.objRequests[which]?
  return (req, obj)

def setObj (id which : Nat) (obj : ObjRequest Stage) (requests : Requests) : Requests :=
  requests.modify id fun req => { req with img := req.img.setObj which fun _ => obj }

/-- `rbd_parent_request_create` and the fill and submission of the image request, which is a read. -/
def parentRequest (parent : Device) (type : ObjRequestType) (offset length memory : Nat) : Except RbdAssert ChainedRequest := do
  haltIf (length = 0) .hasData
  return {
    dev := parent
    img := .filled .read type true parent.rbdDevParentGet parent.order offset length memory .data }

def rbdImgParentRead (id which : Nat) (reply : Reply) (req : ChainedRequest) (obj : ObjRequest Stage) (requests : Requests) :
    Except RbdAssert Requests :=
  match req.dev, reply.failure with
  | .flat _, _ => throw .parent
  | .clone _ _ _, some errno => return requests.setObj id which (obj.fail errno)
  | .clone _ _ parent, none => do
    let child ← parentRequest parent obj.type obj.imgOffset obj.length reply.memory
    return requests.setObj id which { obj with stage := .parentRead requests.length } ++ [child]

def rbdImgObjParentReadFull (id which : Nat) (reply : Reply) (req : ChainedRequest) (obj : ObjRequest Stage) (requests : Requests) :
    Except RbdAssert Requests :=
  match req.dev with
  | .flat _ => throw .parent
  | .clone order parentOverlap parent => do
    let (offset, length) ← parentReadFullRange order parentOverlap obj
    match reply.failure with
    | some errno => return requests.setObj id which (obj.fail errno)
    | none =>
      let child ← parentRequest parent .pages offset length reply.memory
      return requests.setObj id which { obj with
        result := 0
        stage := .parentReadFull requests.length } ++ [child]

def afterStat (id which : Nat) (result : Int) (reply : Reply) (req : ChainedRequest) (obj : ObjRequest Stage) (requests : Requests) :
    Except RbdAssert Requests :=
  if result ≠ 0 ∧ result ≠ eNoEnt then return requests.setObj id which (obj.abandon result)
  else
    let obj := { obj with
      known := true
      present := obj.present || decide (result = 0) }
    -- `rbd_img_obj_request_submit`, of an object request that is known.
    if imgObjRequestSimple req.dev.order req.dev.parentOverlap req.img obj then
      match reply.failure with
      | none => return requests.setObj id which { obj with
          result := 0
          stage := .data }
      | some errno => return requests.setObj id which (obj.abandon errno)
    else rbdImgObjParentReadFull id which reply req obj requests

def rbdImgObjExistsCallback (id which : Nat) (reply : Reply) (req : ChainedRequest) (obj : ObjRequest Stage) (requests : Requests) :
    Except RbdAssert Requests :=
  if req.dev.parentOverlap = 0 then
    match reply.failure with
    | none => return requests.setObj id which { obj with stage := .data }
    | some errno => afterStat id which errno reply req obj requests
  else afterStat id which (if reply.result < 0 then reply.result else 0) reply req obj requests

/-- `rbd_osd_req_callback` for the osd request that an object request waits for. -/
def rbdOsdReqCallback (id which : Nat) (reply : Reply) (requests : Requests) : Except RbdAssert Requests :=
  match requests.find id which with
  | none => return requests
  | some (req, obj) => do
    haltIf (¬ reply.length < uintMax) .xferredFits
    match obj.stage with
    | .data =>
      let obj := obj.received reply
      match req.img.op with
      | .read =>
        if req.img.layered = true ∧ obj.result = eNoEnt ∧ obj.imgOffset < req.dev.parentOverlap then
          rbdImgParentRead id which reply req obj requests
        else
          haltIf (obj.type = .nodata) .typed
          return requests.setObj id which obj.readCallback
      | .write => return requests.setObj id which obj.writeCallback
      | .discard => return requests.setObj id which obj.discardCallback
    | .stat => rbdImgObjExistsCallback id which reply req obj requests
    | .copyup =>
      haltIf (obj.type = .pages) .typed
      return requests.setObj id which (obj.received reply).copyupCallback
    | _ => return requests

def afterParentRead (id which : Nat) (result : Int) (xferred : Nat) (req : ChainedRequest) (obj : ObjRequest Stage) (requests : Requests) :
    Except RbdAssert Requests := do
  haltIf (result = 0 ∧ ¬ obj.imgOffset < 2 ^ 64 - 1 - obj.length) .endFits
  haltIf (obj.type = .nodata) .typed
  let xferred :=
    if obj.imgOffset + obj.length > req.dev.parentOverlap then min xferred (req.dev.parentOverlap - obj.imgOffset)
    else xferred
  return requests.setObj id which { obj with
    result := result
    xferred := if result = 0 then xferred else obj.xferred }.readCallback

def rbdImgParentReadCallback (id which : Nat) (failure : Option Int) (child : ImgRequest Stage) (req : ChainedRequest)
    (obj : ObjRequest Stage) (requests : Requests) : Except RbdAssert Requests :=
  if req.dev.parentOverlap = 0 then
    match failure with
    | none => return requests.setObj id which { obj with stage := .data }
    | some errno => afterParentRead id which errno child.xferred req obj requests
  else afterParentRead id which child.result child.xferred req obj requests

def afterParentReadFull (id which : Nat) (result : Int) (failure : Option Int) (obj : ObjRequest Stage) (requests : Requests) :
    Requests :=
  if result ≠ 0 then requests.setObj id which (obj.fail result)
  else
    match failure with
    | some errno => requests.setObj id which (obj.fail errno)
    | none => requests.setObj id which { obj with stage := .copyup }

def rbdImgObjParentReadFullCallback (id which : Nat) (failure : Option Int) (child : ImgRequest Stage) (req : ChainedRequest)
    (obj : ObjRequest Stage) (requests : Requests) : Except RbdAssert Requests := do
  haltIf (child.length ≠ child.xferred) .parentXferred
  if req.dev.parentOverlap = 0 then
    match failure with
    | none => return requests.setObj id which { obj with stage := .data }
    | some errno => return afterParentReadFull id which errno failure obj requests
  else return afterParentReadFull id which child.result failure obj requests

/-- `rbd_img_request_complete` calls the callback of the image request. -/
def callParent (id which : Nat) (failure : Option Int) (requests : Requests) : Except RbdAssert Requests :=
  match requests.find id which with
  | none => return requests
  | some (req, obj) =>
    match obj.stage with
    | .parentRead child =>
      match requests[child]? with
      | none => return requests
      | some childReq => rbdImgParentReadCallback id which failure childReq.img req obj requests
    | .parentReadFull child =>
      match requests[child]? with
      | none => return requests
      | some childReq => rbdImgObjParentReadFullCallback id which failure childReq.img req obj requests
    | _ => return requests

def lockedCallback (id which : Nat) (requests : Requests) : Except RbdAssert Requests :=
  match requests[id]? with
  | none => return requests
  | some req => do
    let (more, img) ← req.img.rbdImgObjCallback which
    return requests.set id { req with img := img.setObj which fun obj => { obj with stage := .called (.unlocked more) } }

def unlockedCallback (id which : Nat) (requests : Requests) : Except RbdAssert Requests :=
  match requests.find id which with
  | none => return requests
  | some (req, obj) =>
    match obj.stage with
    | .called (.unlocked more) => return requests.set id { req with
        img := (req.img.setObj which fun obj => { obj with stage := .called .returned }).finishCallback more }
    | _ => return requests

end Requests

/-- A reply of an OSD, the two parts of the callback of an object request, and the callback of a completed
image request to the parent. -/
inductive ChainCall where
  | osd (id which : Nat) (reply : Reply)
  | callback (id which : Nat)
  | unlocked (id which : Nat)
  | parent (id which : Nat) (failure : Option Int)

def ChainCall.run : ChainCall → Requests → Except RbdAssert Requests
  | .osd id which reply, requests => requests.rbdOsdReqCallback id which reply
  | .callback id which, requests => requests.lockedCallback id which
  | .unlocked id which, requests => requests.unlockedCallback id which
  | .parent id which failure, requests => requests.callParent id which failure

/-- The step of an object request that is at its stage; a reply has the length of a message's data. -/
def ChainCall.Proper : ChainCall → Requests → Prop
  | .osd id which reply, requests => ∃ req obj, requests.find id which = some (req, obj) ∧
      (obj.stage = .data ∨ obj.stage = .stat ∨ obj.stage = .copyup) ∧ reply.length < uintMax
  | .callback id which, requests => ∃ req obj, requests.find id which = some (req, obj) ∧ obj.stage = .called .pending
  | .unlocked id which, requests => ∃ req obj more, requests.find id which = some (req, obj) ∧ obj.stage = .called (.unlocked more)
  | .parent id which _, requests => ∃ req obj child childReq, requests.find id which = some (req, obj) ∧
      obj.stage.child? = some child ∧ requests[child]? = some childReq ∧ childReq.img.completed ≠ 0

/-- What is sent next can be sent, a stat finds the object or that there is none, a copyup succeeds, and so does
the read of the parent for it. -/
def ChainCall.Meets : ChainCall → Requests → Prop
  | .osd id which reply, requests => reply.failure = none ∧ ∀ req obj, requests.find id which = some (req, obj) →
      (obj.stage = .stat → 0 ≤ reply.result ∨ reply.result = eNoEnt) ∧
      (obj.stage = .copyup → 0 ≤ reply.result ∨ reply.length = obj.length)
  | .callback _ _, _ => True
  | .unlocked _ _, _ => True
  | .parent id which failure, requests => failure = none ∧ ∀ req obj child childReq, requests.find id which = some (req, obj) →
      obj.stage = .parentReadFull child → requests[child]? = some childReq → childReq.img.result = 0

def ChainedRequest.submitted (dev : Device) (op : ObjOperationType) (offset length memory : Nat) : ChainedRequest :=
  let img : ImgRequest Stage := .filled op op.dataType false dev.rbdDevParentGet dev.order offset length memory .data
  { dev := dev
    img := { img with objRequests := img.objRequests.map fun obj => { obj with
      stage := .submitted (imgObjRequestSimple dev.order dev.parentOverlap img obj) } } }

def Requests.Quiet (requests : Requests) : Prop :=
  ∀ req ∈ requests, ∀ obj ∈ req.img.objRequests,
    obj.stage = .called .returned ∨ ∃ child childReq, obj.stage.child? = some child ∧ requests[child]? = some childReq ∧
      childReq.img.completed = 0

/-- The offsets of block requests are `loff_t`s. -/
def maxOffset : Nat := 2 ^ 63 + 2 ^ 31

structure ObjRequest.Staged (dev : Device) (op : ObjOperationType) (layered : Bool) (obj : ObjRequest Stage) : Prop where
  fits : obj.imgOffset + obj.length ≤ maxOffset
  read : op = .read → obj.type ≠ .nodata
  write : op ≠ .read → obj.type ≠ .pages
  stage :
    match obj.stage with
    | .data => obj.done = false
    | .stat => obj.done = false ∧ op ≠ .read ∧ obj.imgOffset - obj.offset < dev.parentOverlap ∧
        obj.imgOffset - obj.offset + 2 ^ dev.order ≤ maxOffset
    | .parentRead _ => obj.done = false ∧ op = .read ∧ layered = true
    | .parentReadFull _ => obj.done = false ∧ op ≠ .read ∧ layered = true ∧ obj.result = 0
    | .copyup => obj.done = false ∧ op ≠ .read ∧ obj.result = 0
    | .called _ => obj.done = true

structure ChainedRequest.Sound (req : ChainedRequest) : Prop where
  completing : Completing req.img
  total : (req.img.objRequests.map (·.length)).sum = req.img.length
  layered : req.img.layered = true → req.dev.parentOverlap ≠ 0
  order : req.img.op ≠ .read → req.dev.order ≤ 31
  staged : ∀ obj ∈ req.img.objRequests, obj.Staged req.dev req.img.op req.img.layered

structure Requests.Chained (requests : Requests) : Prop where
  top : ∃ req, requests[0]? = some req ∧ req.img.child = false
  sound : ∀ req ∈ requests, req.Sound
  children : ∀ id req obj child, requests[id]? = some req → obj ∈ req.img.objRequests → obj.stage.child? = some child →
    id < child ∧ child < requests.length

section

variable {requests next : Requests} {req req' childReq : ChainedRequest} {obj obj' : ObjRequest Stage} {id which child : Nat}

theorem Requests.find_eq : requests.find id which = some (req, obj) ↔
    requests[id]? = some req ∧ req.img.objRequests[which]? = some obj := by
  unfold Requests.find
  cases found : requests[id]? with
  | none => simp
  | some other =>
    cases found' : other.img.objRequests[which]? with
    | none =>
      simp only [Option.bind_eq_bind, Option.bind_some, Option.bind_none, found', reduceCtorEq, Option.some.injEq, false_iff]
      rintro ⟨rfl, here⟩
      rw [found'] at here
      cases here
    | some obj' =>
      simp only [Option.bind_eq_bind, Option.bind_some, Option.pure_def, found', Option.some.injEq, Prod.mk.injEq]
      refine and_congr_right ?_
      rintro rfl
      rw [found', Option.some.injEq]

theorem Requests.setObj_eq (here : requests[id]? = some req) :
    requests.setObj id which obj = requests.set id { req with img := req.img.setObj which fun _ => obj } := by
  unfold Requests.setObj
  rw [modify_eq_set_getElem?, here]
  rfl

theorem Requests.Chained.replace {created : List ChainedRequest} (chained : requests.Chained) (here : requests[id]? = some req)
    (sound : req'.Sound) (same : req'.img.child = req.img.child)
    (waits : ∀ obj' ∈ req'.img.objRequests, ∀ child, obj'.stage.child? = some child →
      (∃ obj ∈ req.img.objRequests, obj.stage.child? = some child) ∨ child = requests.length ∧ created ≠ [])
    (sound' : ∀ req ∈ created, req.Sound)
    (leaf : ∀ req ∈ created, ∀ obj ∈ req.img.objRequests, obj.stage.child? = none) :
    Requests.Chained (requests.set id req' ++ created) := by
  have inside := (List.getElem?_eq_some_iff.mp here).1
  have length : (requests.set id req').length = requests.length := length_set
  refine ⟨?_, ?_, ?_⟩
  · obtain ⟨top, first, block⟩ := chained.top
    have some : 0 < (requests.set id req').length := by omega
    by_cases zero : id = 0
    · subst zero
      rw [here] at first
      cases first
      exact ⟨req', by rw [getElem?_append_left some, getElem?_set_self inside], same.trans block⟩
    · exact ⟨top, by rw [getElem?_append_left some, getElem?_set_ne zero, first], block⟩
  · intro other listed
    rcases List.mem_append.mp listed with was | new
    · rcases mem_or_eq_of_mem_set was with was | rfl
      · exact chained.sound other was
      · exact sound
    · exact sound' other new
  · intro other otherReq otherObj child found listed child'
    rw [length_append, length]
    rcases Nat.lt_or_ge other requests.length with below | above
    · rw [getElem?_append_left (length.symm ▸ below)] at found
      by_cases at' : id = other
      · subst at'
        rw [getElem?_set_self inside] at found
        cases found
        rcases waits otherObj listed child child' with ⟨old, was, waited⟩ | ⟨new, nonempty⟩
        · have kept := chained.children id req old child here was waited
          lia
        · have positive := List.length_pos_iff.mpr nonempty
          lia
      · rw [getElem?_set_ne at'] at found
        have kept := chained.children other otherReq otherObj child found listed child'
        lia
    · rw [getElem?_append_right (length.symm ▸ above)] at found
      rw [leaf otherReq (mem_of_getElem? found) otherObj listed] at child'
      cases child'

theorem Requests.Chained.set (chained : requests.Chained) (here : requests[id]? = some req) (sound : req'.Sound)
    (same : req'.img.child = req.img.child)
    (waits : ∀ obj' ∈ req'.img.objRequests, ∀ child, obj'.stage.child? = some child →
      ∃ obj ∈ req.img.objRequests, obj.stage.child? = some child) : Requests.Chained (requests.set id req') := by
  have replaced := @Requests.Chained.replace _ _ req' _ [] chained here sound same
    (fun obj' listed child waited => .inl (waits obj' listed child waited))
    (forall_mem_nil _) (forall_mem_nil _)
  rwa [List.append_nil] at replaced

theorem ChainedRequest.Sound.setObj (sound : req.Sound) (here : req.img.objRequests[which]? = some obj) (unset : obj.done = false)
    (length : obj'.length = obj.length) (pending : obj'.callback = .pending) (whole : obj'.done = true → obj'.xferred = obj.length)
    (staged : obj'.Staged req.dev req.img.op req.img.layered) :
    ChainedRequest.Sound { req with img := req.img.setObj which fun _ => obj' } := by
  refine ⟨sound.completing.progress here unset length pending whole, ?_, sound.layered, sound.order, ?_⟩
  · have same := @map_modify_same _ _ req.img.objRequests (fun _ => obj') (fun obj => obj.length) which
    refine (congrArg sum (same ?_)).trans sound.total
    intro other found
    rw [here] at found
    cases found
    exact length
  · intro other listed
    rcases mem_modify listed with was | ⟨old, -, rfl⟩
    · exact sound.staged other was
    · exact staged

section

variable (chained : requests.Chained) (found : requests.find id which = some (req, obj))
variable (unset : obj.done = false) (length : obj'.length = obj.length) (pending : obj'.callback = .pending)
variable (whole : obj'.done = true → obj'.xferred = obj.length)
variable (staged : obj'.Staged req.dev req.img.op req.img.layered)
include chained found unset length pending whole staged

theorem Requests.Chained.setObj
    (leaf : obj'.stage.child? = none) : Requests.Chained (requests.setObj id which obj') := by
  obtain ⟨here, here'⟩ := Requests.find_eq.mp found
  have sound := chained.sound req (mem_of_getElem? here)
  rw [Requests.setObj_eq here]
  refine chained.set here (sound.setObj here' unset length pending whole staged) rfl ?_
  intro other listed child waited
  rcases mem_modify listed with was | ⟨-, -, rfl⟩
  · exact ⟨other, was, waited⟩
  · rw [leaf] at waited
    cases waited

theorem Requests.Chained.spawn (waits : obj'.stage.child? = some requests.length) (sound : childReq.Sound)
    (leaf : ∀ obj ∈ childReq.img.objRequests, obj.stage.child? = none) :
    Requests.Chained (requests.setObj id which obj' ++ [childReq]) := by
  obtain ⟨here, here'⟩ := Requests.find_eq.mp found
  have sound' := chained.sound req (mem_of_getElem? here)
  rw [Requests.setObj_eq here]
  refine chained.replace here (sound'.setObj here' unset length pending whole staged) rfl ?_ ?_ ?_
  · intro other listed child waited
    rcases mem_modify listed with was | ⟨-, -, rfl⟩
    · exact .inl ⟨other, was, waited⟩
    · rw [waits] at waited
      cases waited
      exact .inr ⟨rfl, cons_ne_nil _ _⟩
  · exact fun req listed => List.mem_singleton.mp listed ▸ sound
  · exact fun req listed => List.mem_singleton.mp listed ▸ leaf

end

theorem Requests.parentRequest_sound {parent : Device} {type : ObjRequestType} {offset length memory : Nat} (some : 0 < length)
    (fits : min length (2 ^ parent.order) ≤ uintMax) (last : offset + length ≤ maxOffset) (typed : type ≠ .nodata) :
    ∃ childReq, Requests.parentRequest parent type offset length memory = .ok childReq ∧ childReq.Sound ∧
      ∀ obj ∈ childReq.img.objRequests, obj.stage.child? = none := by
  have nonempty : ¬ length = 0 := by omega
  have mem : ∀ obj ∈ fillObjRequests parent.order type Stage.data length offset length, obj.stage = .data ∧ obj.done = false ∧
      obj.type = type ∧ obj.imgOffset + obj.length ≤ offset + length := by
    intro obj listed
    obtain ⟨-, -, -, -, -, within, type', done, -, -, -, -, stage⟩ := fillObjRequests_mem listed
    exact ⟨stage, done, type', within⟩
  refine ⟨_, by simp only [Requests.parentRequest, haltIf, nonempty, if_false, bind, Except.bind]; rfl, ?_, ?_⟩
  · refine ⟨.filled some fits rfl, fillObjRequests_sum (le_refl _), ?_, fun write => absurd rfl write, ?_⟩
    · exact fun layered => of_decide_eq_true layered
    · intro obj listed
      obtain ⟨stage, done, type', within⟩ := mem obj listed
      refine ⟨by omega, fun _ => type' ▸ typed, fun write => absurd rfl write, ?_⟩
      rw [stage]
      exact done
  · intro obj listed
    rw [(mem obj listed).1]
    rfl

theorem Device.clone_of_overlap {dev : Device} (overlaps : dev.parentOverlap ≠ 0) :
    ∃ parent, dev = .clone dev.order dev.parentOverlap parent := by
  cases dev with
  | flat order => exact absurd rfl overlaps
  | clone order parentOverlap parent => exact ⟨parent, rfl⟩

theorem ChainedRequest.Sound.positive (sound : req.Sound) (here : req.img.objRequests[which]? = some obj) :
    0 < obj.length ∧ obj.length ≤ uintMax :=
  have whole := sound.completing.ends.whole obj (mem_of_getElem? here)
  ⟨whole.1, whole.2.1⟩

variable {reply : Reply}

section

variable (chained : requests.Chained) (found : requests.find id which = some (req, obj))
include chained found

theorem Requests.Chained.complete
    (unset : obj.done = false) (same : obj'.length = obj.length ∧ obj'.imgOffset = obj.imgOffset ∧ obj'.type = obj.type)
    (done : obj'.done = true) (stage : obj'.stage = .called .pending) (xferred : obj'.xferred = obj.length) :
    Requests.Chained (requests.setObj id which obj') := by
  obtain ⟨here, here'⟩ := Requests.find_eq.mp found
  have staged := (chained.sound req (mem_of_getElem? here)).staged obj (mem_of_getElem? here')
  have pending : obj'.callback = .pending := by
    rw [ObjRequest.callback, stage]
    rfl
  refine chained.setObj found unset same.1 pending (fun _ => xferred) ⟨?_, ?_, ?_, ?_⟩ ?_
  · rw [same.1, same.2.1]
    exact staged.fits
  · rw [same.2.2]
    exact staged.read
  · rw [same.2.2]
    exact staged.write
  · rw [stage]
    exact done
  · rw [stage]
    rfl

theorem Requests.Chained.data
    (stage : obj.stage = .data) (length : reply.length < uintMax) (sent : reply.failure = none) :
    Returns (requests.rbdOsdReqCallback id which reply) Requests.Chained := by
  obtain ⟨here, here'⟩ := Requests.find_eq.mp found
  have sound := chained.sound req (mem_of_getElem? here)
  have staged := sound.staged obj (mem_of_getElem? here')
  have unset : obj.done = false := by
    have stages := staged.stage
    rw [stage] at stages
    exact stages
  unfold Requests.rbdOsdReqCallback
  simp only [found, haltIf, length, not_true_eq_false, if_false, bind, Except.bind, stage]
  cases op : req.img.op with
  | write => exact ⟨_, rfl, chained.complete found unset ⟨rfl, rfl, rfl⟩ rfl rfl rfl⟩
  | discard => exact ⟨_, rfl, chained.complete found unset ⟨rfl, rfl, rfl⟩ rfl rfl rfl⟩
  | read =>
    have typed := staged.read op
    simp only
    split
    next parent =>
      obtain ⟨grand, dev⟩ := Device.clone_of_overlap (sound.layered parent.1)
      obtain ⟨positive, fits⟩ := sound.positive here'
      obtain ⟨childReq, created, sound', leaf⟩ := @Requests.parentRequest_sound grand obj.type obj.imgOffset obj.length reply.memory
        positive (by lia) staged.fits typed
      refine ⟨_, by rw [Requests.rbdImgParentRead, dev, sent]; simp only [ObjRequest.received, created, bind, Except.bind]; rfl, ?_⟩
      refine chained.spawn found unset rfl rfl (fun done => ?_) ⟨staged.fits, staged.read, staged.write, ?_⟩ rfl sound' leaf
      · have unset' : obj.done = true := done
        rw [unset] at unset'
        cases unset'
      · exact ⟨unset, op, parent.1⟩
    next =>
      have typed' : ¬ (obj.received reply).type = .nodata := typed
      rw [if_neg typed']
      exact ⟨_, rfl, chained.complete found unset ⟨rfl, rfl, rfl⟩ rfl rfl rfl⟩

theorem Requests.Chained.copyup
    (stage : obj.stage = .copyup) (length : reply.length < uintMax) (whole : 0 ≤ reply.result ∨ reply.length = obj.length) :
    Returns (requests.rbdOsdReqCallback id which reply) Requests.Chained := by
  obtain ⟨here, here'⟩ := Requests.find_eq.mp found
  have staged := (chained.sound req (mem_of_getElem? here)).staged obj (mem_of_getElem? here')
  have stages := staged.stage
  rw [stage] at stages
  obtain ⟨unset, write, clean⟩ := stages
  have typed := staged.write write
  have xferred : (obj.received reply).copyupCallback.xferred = obj.length := by
    change (if (obj.received reply).result = 0 then obj.length else reply.length) = obj.length
    split
    · rfl
    next failed =>
      rcases whole with succeeded | same
      · have kept : (obj.received reply).result = obj.result := if_neg (by omega)
        exact absurd (kept.trans clean) failed
      · exact same
  unfold Requests.rbdOsdReqCallback
  simp only [found, haltIf, length, not_true_eq_false, if_false, bind, Except.bind, stage, typed]
  exact ⟨_, rfl, chained.complete found unset ⟨rfl, rfl, rfl⟩ rfl rfl xferred⟩

end

theorem parentReadFullRange_ok {order parentOverlap : Nat} (below : obj.imgOffset - obj.offset < parentOverlap)
    (fits : obj.imgOffset - obj.offset + 2 ^ order ≤ maxOffset) : ∃ length,
      parentReadFullRange order parentOverlap obj = .ok (obj.imgOffset - obj.offset, length) ∧ 0 < length ∧ length ≤ 2 ^ order := by
  have max : maxOffset < 2 ^ 64 := by decide
  have positive : 0 < 2 ^ order := Nat.two_pow_pos order
  have same : (obj.imgOffset - obj.offset + 2 ^ order) % 2 ^ 64 = obj.imgOffset - obj.offset + 2 ^ order :=
    Nat.mod_eq_of_lt (by omega)
  unfold parentReadFullRange
  simp only [same, haltIf, below, not_true_eq_false, if_false, bind, Except.bind]
  split
  · exact ⟨_, rfl, by lia, by lia⟩
  · exact ⟨_, rfl, positive, le_refl _⟩

theorem imgObjRequestSimple_layered {order parentOverlap : Nat}
    (complex : imgObjRequestSimple order parentOverlap req.img obj = false) : req.img.layered = true := by
  unfold imgObjRequestSimple at complex
  split at complex
  · cases complex
  · split at complex
    · cases complex
    next layered => exact Bool.eq_true_of_not_eq_false layered

theorem Requests.Chained.stat (chained : requests.Chained) (found : requests.find id which = some (req, obj))
    (stage : obj.stage = .stat) (length : reply.length < uintMax) (sent : reply.failure = none)
    (known : 0 ≤ reply.result ∨ reply.result = eNoEnt) :
    Returns (requests.rbdOsdReqCallback id which reply) Requests.Chained := by
  obtain ⟨here, here'⟩ := Requests.find_eq.mp found
  have sound := chained.sound req (mem_of_getElem? here)
  have staged := sound.staged obj (mem_of_getElem? here')
  have stages := staged.stage
  rw [stage] at stages
  obtain ⟨unset, write, below, fits⟩ := stages
  have overlaps : ¬ req.dev.parentOverlap = 0 := by omega
  have result : ¬ ((if reply.result < 0 then reply.result else 0) ≠ 0 ∧ (if reply.result < 0 then reply.result else 0) ≠ eNoEnt) := by
    rcases known with succeeded | missing
    · have positive : ¬ reply.result < 0 := by omega
      simp [positive]
    · simp [missing, eNoEnt]
  unfold Requests.rbdOsdReqCallback
  simp only [found, haltIf, length, not_true_eq_false, if_false, bind, Except.bind, stage]
  rw [Requests.rbdImgObjExistsCallback, if_neg overlaps, Requests.afterStat, if_neg result]
  generalize (if reply.result < 0 then reply.result else 0) = result
  simp only
  split
  · rw [sent]
    refine ⟨_, rfl, chained.setObj found unset rfl rfl (fun done => ?_) ⟨staged.fits, staged.read, staged.write, unset⟩ rfl⟩
    have unset' : obj.done = true := done
    rw [unset] at unset'
    cases unset'
  next complex =>
    have layered := imgObjRequestSimple_layered (Bool.eq_false_of_not_eq_true complex)
    obtain ⟨parent, dev⟩ := Device.clone_of_overlap overlaps
    obtain ⟨length', range, positive, within⟩ := @parentReadFullRange_ok { obj with
      known := true
      present := obj.present || decide (result = 0) } _ _ below fits
    have order : 2 ^ req.dev.order ≤ 2 ^ 31 := Nat.pow_le_pow_right (by decide) (sound.order write)
    have small : min length' (2 ^ parent.order) ≤ uintMax := by
      have bound : 2 ^ 31 ≤ uintMax := by decide
      lia
    obtain ⟨childReq, created, sound', leaf⟩ := @Requests.parentRequest_sound parent .pages (obj.imgOffset - obj.offset) length'
      reply.memory positive small (by lia) (by simp)
    refine ⟨_, by
      rw [Requests.rbdImgObjParentReadFull, dev]
      simp only [range, sent, created, bind, Except.bind]
      rfl, ?_⟩
    refine chained.spawn found unset rfl rfl (fun done => ?_) ⟨staged.fits, staged.read, staged.write, ?_⟩ rfl sound' leaf
    · have unset' : obj.done = true := done
      rw [unset] at unset'
      cases unset'
    · exact ⟨unset, write, layered, rfl⟩

theorem ChainedRequest.Sound.called {callback : CallbackStage} {img : ImgRequest Stage} (sound : req.Sound)
    (here : req.img.objRequests[which]? = some obj) (done : obj.done = true)
    (same : img.objRequests = req.img.objRequests.modify which fun obj => { obj with stage := .called callback })
    (length : img.length = req.img.length) (op : img.op = req.img.op) (layered : img.layered = req.img.layered)
    (completing : Completing img) : ChainedRequest.Sound { req with img := img } := by
  refine ⟨completing, ?_, ?_, ?_, ?_⟩
  · have lengths := @map_modify_same _ _ req.img.objRequests (fun obj => { obj with stage := .called callback })
      (fun obj => obj.length) which fun _ _ => rfl
    rw [same, lengths]
    exact sound.total.trans length.symm
  · rw [layered]
    exact sound.layered
  · rw [op]
    exact sound.order
  · intro other listed
    rw [op, layered]
    rw [same] at listed
    rcases mem_modify listed with was | ⟨old, found, rfl⟩
    · exact sound.staged other was
    · rw [here] at found
      cases found
      have staged := sound.staged obj (mem_of_getElem? here)
      exact ⟨staged.fits, staged.read, staged.write, done⟩

theorem Requests.Chained.called {callback : CallbackStage} {img : ImgRequest Stage} (chained : requests.Chained)
    (found : requests.find id which = some (req, obj)) (done : obj.done = true)
    (same : img.objRequests = req.img.objRequests.modify which fun obj => { obj with stage := .called callback })
    (length : img.length = req.img.length) (op : img.op = req.img.op) (layered : img.layered = req.img.layered)
    (child : img.child = req.img.child) (completing : Completing img) : Requests.Chained (requests.set id { req with img := img }) := by
  obtain ⟨here, here'⟩ := Requests.find_eq.mp found
  have sound := chained.sound req (mem_of_getElem? here)
  refine @Requests.Chained.set requests req { req with img := img } id chained here
    (sound.called here' done same length op layered completing) child fun other listed awaited waits => ?_
  rw [same] at listed
  rcases mem_modify listed with was | ⟨old, -, rfl⟩
  · exact ⟨other, was, waits⟩
  · cases waits

section

variable (chained : requests.Chained) (found : requests.find id which = some (req, obj))
include chained found

theorem Requests.Chained.locked
    (stage : obj.stage = .called .pending) : Returns (requests.lockedCallback id which) Requests.Chained := by
  obtain ⟨here, here'⟩ := Requests.find_eq.mp found
  have sound := chained.sound req (mem_of_getElem? here)
  have done : obj.done = true := by
    have stages := (sound.staged obj (mem_of_getElem? here')).stage
    rw [stage] at stages
    exact stages
  have pending : obj.callback = .pending := by
    rw [ObjRequest.callback, stage]
    rfl
  obtain ⟨more, last, ran, completing⟩ := @Completing.callback _ _ _ _ _ (fun more => Stage.called (.unlocked more))
    sound.completing here' done pending fun _ => rfl
  refine ⟨_, by simp only [Requests.lockedCallback, here, ran, bind, Except.bind]; rfl, ?_⟩
  exact chained.called found done rfl rfl rfl rfl rfl completing

theorem Requests.Chained.unlocked {more : Bool}
    (stage : obj.stage = .called (.unlocked more)) : Returns (requests.unlockedCallback id which) Requests.Chained := by
  obtain ⟨here, here'⟩ := Requests.find_eq.mp found
  have sound := chained.sound req (mem_of_getElem? here)
  have done : obj.done = true := by
    have stages := (sound.staged obj (mem_of_getElem? here')).stage
    rw [stage] at stages
    exact stages
  have unlocked : obj.callback = .unlocked more := by
    rw [ObjRequest.callback, stage]
    rfl
  have returned : HasCallback.callback (Stage.called .returned) = .returned := rfl
  have completing := sound.completing.finish here' unlocked returned
  refine ⟨_, by simp only [Requests.unlockedCallback, found, stage]; rfl, ?_⟩
  refine @Requests.Chained.called _ _ _ _ _ .returned _ chained found done ?_ ?_ ?_ ?_ ?_ completing <;> cases more <;> rfl

theorem Requests.Chained.parent
    (waits : obj.stage.child? = some child) (here' : requests[child]? = some childReq) (completed : childReq.img.completed ≠ 0)
    (clean : obj.stage = .parentReadFull child → childReq.img.result = 0) :
    Returns (requests.callParent id which none) Requests.Chained := by
  obtain ⟨here, at'⟩ := Requests.find_eq.mp found
  have sound := chained.sound req (mem_of_getElem? here)
  have staged := sound.staged obj (mem_of_getElem? at')
  have stages := staged.stage
  have childSound := chained.sound childReq (mem_of_getElem? here')
  unfold Requests.callParent
  cases stage : obj.stage with
  | data | stat | copyup | called =>
    rw [stage] at waits
    cases waits
  | parentRead other =>
    rw [stage] at waits stages
    cases waits
    obtain ⟨unset, read, layered⟩ := stages
    have overlaps := sound.layered layered
    have last : obj.imgOffset < 2 ^ 64 - 1 - obj.length := by
      have fits := staged.fits
      have max : maxOffset < 2 ^ 64 - 1 := by decide
      lia
    have typed := staged.read read
    simp only [found, stage, here', Requests.rbdImgParentReadCallback, overlaps, if_false, Requests.afterParentRead, haltIf, last,
      not_true_eq_false, and_false, typed, bind, Except.bind]
    exact ⟨_, rfl, chained.complete found unset ⟨rfl, rfl, rfl⟩ rfl rfl rfl⟩
  | parentReadFull other =>
    rw [stage] at waits stages
    cases waits
    obtain ⟨unset, write, layered, result⟩ := stages
    have overlaps := sound.layered layered
    have clean := clean stage
    have whole : childReq.img.length = childReq.img.xferred := by
      rw [childSound.completing.xferred completed clean, childSound.total]
    simp only [found, stage, here', Requests.rbdImgObjParentReadFullCallback, overlaps, if_false, haltIf, whole, ne_eq,
      not_true_eq_false, bind, Except.bind, Requests.afterParentReadFull, clean]
    refine ⟨_, rfl, chained.setObj found unset rfl rfl (fun done => ?_) ⟨staged.fits, staged.read, staged.write, ?_⟩ rfl⟩
    · have unset' : obj.done = true := done
      rw [unset] at unset'
      cases unset'
    · exact ⟨unset, write, result⟩

end

theorem ChainCall.chained {call : ChainCall} (chained : requests.Chained) (meets : call.Proper requests ∧ call.Meets requests) :
    Returns (call.run requests) Requests.Chained := by
  obtain ⟨proper, meets⟩ := meets
  cases call with
  | osd id which reply =>
    obtain ⟨req, obj, found, stages, length⟩ := proper
    obtain ⟨sent, outcomes⟩ := meets
    obtain ⟨stat, copyup⟩ := outcomes req obj found
    rcases stages with stage | stage | stage
    · exact chained.data found stage length sent
    · exact chained.stat found stage length sent (stat stage)
    · exact chained.copyup found stage length (copyup stage)
  | callback id which =>
    obtain ⟨req, obj, found, stage⟩ := proper
    exact chained.locked found stage
  | unlocked id which =>
    obtain ⟨req, obj, more, found, stage⟩ := proper
    exact chained.unlocked found stage
  | parent id which failure =>
    obtain ⟨req, obj, child, childReq, found, waits, here, completed⟩ := proper
    obtain ⟨sent, outcomes⟩ := meets
    subst sent
    exact chained.parent found waits here completed fun stage => outcomes req obj child childReq found stage here

theorem Requests.Chained.completed (chained : requests.Chained) (quiet : requests.Quiet) (here : requests[id]? = some req) :
    req.img.nextCompletion = req.img.objRequests.length ∧ req.img.completed = 1 := by
  -- Object requests wait for image requests that are later in the list.
  induction left : requests.length - id using Nat.strongRecOn generalizing id req with
  | ind left ih =>
    have sound := chained.sound req (mem_of_getElem? here)
    refine sound.completing.all_returned fun obj listed => ?_
    rcases quiet req (mem_of_getElem? here) obj listed with returned | ⟨child, childReq, waits, here', open'⟩
    · rw [ObjRequest.callback, returned]
      rfl
    · obtain ⟨after, within⟩ := chained.children id req obj child here listed waits
      have completed := (ih (requests.length - child) (by lia) here' rfl).2
      omega

end

section

variable {dev : Device} {op : ObjOperationType} {offset length memory : Nat}

theorem ChainedRequest.submitted_sound (nonempty : 0 < length) (order : dev.order ≤ 31) (fits : offset + length ≤ 2 ^ 63)
    (starts : ∀ obj ∈ (ChainedRequest.submitted dev op offset length memory).img.objRequests, obj.stage = .stat →
      obj.imgOffset - obj.offset < dev.parentOverlap) : (ChainedRequest.submitted dev op offset length memory).Sound := by
  have size : 2 ^ dev.order ≤ 2 ^ 31 := Nat.pow_le_pow_right (by decide) order
  have small : min length (2 ^ dev.order) ≤ uintMax := by
    have bound : 2 ^ 31 ≤ uintMax := by decide
    lia
  have mem : ∀ obj ∈ fillObjRequests dev.order op.dataType Stage.data length offset length,
      obj.done = false ∧ obj.imgOffset + obj.length ≤ offset + length ∧ obj.type = op.dataType := by
    intro obj listed
    obtain ⟨-, -, -, -, -, within, type, done, -⟩ := fillObjRequests_mem listed
    exact ⟨done, within, type⟩
  have filled : Completing (ImgRequest.filled op op.dataType false dev.rbdDevParentGet dev.order offset length memory Stage.data) :=
    .filled nonempty small rfl
  refine ⟨filled.restage (fun obj listed => (mem obj listed).1) fun obj => ?_, ?_, ?_, fun _ => order, ?_⟩
  · cases imgObjRequestSimple dev.order dev.parentOverlap _ obj <;> rfl
  · have total := @fillObjRequests_sum _ dev.order op.dataType Stage.data length offset length (le_refl _)
    refine (congrArg sum ?_).trans total
    simp only [ChainedRequest.submitted, ImgRequest.filled, map_map]
    rfl
  · exact fun layered => of_decide_eq_true layered
  · intro obj listed
    have starts := starts obj listed
    obtain ⟨old, was, rfl⟩ := List.mem_map.mp listed
    obtain ⟨done, within, type⟩ := mem old was
    have max : maxOffset = 2 ^ 63 + 2 ^ 31 := rfl
    refine ⟨by dsimp only; lia, ?_, ?_, ?_⟩
    · intro read
      have read : op = .read := read
      rw [type, read]
      decide
    · intro _
      rw [type]
      cases op <;> decide
    · dsimp only
      cases simple : imgObjRequestSimple dev.order dev.parentOverlap (ImgRequest.filled op op.dataType false dev.rbdDevParentGet
          dev.order offset length memory Stage.data) old with
      | true => exact done
      | false =>
        rw [simple] at starts
        have end' : old.imgOffset - old.offset + 2 ^ dev.order ≤ maxOffset := by lia
        refine ⟨done, ?_, starts rfl, end'⟩
        intro read
        have read : (ImgRequest.filled op op.dataType false dev.rbdDevParentGet dev.order offset length memory Stage.data).op = .read :=
          read
        rw [imgObjRequestSimple, if_pos read] at simple
        cases simple

theorem imgObjRequestSimple_overlaps {σ : Type} {order parentOverlap : Nat} {img : ImgRequest σ} {obj : ObjRequest σ}
    (complex : imgObjRequestSimple order parentOverlap img obj = false) :
    objRequestOverlapsParent order parentOverlap obj.imgOffset = true := by
  unfold imgObjRequestSimple at complex
  split at complex
  · cases complex
  · split at complex
    · cases complex
    · split at complex
      · cases complex
      next overlaps => exact Bool.eq_true_of_not_eq_false overlaps

theorem ChainedRequest.submitted_starts (small : dev.order ≤ 30) (fits : dev.parentOverlap < 2 ^ 64) :
    ∀ obj ∈ (ChainedRequest.submitted dev op offset length memory).img.objRequests, obj.stage = .stat →
      obj.imgOffset - obj.offset < dev.parentOverlap := by
  intro obj listed stage
  obtain ⟨old, was, rfl⟩ := List.mem_map.mp listed
  obtain ⟨-, -, aligned, -⟩ := fillObjRequests_mem was
  have start : old.imgOffset - old.offset = old.imgOffset / 2 ^ dev.order * 2 ^ dev.order := by
    have parts := Nat.div_add_mod' old.imgOffset (2 ^ dev.order)
    lia
  cases simple : imgObjRequestSimple dev.order dev.parentOverlap (ImgRequest.filled op op.dataType false dev.rbdDevParentGet
      dev.order offset length memory Stage.data) old with
  | true =>
    rw [simple] at stage
    cases stage
  | false =>
    rw [start]
    exact objRequestOverlapsParent_start small fits (imgObjRequestSimple_overlaps simple)

/-- Whatever the order and the outcomes of the OSD operations that meet the conditions, no assertion fails, and
when none is outstanding the block request has been ended. -/
theorem requests_complete (nonempty : 0 < length) (order : dev.order ≤ 31) (fits : offset + length ≤ 2 ^ 63)
    (starts : ∀ obj ∈ (ChainedRequest.submitted dev op offset length memory).img.objRequests, obj.stage = .stat →
      obj.imgOffset - obj.offset < dev.parentOverlap) {requests : Requests}
    (reached : Reached ChainCall.run (fun call requests => call.Proper requests ∧ call.Meets requests)
      [.submitted dev op offset length memory] requests) :
    (requests.Quiet → ∃ req, requests[0]? = some req ∧ req.img.completed = 1 ∧ req.img.rq = 0) ∧
    ∀ call : ChainCall, call.Proper requests → call.Meets requests → ∃ next, call.run requests = .ok next := by
  have keeps : Keeps ChainCall.run (fun call requests => call.Proper requests ∧ call.Meets requests) Requests.Chained :=
    fun call before meets chained => ChainCall.chained chained meets
  have sound := ChainedRequest.submitted_sound nonempty order fits starts
  have initially : Requests.Chained [.submitted dev op offset length memory] := by
    refine ⟨⟨_, rfl, rfl⟩, fun req listed => List.mem_singleton.mp listed ▸ sound, ?_⟩
    intro id req obj child found listed waits
    have same : ChainedRequest.submitted dev op offset length memory = req := by
      cases id with
      | zero => exact Option.some.inj found
      | succ id => cases found
    subst same
    obtain ⟨old, -, rfl⟩ := List.mem_map.mp listed
    dsimp only at waits
    generalize imgObjRequestSimple dev.order dev.parentOverlap _ old = simple at waits
    cases simple <;> cases waits
  have chained := reached.holds keeps initially
  refine ⟨fun quiet => ?_, fun call proper meets => ?_⟩
  · obtain ⟨req, here, block⟩ := chained.top
    obtain ⟨all, completed⟩ := chained.completed quiet here
    refine ⟨req, here, completed, ?_⟩
    rw [(chained.sound req (mem_of_getElem? here)).completing.ends.ended, all]
    simp [ImgRequest.endedTo, block]
  · obtain ⟨next, ran, -⟩ := keeps call requests ⟨proper, meets⟩ chained
    exact ⟨next, ran⟩

end

def layeredWrite : ChainedRequest :=
  .submitted (.clone 10 2048 (.flat 10)) .write 0 512 0

theorem Requests.quiet_of_returned {requests : Requests}
    (returned : ∀ req ∈ requests, ∀ obj ∈ req.img.objRequests, obj.stage = .called .returned) : requests.Quiet :=
  fun req listed obj listed' => .inl (returned req listed obj listed')

set_option maxRecDepth 4096 in
/-- The object is missing, and is copied up. -/
theorem requests_complete_copyup : ∃ requests : Requests,
    Reached ChainCall.run (fun call requests => call.Proper requests ∧ call.Meets requests) [layeredWrite] requests ∧
    requests.length = 2 ∧ ∃ req, requests[0]? = some req ∧ req.img.completed = 1 ∧ req.img.rq = 0 := by
  have begun : Reached ChainCall.run (fun call requests => call.Proper requests ∧ call.Meets requests) [layeredWrite] _ := .start
  have missing := begun.next (.osd 0 0 ⟨-2, 0, 0, none⟩) ⟨⟨_, _, rfl, .inr (.inl rfl), by decide⟩, rfl, fun _ _ found => by
    cases found
    exact ⟨fun _ => .inr rfl, nofun⟩⟩ rfl
  have read := missing.next (.osd 1 0 ⟨0, 1024, 0, none⟩) ⟨⟨_, _, rfl, .inl rfl, by decide⟩, rfl,
    fun _ _ _ => ⟨fun _ => .inl (le_refl _), fun _ => .inl (le_refl _)⟩⟩ rfl
  have locked := read.next (.callback 1 0) ⟨⟨_, _, rfl, rfl⟩, trivial⟩ rfl
  have unlocked := locked.next (.unlocked 1 0) ⟨⟨_, _, _, rfl, rfl⟩, trivial⟩ rfl
  have parent := unlocked.next (.parent 0 0 none) ⟨⟨_, _, _, _, rfl, rfl, rfl, by decide⟩, rfl, fun _ _ _ _ found stage here => by
    cases found
    cases stage
    cases here
    rfl⟩ rfl
  have copied := parent.next (.osd 0 0 ⟨0, 0, 0, none⟩) ⟨⟨_, _, rfl, .inr (.inr rfl), by decide⟩, rfl,
    fun _ _ _ => ⟨fun _ => .inl (le_refl _), fun _ => .inl (le_refl _)⟩⟩ rfl
  have locked' := copied.next (.callback 0 0) ⟨⟨_, _, rfl, rfl⟩, trivial⟩ rfl
  have returned := locked'.next (.unlocked 0 0) ⟨⟨_, _, _, rfl, rfl⟩, trivial⟩ rfl
  exact ⟨_, returned, rfl, (requests_complete (by decide) (by decide) (by decide) (ChainedRequest.submitted_starts (by decide) (by decide)) returned).1
    (Requests.quiet_of_returned (by decide +kernel))⟩

set_option maxRecDepth 4096 in
/-- The stat fails, and nothing completes the request; a copyup fails, and an assertion does. -/
theorem requests_hang : (∃ requests : Requests, Reached ChainCall.run ChainCall.Proper [layeredWrite] requests ∧ requests.Quiet ∧
    ∀ req, requests[0]? = some req → req.img.completed = 0 ∧ req.img.rq = 512) ∧
    ∃ requests : Requests, Reached ChainCall.run ChainCall.Proper [layeredWrite] requests ∧
      (ChainCall.callback 0 0).Proper requests ∧ (ChainCall.callback 0 0).run requests = .error .moreUnlessLast := by
  have begun : Reached ChainCall.run ChainCall.Proper [layeredWrite] _ := .start
  have failed := begun.next (.osd 0 0 ⟨-5, 0, 0, none⟩) ⟨_, _, rfl, .inr (.inl rfl), by decide⟩ rfl
  have locked := failed.next (.callback 0 0) ⟨_, _, rfl, rfl⟩ rfl
  have returned := locked.next (.unlocked 0 0) ⟨_, _, _, rfl, rfl⟩ rfl
  have missing := begun.next (.osd 0 0 ⟨-2, 0, 0, none⟩) ⟨_, _, rfl, .inr (.inl rfl), by decide⟩ rfl
  have read := missing.next (.osd 1 0 ⟨0, 1024, 0, none⟩) ⟨_, _, rfl, .inl rfl, by decide⟩ rfl
  have locked' := read.next (.callback 1 0) ⟨_, _, rfl, rfl⟩ rfl
  have unlocked := locked'.next (.unlocked 1 0) ⟨_, _, _, rfl, rfl⟩ rfl
  have parent := unlocked.next (.parent 0 0 none) ⟨_, _, _, _, rfl, rfl, rfl, by decide⟩ rfl
  have failed' := parent.next (.osd 0 0 ⟨-5, 0, 0, none⟩) ⟨_, _, rfl, .inr (.inr rfl), by decide⟩ rfl
  refine ⟨⟨_, returned, Requests.quiet_of_returned (by decide +kernel), fun req found => ?_⟩, _, failed', ⟨_, _, rfl, rfl⟩, rfl⟩
  cases found
  decide +kernel

end KmodCeph.Rbd
