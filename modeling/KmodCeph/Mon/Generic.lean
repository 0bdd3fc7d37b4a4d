import Mathlib.Logic.Function.Basic
import KmodCeph.Lib.Bytes
import KmodCeph.Lib.Reached

namespace KmodCeph.Mon

open Lib

/-- Which function made a request: `ceph_monc_do_statfs`, `ceph_monc_create_snapid`, `ceph_monc_delete_snapid` or
`ceph_monc_do_get_version`. -/
inductive RequestKind where
  | statfs
  | createSnapid
  | deleteSnapid
  | getVersion
deriving DecidableEq

inductive ReplyKind where
  | statfs
  | poolop
  | getVersion
deriving DecidableEq

def RequestKind.bufLen : RequestKind → Nat
  | .statfs => 32
  | .createSnapid => 8
  | .deleteSnapid => 0
  | .getVersion => 8

def RequestKind.reply : RequestKind → ReplyKind
  | .statfs => .statfs
  | .createSnapid => .poolop
  | .deleteSnapid => .poolop
  | .getVersion => .getVersion

/-- `struct ceph_mon_generic_request`, with whether its completion is done. -/
structure GenericRequest where
  kind : RequestKind
  result : UInt32
  done : Bool

/-- A message that was read: `front` has all `front_alloc_len` bytes of its buffer. -/
structure InMsg where
  type : ReplyKind
  tid : UInt64
  front : List UInt8
  iovLen : Nat

/-- What the handlers do for requests: bytes of the front of a reply are stored in a result buffer, and a request is
completed. -/
inductive Deed where
  | stored (tid : UInt64) (at_ len : Nat)
  | completed (tid : UInt64) (kind : RequestKind) (reply : ReplyKind) (result : UInt32)

/-- The requests of `struct ceph_mon_client`, with the result buffers of those who wait and the fronts of the replies
that were allocated for them, by tid, and what was done. -/
structure Monc where
  lastTid : UInt64
  requests : UInt64 → Option GenericRequest
  bufs : UInt64 → List UInt8
  fronts : UInt64 → List UInt8
  inMsg : Option InMsg
  deeds : List Deed

inductive MonFault where
  | bug
  | nullPointer
  | overrun

def statfsReplySize : Nat := 56
def poolopReplySize : Nat := 43
def replyFrontLen : Nat := 1024

def InMsg.own (msg : InMsg) : List UInt8 := msg.front.take msg.iovLen

def InMsg.handle (msg : InMsg) : UInt64 := UInt64.ofNat (leValue (msg.front.take 8))

def InMsg.replyCode (msg : InMsg) : UInt32 := UInt32.ofNat (leValue ((msg.front.drop 34).take 4))

namespace Monc

def store (tid : UInt64) (msg : InMsg) (at_ len : Nat) (monc : Monc) : Except MonFault Monc := do
  haltIf (monc.bufs tid = []) .nullPointer
  haltIf ((monc.bufs tid).length < len) .overrun
  return { monc with
    bufs := Function.update monc.bufs tid ((msg.front.drop at_).take len ++ (monc.bufs tid).drop len)
    deeds := .stored tid at_ len :: monc.deeds }

def complete (tid : UInt64) (req : GenericRequest) (reply : ReplyKind) (result : UInt32) (monc : Monc) : Monc :=
  { monc with
    requests := Function.update monc.requests tid (some { req with
      result := result
      done := true })
    deeds := .completed tid req.kind reply result :: monc.deeds }

def handleStatfsReply (msg : InMsg) (monc : Monc) : Except MonFault Monc :=
  if msg.iovLen ≠ statfsReplySize then .ok monc
  else match monc.requests msg.tid with
    | none => .ok monc
    | some req => do
      let monc ← monc.store msg.tid msg 24 32
      return monc.complete msg.tid req .statfs 0

def handleGetVersionReply (msg : InMsg) (monc : Monc) : Except MonFault Monc :=
  if msg.front.length < 16 then .ok monc
  else if msg.tid ≠ 0 ∧ msg.tid ≠ msg.handle then .ok monc
  else match monc.requests msg.handle with
    | none => .ok monc
    | some req => do
      let monc ← monc.store msg.handle msg 8 8
      return monc.complete msg.handle req .getVersion 0

/-- What `get_poolop_reply_buf` checks, for what is behind the reply itself. -/
def poolopReplyBuf (msg : InMsg) (dstLen : Nat) : Bool :=
  decide (msg.iovLen - poolopReplySize = 4 + dstLen) && decide (leValue ((msg.front.drop 43).take 4) = dstLen)

def handlePoolopReply (msg : InMsg) (monc : Monc) : Except MonFault Monc :=
  if msg.iovLen < poolopReplySize then .ok monc
  else match monc.requests msg.tid with
    | none => .ok monc
    | some req =>
      if req.kind.bufLen = 0 then .ok (monc.complete msg.tid req .poolop msg.replyCode)
      else if poolopReplyBuf msg req.kind.bufLen then do
        let monc ← monc.store msg.tid msg 47 req.kind.bufLen
        return monc.complete msg.tid req .poolop msg.replyCode
      else .ok monc

def dispatch (monc : Monc) : Except MonFault Monc :=
  match monc.inMsg with
  | none => .ok monc
  | some msg =>
    let monc := { monc with inMsg := none }
    match msg.type with
    | .statfs => monc.handleStatfsReply msg
    | .poolop => monc.handlePoolopReply msg
    | .getVersion => monc.handleGetVersionReply msg

def receive (type : ReplyKind) (tid : UInt64) (bytes : List UInt8) (whole : Bool) (monc : Monc) :
    Except MonFault Monc :=
  if monc.inMsg.isSome then .ok monc
  else if type = .getVersion ∧ tid = 0 then
    .ok { monc with inMsg := if whole then some ⟨type, tid, bytes, bytes.length⟩ else none }
  else match monc.requests tid with
    | none => .ok monc
    | some _ => do
      haltIf ((monc.fronts tid).length < bytes.length) .overrun
      let front := bytes ++ (monc.fronts tid).drop bytes.length
      return { monc with
        fronts := Function.update monc.fronts tid front
        inMsg := if whole then some ⟨type, tid, front, bytes.length⟩ else none }

def nextTid (kind : RequestKind) (monc : Monc) : UInt64 :=
  if kind = .getVersion ∧ monc.lastTid + 1 = 0 then 1 else monc.lastTid + 1

/-- `__do_generic_request` up to where it waits, of a request with its result buffer and with what is in the memory of
its reply. -/
def submit (kind : RequestKind) (buf : Fin kind.bufLen → UInt8) (front : Fin replyFrontLen → UInt8) (monc : Monc) :
    Except MonFault Monc :=
  let tid := monc.nextTid kind
  match monc.requests tid with
  | some _ => .error .bug
  | none => .ok { monc with
      lastTid := tid
      requests := Function.update monc.requests tid (some
        { kind := kind
          result := 0
          done := false })
      bufs := Function.update monc.bufs tid (List.ofFn buf)
      fronts := Function.update monc.fronts tid (List.ofFn front) }

/-- `__do_generic_request` behind where it waits: at a completion, or where the wait is interrupted. -/
def return_ (tid : UInt64) (interrupted : Bool) (monc : Monc) : Monc :=
  match monc.requests tid with
  | none => monc
  | some req =>
    if interrupted ∨ req.done then { monc with requests := Function.update monc.requests tid none } else monc

def init : Monc where
  lastTid := 0
  requests := fun _ => none
  bufs := fun _ => []
  fronts := fun _ => []
  inMsg := none
  deeds := []

end Monc

inductive Call where
  | submit (kind : RequestKind) (buf : Fin kind.bufLen → UInt8) (front : Fin replyFrontLen → UInt8)
  | receive (type : ReplyKind) (tid : UInt64) (bytes : List UInt8) (whole : Bool)
  | dispatch
  | return_ (tid : UInt64) (interrupted : Bool)

def Call.run : Call → Monc → Except MonFault Monc
  | .submit kind buf front, monc => monc.submit kind buf front
  | .receive type tid bytes whole, monc => monc.receive type tid bytes whole
  | .dispatch, monc => monc.dispatch
  | .return_ tid interrupted, monc => .ok (monc.return_ tid interrupted)

end KmodCeph.Mon
