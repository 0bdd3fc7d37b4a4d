import KmodCeph.Messenger.Basic
import KmodCeph.Lib.Reached

namespace KmodCeph.Incoming

open Lib Messenger

def cephMsgMonMap : UInt16 := 4
def cephMsgStatfsReply : UInt16 := 14
def cephMsgMonSubscribeAck : UInt16 := 16
def cephMsgAuthReply : UInt16 := 18
def cephMsgMonGetVersionReply : UInt16 := 20
def cephMsgMdsMap : UInt16 := 21
def cephMsgOsdMap : UInt16 := 41
def cephMsgOsdOpreply : UInt16 := 43
def cephMsgWatchNotify : UInt16 := 44
def cephMsgPoolopReply : UInt16 := 48

abbrev MsgId := Nat
abbrev ConId := Nat

/-- A `struct kvec` that is read into, with the bytes that are allocated for it. -/
structure Section where
  alloc : Nat
  iovLen : Nat
deriving DecidableEq

/-- What `struct ceph_msg` has for a frame to be read into. The cursor is at `cursorPos` bytes into the data, with
`cursorResid` bytes to read. -/
structure Msg where
  front : Section
  middle : Option Section
  data : List Nat
  cursorPos : Nat
  cursorResid : Nat
  con : Option ConId

def Msg.dataLength (msg : Msg) : Nat := msg.data.sum

inductive Peer where
  | mon
  | osd
  | mds
deriving DecidableEq

/-- Where a connection is in `read_partial_message`: `alloc_msg` was called, with what it returned, or `in_msg` is
read. -/
inductive Phase where
  | idle
  | allocating (hdr : MsgHeader) (msg : Option MsgId) (skip : Bool)
  | reading (hdr : MsgHeader) (msg : MsgId)
deriving DecidableEq

structure Con where
  peer : Peer
  opened : Bool
  phase : Phase

structure GenericRequest where
  tid : UInt64
  reply : MsgId

/-- `struct ceph_osd_request`; `pages` is the length of the pages of its first operation, if it has data of that type. -/
structure OsdRequest where
  tid : UInt64
  reply : MsgId
  pages : Option Nat

/-- The messages that frames are read into, and the clients that have them. -/
structure Clients where
  msgs : MsgId → Msg
  allocated : Nat
  cons : ConId → Con
  genericRequests : List GenericRequest
  requests : List OsdRequest
  subscribeAck : MsgId
  authReply : MsgId

inductive IncomingFault where
  | outOfBounds
  | notOurs

def Msg.new (frontLen : Nat) (data : List Nat) : Msg where
  front := ⟨frontLen, frontLen⟩
  middle := none
  data := data
  cursorPos := 0
  cursorResid := 0
  con := none

/-- `ceph_alloc_middle`, where there is something for it to do. -/
def Msg.allocMiddle (hdr : MsgHeader) (memory : Bool) (msg : Msg) : Option Msg :=
  if 0 < hdr.middleLen.toNat ∧ msg.middle = none then
    if memory then some { msg with middle := some ⟨hdr.middleLen.toNat, 0⟩ } else none
  else some msg

def Msg.prepare (hdr : MsgHeader) (msg : Msg) : Msg :=
  { msg with
    front := { msg.front with iovLen := 0 }
    middle := msg.middle.map fun middle => { middle with iovLen := 0 }
    cursorPos := if 0 < hdr.dataLen.toNat then 0 else msg.cursorPos
    cursorResid := if 0 < hdr.dataLen.toNat then hdr.dataLen.toNat else msg.cursorResid }

def Section.recv (secLen got : Nat) (part : Section) : Except IncomingFault Section :=
  let got := min got (secLen - part.iovLen)
  if part.alloc < part.iovLen + got then .error .outOfBounds
  else .ok { part with iovLen := part.iovLen + got }

def Msg.recvData (got : Nat) (msg : Msg) : Except IncomingFault Msg :=
  let got := min got msg.cursorResid
  if msg.dataLength < msg.cursorPos + got then .error .outOfBounds
  else .ok { msg with
    cursorPos := msg.cursorPos + got
    cursorResid := msg.cursorResid - got }

def Msg.recv (hdr : MsgHeader) (got : Nat) (msg : Msg) : Except IncomingFault Msg :=
  if msg.front.iovLen < hdr.frontLen.toNat then do
    let front ← msg.front.recv hdr.frontLen.toNat got
    return { msg with front := front }
  else match msg.middle with
    | none => if 0 < hdr.dataLen.toNat then msg.recvData got else .ok msg
    | some middle =>
      if middle.iovLen < hdr.middleLen.toNat then do
        let middle ← middle.recv hdr.middleLen.toNat got
        return { msg with middle := some middle }
      else if 0 < hdr.dataLen.toNat then msg.recvData got else .ok msg

def Msg.complete (hdr : MsgHeader) (msg : Msg) : Bool :=
  decide (hdr.frontLen.toNat ≤ msg.front.iovLen) && msg.middle.all (fun middle => hdr.middleLen.toNat ≤ middle.iovLen) &&
    decide (0 < hdr.dataLen.toNat → msg.cursorResid = 0)

namespace Clients

def setMsg (id : MsgId) (msg : Msg) (clients : Clients) : Clients :=
  { clients with msgs := Function.update clients.msgs id msg }

def setPhase (con : ConId) (phase : Phase) (clients : Clients) : Clients :=
  { clients with cons := Function.update clients.cons con { clients.cons con with phase := phase } }

@[simp] theorem setMsg_self (id : MsgId) (msg : Msg) (clients : Clients) : (clients.setMsg id msg).msgs id = msg :=
  Function.update_self ..

theorem setMsg_other {id other : MsgId} (differs : other ≠ id) (msg : Msg) (clients : Clients) :
    (clients.setMsg id msg).msgs other = clients.msgs other :=
  Function.update_of_ne differs ..

@[simp] theorem setPhase_self (con : ConId) (phase : Phase) (clients : Clients) :
    (clients.setPhase con phase).cons con = { clients.cons con with phase := phase } :=
  Function.update_self ..

theorem setPhase_other {con other : ConId} (differs : other ≠ con) (phase : Phase) (clients : Clients) :
    (clients.setPhase con phase).cons other = clients.cons other :=
  Function.update_of_ne differs ..

def cephMsgNew (frontLen : Nat) (data : List Nat) (memory : Bool) (clients : Clients) : Option MsgId × Clients :=
  if memory then
    (some clients.allocated, { clients.setMsg clients.allocated (Msg.new frontLen data) with
      allocated := clients.allocated + 1 })
  else (none, clients)

def revokeIncoming (msg : MsgId) (clients : Clients) : Clients :=
  match (clients.msgs msg).con with
  | none => clients
  | some con =>
    match (clients.cons con).phase with
    | .reading _ inMsg => if inMsg = msg then clients.setPhase con .idle else clients
    | _ => clients

def getGenericReply (hdr : MsgHeader) (clients : Clients) : Option MsgId × Bool :=
  match clients.genericRequests.find? (·.tid = hdr.tid) with
  | none => (none, true)
  | some req => (some req.reply, false)

/-- What `mon_alloc_msg` does with a message that is there already. -/
def monPrealloc (msg : MsgId) (hdr : MsgHeader) (memory : Bool) (clients : Clients) :
    Option MsgId × Bool × Clients :=
  if hdr.frontLen.toNat > (clients.msgs msg).front.alloc then
    let (msg, clients) := clients.cephMsgNew hdr.frontLen.toNat [] memory
    (msg, false, clients)
  else (some msg, false, clients)

def monAllocMsg (hdr : MsgHeader) (memory : Bool) (clients : Clients) : Option MsgId × Bool × Clients :=
  let generic := clients.getGenericReply hdr
  if hdr.type = cephMsgMonSubscribeAck then clients.monPrealloc clients.subscribeAck hdr memory
  else if hdr.type = cephMsgPoolopReply ∨ hdr.type = cephMsgStatfsReply then (generic.1, generic.2, clients)
  else if hdr.type = cephMsgAuthReply then clients.monPrealloc clients.authReply hdr memory
  else if hdr.type = cephMsgMonGetVersionReply ∧ hdr.tid ≠ 0 then (generic.1, generic.2, clients)
  else if hdr.type = cephMsgMonGetVersionReply ∨ hdr.type = cephMsgMonMap ∨ hdr.type = cephMsgMdsMap ∨
      hdr.type = cephMsgOsdMap then
    let (msg, clients) := clients.cephMsgNew hdr.frontLen.toNat [] memory
    (msg, false, clients)
  else (none, true, clients)

/-- The part of `get_reply` that makes the reply of a request large enough in front, if there is memory. -/
def replyFront (req : OsdRequest) (hdr : MsgHeader) (memory : Bool) (clients : Clients) : Option MsgId × Clients :=
  if hdr.frontLen.toNat > (clients.msgs req.reply).front.alloc then
    match clients.cephMsgNew hdr.frontLen.toNat [] memory with
    | (none, clients) => (none, clients)
    | (some msg, clients) => (some msg, { clients with
        requests := clients.requests.map fun other => if other.tid = req.tid then { other with reply := msg } else other })
  else (some req.reply, clients)

def getReply (hdr : MsgHeader) (memory : Bool) (clients : Clients) : Option MsgId × Bool × Clients :=
  match clients.requests.find? (·.tid = hdr.tid) with
  | none => (none, true, clients)
  | some req =>
    match (clients.revokeIncoming req.reply).replyFront req hdr memory with
    | (none, clients) => (none, false, clients)
    | (some msg, clients) =>
      match req.pages with
      | none => (some msg, false, clients)
      | some length =>
        if 0 < hdr.dataLen.toNat ∧ length < hdr.dataLen.toNat then (none, true, clients)
        else (some msg, false, clients)

def osdAllocMsg (hdr : MsgHeader) (memory : Bool) (clients : Clients) : Option MsgId × Bool × Clients :=
  if hdr.type = cephMsgOsdMap ∨ hdr.type = cephMsgWatchNotify then
    let (msg, clients) := clients.cephMsgNew hdr.frontLen.toNat [] memory
    (msg, false, clients)
  else if hdr.type = cephMsgOsdOpreply then clients.getReply hdr memory
  else (none, true, clients)

def mdsAllocMsg (hdr : MsgHeader) (memory : Bool) (clients : Clients) : Option MsgId × Bool × Clients :=
  let (msg, clients) := clients.cephMsgNew hdr.frontLen.toNat [] memory
  (msg, false, clients)

def allocMsg (peer : Peer) (hdr : MsgHeader) (memory : Bool) (clients : Clients) : Option MsgId × Bool × Clients :=
  match peer with
  | .mon => clients.monAllocMsg hdr memory
  | .osd => clients.osdAllocMsg hdr memory
  | .mds => clients.mdsAllocMsg hdr memory

def disconnect (con : ConId) (clients : Clients) : Clients :=
  { clients with cons := Function.update clients.cons con { clients.cons con with opened := false } }

/-- `con_fault`, or the closing of a connection, which may be in the middle of `alloc_msg`. -/
def conFault (con : ConId) (clients : Clients) : Except IncomingFault Clients :=
  match (clients.cons con).phase with
  | .reading _ msg => do
    haltIf ((clients.msgs msg).con ≠ some con) .notOurs
    return ((clients.setMsg msg { clients.msgs msg with con := none }).setPhase con .idle).disconnect con
  | _ => .ok (clients.disconnect con)

def withinLimits (hdr : MsgHeader) : Bool :=
  hdr.frontLen.toNat ≤ cephMsgMaxFrontLen ∧ hdr.middleLen.toNat ≤ cephMsgMaxMiddleLen ∧
    hdr.dataLen.toNat ≤ cephMsgMaxDataLen

/-- `read_partial_message` with a header that is next in sequence, up to where `ceph_con_in_msg_alloc` has called
`alloc_msg`. -/
def readHeader (con : ConId) (hdr : MsgHeader) (memory : Bool) (clients : Clients) : Clients :=
  if (clients.cons con).opened ∧ (clients.cons con).phase = .idle then
    if withinLimits hdr then
      let (msg, skip, clients) := clients.allocMsg (clients.cons con).peer hdr memory
      clients.setPhase con (.allocating hdr msg skip)
    else clients.disconnect con
  else clients

/-- `ceph_con_in_msg_alloc` behind `alloc_msg`, and `read_partial_message` from there up to where the front is read. -/
def inMsgAlloc (con : ConId) (memory : Bool) (clients : Clients) : Clients :=
  match (clients.cons con).phase with
  | .allocating hdr msg skip =>
    let clients := clients.setPhase con .idle
    if ¬ (clients.cons con).opened then clients
    else match msg with
      | none => if skip then clients else clients.disconnect con
      | some id =>
        match Msg.allocMiddle hdr memory { clients.msgs id with con := some con } with
        | none => (clients.setMsg id { clients.msgs id with con := some con }).disconnect con
        | some msg =>
          if hdr.dataLen.toNat > msg.dataLength then clients.setMsg id msg
          else (clients.setMsg id (msg.prepare hdr)).setPhase con (.reading hdr id)
  | _ => clients

def recv (con : ConId) (got : Nat) (clients : Clients) : Except IncomingFault Clients :=
  match (clients.cons con).phase with
  | .reading hdr msg => do
    let after ← (clients.msgs msg).recv hdr got
    return clients.setMsg msg after
  | _ => .ok clients

def processMessage (con : ConId) (clients : Clients) : Except IncomingFault Clients :=
  match (clients.cons con).phase with
  | .reading hdr msg =>
    if (clients.msgs msg).complete hdr then do
      haltIf ((clients.msgs msg).con ≠ some con) .notOurs
      return (clients.setMsg msg { clients.msgs msg with con := none }).setPhase con .idle
    else .ok clients
  | _ => .ok clients

end Clients

inductive Call where
  | opened (con : ConId)
  | fault (con : ConId)
  | header (con : ConId) (hdr : MsgHeader) (memory : Bool)
  | alloc (con : ConId) (memory : Bool)
  | recv (con : ConId) (got : Nat)
  | process (con : ConId)
  | revokeIncoming (msg : MsgId)
  | addGeneric (tid : UInt64) (frontLen : Nat) (memory : Bool)
  | removeGeneric (tid : UInt64)
  | addRequest (tid : UInt64) (frontLen : Nat) (data : List Nat) (pages : Option Nat) (memory : Bool)
  | removeRequest (tid : UInt64)

namespace Clients

def init (peers : ConId → Peer) : Clients where
  msgs := fun id => Msg.new (if id = 0 then 20 else 4096) []
  allocated := 2
  cons := fun con =>
    { peer := peers con
      opened := false
      phase := .idle }
  genericRequests := []
  requests := []
  subscribeAck := 0
  authReply := 1

def open_ (con : ConId) (clients : Clients) : Clients :=
  if (clients.cons con).phase = .idle then
    { clients with cons := Function.update clients.cons con { clients.cons con with opened := true } }
  else clients

def addGeneric (tid : UInt64) (frontLen : Nat) (memory : Bool) (clients : Clients) : Clients :=
  match clients.cephMsgNew frontLen [] memory with
  | (none, clients) => clients
  | (some reply, clients) => { clients with genericRequests := { tid, reply } :: clients.genericRequests }

def addRequest (tid : UInt64) (frontLen : Nat) (data : List Nat) (pages : Option Nat) (memory : Bool)
    (clients : Clients) : Clients :=
  match clients.cephMsgNew frontLen data memory with
  | (none, clients) => clients
  | (some reply, clients) => { clients with requests := { tid, reply, pages } :: clients.requests }

end Clients

def Call.run : Call → Clients → Except IncomingFault Clients
  | .opened con, clients => .ok (clients.open_ con)
  | .fault con, clients => clients.conFault con
  | .header con hdr memory, clients => .ok (clients.readHeader con hdr memory)
  | .alloc con memory, clients => .ok (clients.inMsgAlloc con memory)
  | .recv con got, clients => clients.recv con got
  | .process con, clients => clients.processMessage con
  | .revokeIncoming msg, clients => .ok (clients.revokeIncoming msg)
  | .addGeneric tid frontLen memory, clients => .ok (clients.addGeneric tid frontLen memory)
  | .removeGeneric tid, clients =>
    .ok { clients with genericRequests := clients.genericRequests.filter (·.tid ≠ tid) }
  | .addRequest tid frontLen data pages memory, clients => .ok (clients.addRequest tid frontLen data pages memory)
  | .removeRequest tid, clients => .ok { clients with requests := clients.requests.filter (·.tid ≠ tid) }

end KmodCeph.Incoming
