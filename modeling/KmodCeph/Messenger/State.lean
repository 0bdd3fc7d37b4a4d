import KmodCeph.Messenger.Cursor

namespace KmodCeph.Messenger

open Lib List

structure Msg where
  hdr : MsgHeader
  footer : MsgFooter
  front : List UInt8
  middle : Option (List UInt8)
  data : List DataItem
  dataLength : Nat
  cursor : Cursor
  con : Bool
  needsOutSeq : Bool
  moreToFollow : Bool

/-- `struct ceph_msg`, incoming. `front` and `middle` hold what was read so
far. -/
structure InMsg where
  id : Nat
  hdr : MsgHeader
  footer : List UInt8
  front : List UInt8
  middle : Option (List UInt8)
  data : List DataItem
  dataLength : Nat
  cursor : Cursor

inductive Ref where
  | tagMsg
  | tagAck
  | tagKeepalive
  | outTempAck
  | banner
  | myEncAddr
  | outConnect
  | authorizer (bytes : List UInt8)
  | hdr (msg : Nat)
  | front (msg : Nat)
  | middle (msg : Nat)
  | footer (msg : Nat)
deriving DecidableEq

/-- `struct kvec`, with the base as an offset into what it points to. -/
structure Kvec where
  base : Ref
  offset : Nat
  len : Nat

structure Queues where
  outQueue : List Nat
  outSent : List Nat
  outSeq : UInt64

structure Output where
  outMsg : Option Nat
  outMsgDone : Bool
  outKvec : List Kvec
  outKvecCur : Nat
  outKvecLeft : Nat
  outSkip : Int
  outKvecBytes : Int
  outKvecIsMsg : Bool
  outMore : Bool
  outTempAck : UInt64

structure Input where
  inSeq : UInt64
  inSeqAcked : UInt64
  inHdr : List UInt8
  inMsg : Option InMsg
  inFrontCrc : UInt32
  inMiddleCrc : UInt32
  inDataCrc : UInt32
  inTag : UInt8
  inBasePos : Int
  inTempAck : List UInt8

structure Hello where
  peerAddr : List UInt8
  peerAddrForMe : List UInt8
  actualPeerAddr : List UInt8
  connectSeq : UInt32
  peerGlobalSeq : UInt32
  authRetry : Nat
  authReplyBuf : List UInt8
  inBanner : List UInt8
  outConnect : MsgConnect
  inReply : List UInt8

/-- An open socket: what the peer sends on it and has not been read, and the
number of bytes read. -/
structure Sock where
  incoming : List UInt8
  received : Nat

/-- `struct ceph_connection`. `refs` counts the references to it that are
taken on behalf of messages. -/
structure Con where
  sock : Option Sock
  state : ConState
  lossytx : Bool
  keepalivePending : Bool
  writePending : Bool
  sockClosed : Bool
  backoff : Bool
  peerName : EntityName
  refs : Int
  queues : Queues
  output : Output
  input : Input
  hello : Hello

/-- What connections share. The model has one, with the outgoing messages by number and its sockets; an incoming
message is kept in the connection that reads it. -/
structure Msgr where
  instName : EntityName
  instAddr : List UInt8
  myEncAddr : List UInt8
  nocrc : Bool
  globalSeq : UInt32
  supportedFeatures : UInt64
  requiredFeatures : UInt64

/-- What `alloc_msg` answers, and for a message whether a middle can be
allocated. -/
inductive Alloc where
  | skip
  | nomem
  | msg (msg : InMsg) (middleAlloc : Bool)

/-- What `get_authorizer` answers, if the connection has that operation. An
error is one below the negated number. -/
inductive Authorizer where
  | absent
  | failed (errno : Nat)
  | made (protocol : UInt32) (bytes reply : List UInt8)

inductive Call where
  | send (msg : Nat)
  | revoke (msg : Nat)
  | revokeIncoming (msg : Nat)
  | keepalive
  | close
  | reopen (type : UInt8) (num : UInt64) (addr : List UInt8)
  | sockClosed
  | write (msg : Nat) (contents : Msg)

/-- What the worker meets while it runs: the sockets' answers to reads and
writes (a length at most, or an error), the result of connecting with what
the peer then sends, the answers of the connection's operations, and the calls
that get in whenever the mutex is dropped. -/
structure Env where
  recvs : List Int
  sends : List Int
  connects : List (Int × List UInt8)
  allocs : List Alloc
  authorizers : List Authorizer
  queues : List Int
  calls : List (List Call)

/-- What became of an incoming message. A message is revoked with `length` bytes
of its frame after the tag, of which `body` bytes of front, middle and data have
been read. -/
inductive Consumed where
  | dispatched
  | skipped
  | revoked (length body : Nat)
deriving DecidableEq

inductive Entry where
  | consumed (how : Consumed) (seq before after : UInt64)
  | tag (received : Nat)
  | sent (msg : Nat)
  | dropped (msg : Nat) (queued : Bool)
  | numbered (msg : Nat) (seq : UInt64)
  | transmitted (msg : Nat) (seq : UInt64) (sound : Bool)
  | acknowledged (ack : UInt64) (settled : Bool)
  | acked (msg : Nat) (seq ack : UInt64)
  | revoked (msg : Nat)
  | interrupted (msg : Nat)
  | reset
  | opened (clean : Bool) (addr : List UInt8)
  | greeted (cur : Nat) (addr : List UInt8)
  | asked (connect : List UInt8)
  | replied
  | leaked
deriving DecidableEq

/-- The messenger with one connection. `wire` holds the bytes written on each
socket so far, `sockNo` is the number of the latest socket. -/
structure World where
  msgr : Msgr
  con : Con
  msgs : Nat → Msg
  env : Env
  wire : Nat → List UInt8
  sockNo : Nat
  log : List Entry

def MsgHeader.zero : MsgHeader :=
  { seq := 0, tid := 0, type := 0, priority := 0, version := 0, frontLen := 0, middleLen := 0, dataLen := 0
    dataOff := 0, src := ⟨0, 0⟩, reserved := 0, crc := 0 }

def cephMsgNew (type : UInt16) (front : List UInt8) : Msg :=
  { hdr := { MsgHeader.zero with type, priority := 127, frontLen := UInt32.ofNat front.length }
    footer := ⟨0, 0, 0, 0⟩
    front
    middle := none
    data := []
    dataLength := 0
    cursor := Cursor.blank
    con := false
    needsOutSeq := false
    moreToFollow := false }

def cephConInit : Con :=
  { sock := none
    state := .closed
    lossytx := false
    keepalivePending := false
    writePending := false
    sockClosed := false
    backoff := false
    peerName := ⟨0, 0⟩
    refs := 0
    queues := { outQueue := [], outSent := [], outSeq := 0 }
    output :=
      { outMsg := none, outMsgDone := false, outKvec := replicate 8 ⟨.tagMsg, 0, 0⟩, outKvecCur := 0
        outKvecLeft := 0, outSkip := 0, outKvecBytes := 0, outKvecIsMsg := false, outMore := false
        outTempAck := 0 }
    input :=
      { inSeq := 0, inSeqAcked := 0, inHdr := replicate 53 0, inMsg := none, inFrontCrc := 0
        inMiddleCrc := 0, inDataCrc := 0, inTag := 0, inBasePos := 0, inTempAck := replicate 8 0 }
    hello :=
      { peerAddr := replicate 136 0, peerAddrForMe := replicate 136 0
        actualPeerAddr := replicate 136 0, connectSeq := 0, peerGlobalSeq := 0, authRetry := 0
        authReplyBuf := [], inBanner := replicate 9 0, outConnect := ⟨0, 0, 0, 0, 0, 0, 0, 0⟩
        inReply := replicate 26 0 } }

def Env.silent : Env :=
  { recvs := [], sends := [], connects := [], allocs := [], authorizers := [], queues := [], calls := [] }

def World.init (msgr : Msgr) (msgs : Nat → Msg) : World :=
  { msgr, con := cephConInit, msgs, env := Env.silent, wire := fun _ => [], sockNo := 0, log := [] }

def World.withOutput (world : World) (output : Output) : World :=
  { world with con := { world.con with output } }

def World.withInput (world : World) (input : Input) : World :=
  { world with con := { world.con with input } }

def World.withHello (world : World) (hello : Hello) : World :=
  { world with con := { world.con with hello } }

def World.withMsg (world : World) (id : Nat) (msg : Msg) : World :=
  { world with msgs := Function.update world.msgs id msg }

def World.note (world : World) (entry : Entry) : World :=
  { world with log := entry :: world.log }

def World.bytesAt (world : World) : Ref → List UInt8
  | .tagMsg => [cephMsgrTagMsg]
  | .tagAck => [cephMsgrTagAck]
  | .tagKeepalive => [cephMsgrTagKeepalive]
  | .outTempAck => leBytes 8 world.con.output.outTempAck.toNat
  | .banner => cephBanner
  | .myEncAddr => world.msgr.myEncAddr
  | .outConnect => world.con.hello.outConnect.encode
  | .authorizer bytes => bytes
  | .hdr msg => (world.msgs msg).hdr.encode
  | .front msg => (world.msgs msg).front
  | .middle msg => (world.msgs msg).middle.getD []
  | .footer msg => (world.msgs msg).footer.encode

def World.kvecBytes (world : World) (kvec : Kvec) : List UInt8 :=
  ((world.bytesAt kvec.base).drop kvec.offset).take kvec.len

def sockError (code : Int) : Int :=
  if code = -eagain then 0 else code

/-- `ceph_tcp_sendmsg` and `ceph_tcp_sendpage`: as many of the bytes as the
socket takes. Nothing is taken when no answer is left. -/
def World.send (world : World) (bytes : List UInt8) : Except Halt (Int × World) :=
  match world.con.sock with
  | none => .error .nullSocket
  | some _ =>
    let answer := world.env.sends.headD 0
    let world := { world with env := { world.env with sends := world.env.sends.tail } }
    if answer < 0 then .ok (sockError answer, world)
    else
      let taken := bytes.take answer.toNat
      .ok (taken.length, { world with
        wire := Function.update world.wire world.sockNo (world.wire world.sockNo ++ taken) })

/-- `ceph_tcp_recvmsg`: at most `len` bytes, and the code it returns. -/
def World.recv (world : World) (len : Nat) : Except Halt ((Int × List UInt8) × World) :=
  match world.con.sock with
  | none => .error .nullSocket
  | some sock =>
    let answer := world.env.recvs.headD 0
    let world := { world with env := { world.env with recvs := world.env.recvs.tail } }
    if answer < 0 then .ok ((sockError answer, []), world)
    else
      let bytes := sock.incoming.take (min answer.toNat len)
      let sock : Sock :=
        { incoming := sock.incoming.drop bytes.length, received := sock.received + bytes.length }
      .ok ((bytes.length, bytes), { world with con := { world.con with sock := some sock } })

def World.received (world : World) : Nat :=
  match world.con.sock with
  | none => 0
  | some sock => sock.received

abbrev Step (α : Type) := World → Except Halt (α × World)

abbrev Prog := EStateM Halt World

def atomically {α : Type} (step : Step α) : Prog α := fun world =>
  match step world with
  | .ok (result, world) => .ok result world
  | .error halt => .error halt world

/-- A part that is left out unless it has something to do. -/
def onlyIf (condition : Prop) [Decidable condition] (program : Prog Int) : Prog Int :=
  if condition then program else pure 1

end KmodCeph.Messenger
