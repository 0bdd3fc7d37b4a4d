import KmodCeph.Messenger.Work

namespace KmodCeph.Messenger

open Lib

def World.took (world : World) (env : Env) (sock : Sock) (count : Nat) : World :=
  { world with
    env
    con := { world.con with
      sock := some ⟨sock.incoming.drop count, sock.received + count⟩ } }

def World.wrote (world : World) (env : Env) (taken : List UInt8) : World :=
  { world with
    env, wire := Function.update world.wire world.sockNo (world.wire world.sockNo ++ taken) }

inductive Stage where
  | unopened
  | opened
  | greeted
  | asked
  | replied
deriving DecidableEq

def stage : List Entry → Stage
  | [] => .unopened
  | .opened _ _ :: _ => .opened
  | .greeted .. :: _ => .greeted
  | .asked _ :: rest => if stage rest = .replied then .replied else .asked
  | .replied :: _ => .replied
  | _ :: rest => stage rest

def greetedAt : List Entry → Nat
  | [] => 0
  | .greeted cur _ :: _ => cur
  | _ :: rest => greetedAt rest

/-- A connect request may be prepared: the banner has just been accepted, or
the kvecs have just been reset. -/
def World.Asking (world : World) : Prop :=
  world.con.state = .negotiating ∧
    (stage world.log = .greeted ∧ world.con.output.outKvecCur = greetedAt world.log ∨
      stage world.log = .replied ∧ world.con.output.outKvecCur = 0 ∧ world.con.output.outKvecLeft = 0)

def World.Reads (world : World) (tag : UInt8) : Prop :=
  world.con.state = .opened ∧ world.con.input.inTag = tag

def World.ReadsNext (world : World) : Prop :=
  world.Reads cephMsgrTagMsg ∧ 53 ≤ world.con.input.inBasePos ∧
    checkHeader world.con.input = .next ∧ world.con.input.inMsg = none

def World.ReadsMsg (world : World) (msg : InMsg) : Prop :=
  world.Reads cephMsgrTagMsg ∧ world.con.input.inMsg = some msg

def World.Drained (world : World) : Prop :=
  world.con.state ≠ .preopen ∧ world.con.output.outSkip ≤ 0 ∧ world.con.output.outKvecLeft = 0

def World.Idle (world : World) : Prop :=
  world.Drained ∧ world.con.output.outMsg = none

def World.advance (world : World) (count : Int) : World :=
  world.withInput { world.con.input with inBasePos := world.con.input.inBasePos + count }

/-- A step between two moments at which the worker could be looked at. Its guards are what the control flow of the
worker establishes before it. -/
inductive Act (before : World) : World → Prop where
  | call {after : World} (request : Call) (ran : request.step before = .ok (⟨⟩, after)) :
      Act before after
  | quiet (env : Env) (writePending sockClosed backoff : Bool) :
      Act before { before with env, con := { before.con with writePending, sockClosed, backoff } }
  | fault {after : World} (ran : conFault before = .ok (⟨⟩, after)) : Act before after
  -- sending
  | openSocket {after : World} {ret : Int} (state : before.con.state = .preopen)
      (ran : openSocket before = .ok (ret, after)) : Act before after
  | writeSkip (env : Env) (taken : List UInt8) (open_ : before.con.sock.isSome)
      (state : before.con.state ≠ .preopen) (skips : 0 < before.con.output.outSkip) :
      Act before ((before.wrote env taken).withOutput
        { before.con.output with outSkip := before.con.output.outSkip - taken.length })
  | writeKvec {next : Next PUnit Int} {output : Output} (env : Env) (taken : List UInt8)
      (open_ : before.con.sock.isSome) (state : before.con.state ≠ .preopen)
      (unskipped : before.con.output.outSkip ≤ 0) (some_ : taken ≠ [])
      (pending : taken <+: before.pendingBytes)
      (ran : advanceKvecs before.con.output taken.length = .ok (next, output)) :
      Act before ((before.wrote env taken).withOutput output)
  | finishKvecs (state : before.con.state ≠ .preopen) (unskipped : before.con.output.outSkip ≤ 0)
      (empty : before.con.output.outKvecBytes ≤ 0) :
      Act before (before.withOutput (finishKvecs before.con.output))
  | writeData {id : Nat} {cursor : Cursor} {fresh : Bool} (env : Env) (piece : Piece) (taken : List UInt8)
      (drained : before.Drained) (sending : before.con.output.outMsg = some id)
      (open_ : before.con.sock.isSome) (unfinished : before.con.output.outMsgDone = false) (some_ : taken ≠ [])
      (ran : cephMsgDataAdvance (before.msgs id).data (before.msgs id).cursor taken.length =
        .ok (fresh, cursor)) :
      Act before ((before.wrote env taken).withMsg id { before.msgs id with
        cursor, footer := { (before.msgs id).footer with
          dataCrc := dataCrcAfter before (before.msgs id) piece } })
  | queueFooter {id : Nat} {after : World} (flags : UInt8) (drained : before.Drained)
      (sending : before.con.output.outMsg = some id) (unfinished : before.con.output.outMsgDone = false)
      (sent : (before.msgs id).cursor.resid = 0)
      (ran : prepareWriteMessageFooter ((before.withMsg id { before.msgs id with
        footer := { (before.msgs id).footer with flags } }).withOutput
          (conOutKvecReset before.con.output)) id = .ok after) : Act before after
  | finishMessage (drained : before.Drained) (done : before.con.output.outMsgDone) :
      Act before (before.withOutput { before.con.output with outMsg := none })
  | prepareMessage {after : World} (idle : before.Idle) (state : before.con.state = .opened)
      (ran : prepareWriteMessage before = .ok (⟨⟩, after)) : Act before after
  | prepareAck {after : World} (idle : before.Idle) (state : before.con.state = .opened)
      (ran : prepareWriteAck before = .ok (⟨⟩, after)) : Act before after
  | prepareKeepalive {after : World} (idle : before.Idle) (state : before.con.state = .opened)
      (ran : prepareWriteKeepalive before = .ok (⟨⟩, after)) : Act before after
  -- the handshake
  | readHello (env : Env) (sock : Sock) (count : Nat) (hello : Hello) (some_ : before.con.sock = some sock)
      (state : before.con.state = .connecting ∨ before.con.state = .negotiating)
      (connect : hello.outConnect = before.con.hello.outConnect)
      (addr : before.con.hello.peerAddrForMe.length = sizeofEntityAddr →
        hello.peerAddrForMe.length = sizeofEntityAddr) :
      Act before (((before.took env sock count).withHello hello).advance count)
  | greet {after : World} {ret : Int} (state : before.con.state = .connecting) (open_ : before.con.sock.isSome)
      (ran : processBanner before = .ok (ret, after)) : Act before after
  | negotiate (hello : Hello) (globalSeq : UInt32) (asking : before.Asking)
      (addr : hello.peerAddrForMe = before.con.hello.peerAddrForMe) :
      Act before ({ before with msgr := { before.msgr with globalSeq } }.withHello hello)
  | queueConnect {after : World} {ret : Int} {protocol : UInt32} {bytes : List UInt8}
      {reply : Option (List UInt8)} (asking : before.Asking)
      (ran : queueConnect protocol bytes reply before = .ok (ret, after)) : Act before after
  | adopt (hello : Hello) (globalSeq : UInt32) (state : before.con.state = .negotiating)
      (connect : hello.outConnect = before.con.hello.outConnect)
      (addr : hello.peerAddrForMe = before.con.hello.peerAddrForMe) :
      Act before ({ before with msgr := { before.msgr with globalSeq } }.withHello hello)
  | prepareRead (state : before.con.state = .negotiating) :
      Act before (before.withInput { before.con.input with inBasePos := 0 })
  | reply (state : before.con.state = .negotiating) : Act before (before.note .replied)
  | reset {after : World} (state : before.con.state = .negotiating) (replied : stage before.log = .replied)
      (ran : resetConnection before = .ok after) : Act before after
  | resetKvecs (state : before.con.state = .negotiating) (replied : stage before.log = .replied) :
      Act before (before.withOutput (conOutKvecReset before.con.output))
  | accept (hello : Hello) (output : Output) (lossytx writePending : Bool) (inSeqAcked : UInt64) (inTag : UInt8)
      (state : before.con.state = .negotiating) (replied : stage before.log = .replied)
      (connect : hello.outConnect = before.con.hello.outConnect)
      (addr : hello.peerAddrForMe = before.con.hello.peerAddrForMe)
      (seq : output = before.con.output ∨ conOutKvecAdd
        { conOutKvecReset before.con.output with outTempAck := inSeqAcked } 8 .outTempAck = .ok output)
      (tag : inTag = cephMsgrTagSeq ∨ inTag = cephMsgrTagReady) :
      Act before { before with con := { before.con with
        state := .opened, lossytx, writePending, hello, output
        input := { before.con.input with inSeqAcked, inTag, inBasePos := 0 } } }
  -- receiving
  | discard (env : Env) (sock : Sock) (count : Nat) (state : before.con.state = .opened)
      (some_ : before.con.sock = some sock) (fits : before.con.input.inBasePos + count ≤ 0) :
      Act before ((before.took env sock count).advance count)
  | tagMsg (env : Env) (sock : Sock) (reads : before.Reads cephMsgrTagReady)
      (position : 0 ≤ before.con.input.inBasePos) (some_ : before.con.sock = some sock)
      (none_ : before.con.input.inMsg = none) :
      Act before (((before.took env sock 1).note (.tag sock.received)).withInput
        { before.con.input with inTag := cephMsgrTagMsg, inBasePos := 0, inFrontCrc := 0
                                inMiddleCrc := 0, inDataCrc := 0 })
  | tagOther (env : Env) (sock : Sock) (inTag : UInt8) (inBasePos : Int)
      (reads : before.Reads cephMsgrTagReady) (position : 0 ≤ before.con.input.inBasePos)
      (some_ : before.con.sock = some sock) (other : inTag ≠ cephMsgrTagMsg) :
      Act before (((before.took env sock 1).note (.tag sock.received)).withInput
        { before.con.input with inTag, inBasePos })
  | tagClose (env : Env) (sock : Sock) (reads : before.Reads cephMsgrTagReady)
      (position : 0 ≤ before.con.input.inBasePos) (some_ : before.con.sock = some sock) :
      Act before { before with
        env
        con := { before.con with sock := none, sockClosed := false, state := .closed
                                 input := { before.con.input with inTag := cephMsgrTagClose } }
        log := .tag sock.received :: before.log }
  | readHdr (env : Env) (sock : Sock) (count : Nat) (inHdr : List UInt8)
      (reads : before.Reads cephMsgrTagMsg) (some_ : before.con.sock = some sock)
      (position : before.con.input.inBasePos < 53) (fits : before.con.input.inBasePos + count ≤ 53) :
      Act before (((before.took env sock count).withInput { before.con.input with inHdr }).advance count)
  | stale (reads : before.Reads cephMsgrTagMsg) (check : checkHeader before.con.input = .stale) :
      Act before (before.withInput (discardRest before.con.input))
  | leak (next : before.ReadsNext) :
      Act before ({ before with con := { before.con with refs := before.con.refs + 1 } }.note .leaked)
  | skipMessage (next : before.ReadsNext) : Act before (skipMessage before)
  | install (msg : InMsg) (next : before.ReadsNext)
      (hdr : msg.hdr = MsgHeader.decode before.con.input.inHdr) (front : msg.front = [])
      (middle : msg.middle.getD [] = [])
      (data : (MsgHeader.decode before.con.input.inHdr).dataLen.toNat ≠ 0 →
        ∃ cursor, cephMsgDataCursorInit msg.data msg.dataLength
          (MsgHeader.decode before.con.input.inHdr).dataLen.toNat cursor = .ok msg.cursor) :
      Act before { before with con := { before.con with
        refs := before.con.refs + 1, input := { before.con.input with inMsg := some msg } } }
  | readSection (env : Env) (sock : Sock) (bytes : List UInt8) (section_ : Section) (msg : InMsg)
      (reads : before.ReadsMsg msg) (some_ : before.con.sock = some sock)
      (middle : section_ = .middle → msg.middle.isSome) :
      Act before ((before.took env sock bytes.length).withInput
        { before.con.input with inMsg := some (section_.extend msg bytes) })
  | setCrc (section_ : Section) (crc : UInt32) :
      Act before (before.withInput (section_.setCrc before.con.input crc))
  | readData {fresh : Bool} {cursor : Cursor} (env : Env) (sock : Sock) (count : Nat) (msg : InMsg)
      (data : List DataItem) (inDataCrc : UInt32) (reads : before.ReadsMsg msg) (some_ : before.con.sock = some sock)
      (payload : (MsgHeader.decode before.con.input.inHdr).dataLen.toNat ≠ 0)
      (ran : cephMsgDataAdvance msg.data msg.cursor count = .ok (fresh, cursor)) :
      Act before ((before.took env sock count).withInput
        { before.con.input with inMsg := some { msg with data, cursor }, inDataCrc })
  | readFooter (env : Env) (sock : Sock) (count : Nat) (footer : List UInt8) (msg : InMsg)
      (reads : before.ReadsMsg msg) (some_ : before.con.sock = some sock)
      (fits : before.con.input.inBasePos + count ≤ 66) :
      Act before (((before.took env sock count).withInput
        { before.con.input with inMsg := some { msg with footer } }).advance count)
  | dispatch {after : World} (reads : before.Reads cephMsgrTagMsg)
      (ran : takeInMsg before = .ok (⟨⟩, after)) : Act before after
  | finishRead (reads : before.Reads cephMsgrTagMsg) (none_ : before.con.input.inMsg = none) :
      Act before (before.withInput (prepareReadTag before.con.input))
  | readAck (env : Env) (sock : Sock) (count : Nat) (inTempAck : List UInt8)
      (reads : before.Reads cephMsgrTagAck ∨ before.Reads cephMsgrTagSeq)
      (some_ : before.con.sock = some sock) :
      Act before (((before.took env sock count).withInput { before.con.input with inTempAck }).advance count)
  | processAck {after : World} (reads : before.Reads cephMsgrTagAck ∨ before.Reads cephMsgrTagSeq)
      (ran : processAck before = .ok (⟨⟩, after)) : Act before after

end KmodCeph.Messenger
