import KmodCeph.Messenger.Calls

namespace KmodCeph.Messenger

open Lib

inductive Target where
  | inBanner
  | actualPeerAddr
  | peerAddrForMe
  | inReply
  | authReplyBuf
  | inHdr
  | footer
  | inTempAck

def overwrite (buffer : List UInt8) (offset : Nat) (bytes : List UInt8) : List UInt8 :=
  buffer.take offset ++ bytes ++ buffer.drop (offset + bytes.length)

def World.store (world : World) (offset : Nat) (bytes : List UInt8) : Target → Except Halt World
  | .inBanner => .ok (world.withHello { world.con.hello with
      inBanner := overwrite world.con.hello.inBanner offset bytes })
  | .actualPeerAddr => .ok (world.withHello { world.con.hello with
      actualPeerAddr := overwrite world.con.hello.actualPeerAddr offset bytes })
  | .peerAddrForMe => .ok (world.withHello { world.con.hello with
      peerAddrForMe := overwrite world.con.hello.peerAddrForMe offset bytes })
  | .inReply => .ok (world.withHello { world.con.hello with
      inReply := overwrite world.con.hello.inReply offset bytes })
  | .authReplyBuf =>
    if offset + bytes.length > world.con.hello.authReplyBuf.length then .error .outOfBounds
    else .ok (world.withHello { world.con.hello with
      authReplyBuf := overwrite world.con.hello.authReplyBuf offset bytes })
  | .inHdr => .ok (world.withInput { world.con.input with
      inHdr := overwrite world.con.input.inHdr offset bytes })
  | .footer =>
    match world.con.input.inMsg with
    | none => .error .bug
    | some msg => .ok (world.withInput { world.con.input with
        inMsg := some { msg with footer := overwrite msg.footer offset bytes } })
  | .inTempAck => .ok (world.withInput { world.con.input with
      inTempAck := overwrite world.con.input.inTempAck offset bytes })

def readPartialOnce (target : Target) (endPos size : Int) : Step (Next PUnit Int) := fun world =>
  if world.con.input.inBasePos < endPos then do
    let left := endPos - world.con.input.inBasePos
    let ((ret, bytes), world) ← world.recv left.toNat
    if ret ≤ 0 then .ok (.done ret, world)
    else do
      let world ← world.store (size - left).toNat bytes target
      .ok (.again ⟨⟩, world.withInput { world.con.input with
        inBasePos := world.con.input.inBasePos + ret })
  else .ok (.done 1, world)

def readPartial (bound : Nat) (target : Target) (endPos size : Int) : Prog Int :=
  iterate .exhausted (fun _ => atomically (readPartialOnce target endPos size)) bound PUnit.unit

def readPartialBanner (bound : Nat) : Prog Int := do
  let size : Int := cephBanner.length
  let ret ← readPartial bound .inBanner size size
  if ret ≤ 0 then pure ret
  else do
    let ret ← readPartial bound .actualPeerAddr (size + sizeofEntityAddr) sizeofEntityAddr
    if ret ≤ 0 then pure ret
    else readPartial bound .peerAddrForMe (size + sizeofEntityAddr + sizeofEntityAddr) sizeofEntityAddr

def readPartialConnect (bound : Nat) : Prog Int := do
  let ret ← readPartial bound .inReply sizeofConnectReply sizeofConnectReply
  if ret ≤ 0 then pure ret
  else do
    let world ← get
    let size := (MsgConnectReply.decode world.con.hello.inReply).authorizerLen.toInt32.toInt
    readPartial bound .authReplyBuf (sizeofConnectReply + size) size

def addrFamily (addr : List UInt8) : Nat := leField addr 8 2

def addrIsBlank (addr : List UInt8) : Bool :=
  if addrFamily addr = 2 then ((addr.drop 12).take 4).all (· = 0)
  else if addrFamily addr = 10 then ((addr.drop 16).take 16).all (· = 0)
  else false

def addrPort (addr : List UInt8) : List UInt8 :=
  if addrFamily addr = 2 ∨ addrFamily addr = 10 then (addr.drop 10).take 2 else [0, 0]

def addrSetPort (addr port : List UInt8) : List UInt8 :=
  if addrFamily addr = 2 ∨ addrFamily addr = 10 then overwrite addr 10 port else addr

/-- `ceph_encode_addr` and `ceph_decode_addr`: the family changes its byte
order. -/
def swapFamily (addr : List UInt8) : List UInt8 :=
  addr.take 8 ++ ((addr.drop 8).take 2).reverse ++ addr.drop 10

def cephMessengerInit (instName : EntityName) (addr nonce : List UInt8)
    (supportedFeatures requiredFeatures : UInt64) (nocrc : Bool) : Msgr :=
  let instAddr := leBytes 4 0 ++ nonce ++ addr.drop 8
  { instName, instAddr, myEncAddr := swapFamily instAddr, nocrc, globalSeq := 0
    supportedFeatures, requiredFeatures }

/-- "did we learn our address?" -/
def learnAddr (msgr : Msgr) (peerAddrForMe : List UInt8) : Msgr :=
  if addrIsBlank msgr.instAddr then
    let addr := addrSetPort (msgr.instAddr.take 8 ++ peerAddrForMe.drop 8) (addrPort msgr.instAddr)
    { msgr with instAddr := addr, myEncAddr := swapFamily addr }
  else msgr

def processBanner : Step Int := fun world =>
  let hello := world.con.hello
  if hello.inBanner.take cephBanner.length ≠ cephBanner then .ok (-1, world)
  else
    let actual := swapFamily hello.actualPeerAddr
    let forMe := swapFamily hello.peerAddrForMe
    let world := world.withHello { hello with actualPeerAddr := actual, peerAddrForMe := forMe }
    if hello.peerAddr ≠ actual ∧ ¬ (addrIsBlank actual ∧
        (actual.drop 4).take 4 = (hello.peerAddr.drop 4).take 4) then .ok (-1, world)
    else
      let msgr := learnAddr world.msgr forMe
      .ok (0, { world with msgr, con := { world.con with state := .negotiating } }.note
        (.greeted world.con.output.outKvecCur msgr.myEncAddr))

theorem processBanner_ok {before after : World} {ret : Int} (ran : processBanner before = .ok (ret, after)) :
    (ret < 0 ∧ ∃ hello, hello.outConnect = before.con.hello.outConnect ∧
      (hello.peerAddrForMe = before.con.hello.peerAddrForMe ∨
        hello.peerAddrForMe = swapFamily before.con.hello.peerAddrForMe) ∧
      after = before.withHello hello) ∨
    (ret = 0 ∧ after = { before with
      msgr := learnAddr before.msgr (swapFamily before.con.hello.peerAddrForMe)
      con := { before.con with
        state := .negotiating
        hello := { before.con.hello with
          actualPeerAddr := swapFamily before.con.hello.actualPeerAddr
          peerAddrForMe := swapFamily before.con.hello.peerAddrForMe } }
      log := .greeted before.con.output.outKvecCur
        (learnAddr before.msgr (swapFamily before.con.hello.peerAddrForMe)).myEncAddr :: before.log }) := by
  unfold processBanner at ran
  simp only at ran
  split at ran
  · cases ran
    exact .inl ⟨by decide, before.con.hello, rfl, .inl rfl, rfl⟩
  · split at ran
    · cases ran
      refine .inl ⟨by decide, _, ?_, .inr ?_, rfl⟩ <;> rfl
    · cases ran
      exact .inr ⟨rfl, rfl⟩

def getGlobalSeq (msgr : Msgr) (gt : UInt32) : Msgr :=
  { msgr with globalSeq := (max msgr.globalSeq gt) + 1 }

def cephEntityTypeMon : UInt8 := 1
def cephEntityTypeMds : UInt8 := 2
def cephEntityTypeOsd : UInt8 := 4
def cephEntityTypeClient : UInt8 := 8

def connectProtocol (type : UInt8) : Except Halt UInt32 :=
  if type = cephEntityTypeMon then .ok 15
  else if type = cephEntityTypeOsd then .ok 24
  else if type = cephEntityTypeMds then .ok 32
  else .error .bug

/-- `prepare_write_connect` up to the authorizer. -/
def fillConnect : Step PUnit := fun world => do
  let msgr := getGlobalSeq world.msgr 0
  let proto ← connectProtocol world.con.peerName.type
  let hello := world.con.hello
  .ok (⟨⟩, { world with msgr }.withHello { hello with
    outConnect := { hello.outConnect with
      features := msgr.supportedFeatures
      hostType := cephEntityTypeClient.toUInt32
      connectSeq := hello.connectSeq
      globalSeq := msgr.globalSeq
      protocolVersion := proto
      flags := 0 } })

def popAuthorizer : Step Authorizer := fun world =>
  .ok (world.env.authorizers.headD .absent,
    { world with env := { world.env with authorizers := world.env.authorizers.tail } })

def addAuthorizer (output : Output) (bytes : List UInt8) : Except Halt Output :=
  if bytes = [] then .ok output else conOutKvecAdd output bytes.length (.authorizer bytes)

/-- `prepare_write_connect` from the authorizer on. -/
def queueConnect (protocol : UInt32) (bytes : List UInt8) (reply : Option (List UInt8)) :
    Step Int := fun world => do
  let hello := world.con.hello
  let hello := { hello with
    authReplyBuf := reply.getD hello.authReplyBuf
    outConnect := { hello.outConnect with
      authorizerProtocol := protocol
      authorizerLen := UInt32.ofNat bytes.length } }
  let output ← conOutKvecAdd world.con.output hello.outConnect.encode.length .outConnect
  let output ← addAuthorizer output bytes
  .ok (0, { world with con := { world.con with
    hello, output := { output with outMore := false }, writePending := true } }.note
      (.asked (hello.outConnect.encode ++ bytes)))

theorem queueConnect_ok {before after : World} {ret : Int} {protocol : UInt32} {bytes : List UInt8}
    {reply : Option (List UInt8)} (ran : queueConnect protocol bytes reply before = .ok (ret, after)) :
    ret = 0 ∧ ∃ hello asked output, hello.peerAddrForMe = before.con.hello.peerAddrForMe ∧
      conOutKvecAdd before.con.output hello.outConnect.encode.length .outConnect = .ok asked ∧
      addAuthorizer asked bytes = .ok output ∧
      after = { before with
        con := { before.con with hello, output := { output with outMore := false }, writePending := true }
        log := .asked (hello.outConnect.encode ++ bytes) :: before.log } := by
  obtain ⟨asked, first, ran⟩ := ok_of_bind ran
  obtain ⟨output, second, ran⟩ := ok_of_bind ran
  cases ran
  refine ⟨rfl, _, asked, output, ?_, first, second, rfl⟩
  rfl

def prepareWriteConnect : Prog Int := do
  atomically fillConnect
  match ← atomically popAuthorizer with
  | .absent => atomically (queueConnect 0 [] none)
  | .failed errno => do
    dropMutex
    pure (Int.negSucc errno)
  | .made protocol bytes reply => do
    dropMutex
    let world ← get
    if world.con.state ≠ .negotiating then pure (-eagain)
    else atomically (queueConnect protocol bytes (some reply))

/-- `prepare_read_connect` and its like. -/
def prepareRead : Step PUnit := fun world =>
  .ok (⟨⟩, world.withInput { world.con.input with inBasePos := 0 })

def cephSanitizeFeatures (features : UInt64) : UInt64 :=
  if features &&& ((1 : UInt64) <<< 63) ≠ 0 then 0x1ffffffff else features

def acceptConnect (reply : MsgConnectReply) : Step Int := fun world =>
  if world.msgr.requiredFeatures &&& ~~~ (cephSanitizeFeatures reply.features) ≠ 0 then do
    let world ← resetConnection world
    .ok (-1, world)
  else do
    let hello := world.con.hello
    let con := { world.con with
      state := .opened
      lossytx := world.con.lossytx ∨ reply.flags &&& 1 ≠ 0
      hello := { hello with authRetry := 0, peerGlobalSeq := reply.globalSeq
                            connectSeq := hello.connectSeq + 1 } }
    if reply.tag = cephMsgrTagSeq then do
      let con ← prepareWriteSeq con
      .ok (0, { world with con := { con with
        input := { con.input with inBasePos := 0, inTag := cephMsgrTagSeq } } })
    else .ok (0, { world with con := { con with
      input := { con.input with inBasePos := 0, inTag := cephMsgrTagReady } } })

def resetForConnect : Step PUnit := fun world => do
  let world ← resetConnection world
  .ok (⟨⟩, world.withOutput (conOutKvecReset world.con.output))

def resetKvecs : Step PUnit := fun world =>
  .ok (⟨⟩, world.withOutput (conOutKvecReset world.con.output))

def retryConnect : Prog Int := do
  let ret ← prepareWriteConnect
  if ret < 0 then pure ret
  else do
    atomically prepareRead
    pure 0

def failReset : Step Int := fun world => do
  let world ← resetConnection world
  .ok (-1, world)

def countAuthRetry : Step Nat := fun world =>
  .ok (world.con.hello.authRetry + 1, world.withHello { world.con.hello with
    authRetry := world.con.hello.authRetry + 1 })

def adoptConnectSeq (seq : UInt32) : Step PUnit := fun world =>
  .ok (⟨⟩, world.withHello { world.con.hello with connectSeq := seq })

def adoptGlobalSeq (seq : UInt32) : Step PUnit := fun world =>
  .ok (⟨⟩, { world with msgr := getGlobalSeq world.msgr seq })

def noteReply : Step PUnit := fun world =>
  .ok (⟨⟩, world.note .replied)

def processConnect : Prog Int := do
  atomically noteReply
  let world ← get
  let reply := MsgConnectReply.decode world.con.hello.inReply
  if reply.tag = cephMsgrTagFeatures then atomically failReset
  else if reply.tag = cephMsgrTagBadprotover then atomically failReset
  else if reply.tag = cephMsgrTagBadauthorizer then do
    let retries ← atomically countAuthRetry
    if retries = 2 then pure (-1)
    else do
      atomically resetKvecs
      retryConnect
  else if reply.tag = cephMsgrTagResetsession then do
    atomically resetForConnect
    let ret ← retryConnect
    if ret < 0 then pure ret
    else do
      dropMutex
      let world ← get
      pure (if world.con.state ≠ .negotiating then -eagain else 0)
  else if reply.tag = cephMsgrTagRetrySession then do
    atomically (adoptConnectSeq reply.connectSeq)
    atomically resetKvecs
    retryConnect
  else if reply.tag = cephMsgrTagRetryGlobal then do
    atomically (adoptGlobalSeq reply.globalSeq)
    atomically resetKvecs
    retryConnect
  else if reply.tag = cephMsgrTagSeq ∨ reply.tag = cephMsgrTagReady then
    atomically (acceptConnect reply)
  else pure (-1)

def dropAcked (ack : UInt64) : List Nat → World → Except Halt World
  | [], world => .ok { world with con := { world.con with
      queues := { world.con.queues with outSent := [] } } }
  | id :: rest, world =>
    let seq := (world.msgs id).hdr.seq
    if seq > ack then .ok { world with con := { world.con with
      queues := { world.con.queues with outSent := id :: rest } } }
    else do
      let world ← cephMsgRemove world id
      dropAcked ack rest (world.note (.acked id seq ack))

def ackedPrefix (msgs : Nat → Msg) (ack : UInt64) (ids : List Nat) : List Nat :=
  ids.takeWhile fun id => (msgs id).hdr.seq ≤ ack

def ackEntries (msgs : Nat → Msg) (ack : UInt64) (ids : List Nat) : List Entry :=
  (ids.map fun id => Entry.acked id (msgs id).hdr.seq ack).reverse

theorem dropAcked_ok {ack : UInt64} {ids : List Nat} {before after : World}
    (ran : dropAcked ack ids before = .ok after) :
    ∃ refs, after = { before.released (ackedPrefix before.msgs ack ids) refs with
      con := { before.con with
        refs
        queues := { before.con.queues with
          outSent := ids.dropWhile fun id => (before.msgs id).hdr.seq ≤ ack } }
      log := ackEntries before.msgs ack (ackedPrefix before.msgs ack ids) ++ before.log } := by
  induction ids generalizing before with
  | nil =>
    cases ran
    exact ⟨before.con.refs, by simp [World.released, ackedPrefix, ackEntries]⟩
  | cons id rest ih =>
    simp only [dropAcked] at ran
    split at ran
    · rename_i later
      have unacked : ¬ (before.msgs id).hdr.seq ≤ ack := UInt64.not_le.mpr later
      cases ran
      exact ⟨before.con.refs, by simp [World.released, ackedPrefix, ackEntries, unacked]⟩
    · rename_i early
      have acked : (before.msgs id).hdr.seq ≤ ack := UInt64.not_lt.mp early
      obtain ⟨middle, removed, ran⟩ := ok_of_bind ran
      unfold cephMsgRemove at removed
      split at removed
      · cases removed
        obtain ⟨refs, rfl⟩ := ih ran
        refine ⟨refs, ?_⟩
        have same (other : Nat) : (Function.update before.msgs id
            { before.msgs id with con := false } other).hdr.seq = (before.msgs other).hdr.seq := by
          by_cases equal : other = id
          · subst equal
            simp
          · simp [equal]
        simp only [World.released, World.note, World.withMsg, ackedPrefix, ackEntries, same,
          List.takeWhile_cons, List.dropWhile_cons, acked, decide_true, if_true, World.mk.injEq, true_and]
        refine ⟨?_, by simp⟩
        funext other
        by_cases equal : other = id
        · subst equal
          simp
        · simp [equal]
      · cases removed

def prepareReadTag (input : Input) : Input :=
  { input with inBasePos := 0, inTag := cephMsgrTagReady }

/-- An ack is for a number that was given out, and no message it acknowledges
waits in `out_queue`. -/
def ackSettles (world : World) (ack : UInt64) : Bool :=
  ack ≤ world.con.queues.outSeq ∧ ∀ id ∈ world.con.queues.outQueue,
    (world.msgs id).needsOutSeq ∨ ack < (world.msgs id).hdr.seq

def processAck : Step PUnit := fun world => do
  let ack := UInt64.ofNat (leField world.con.input.inTempAck 0 8)
  let settled := ackSettles world ack
  let world ← dropAcked ack world.con.queues.outSent world
  .ok (⟨⟩, (world.withInput (prepareReadTag world.con.input)).note (.acknowledged ack settled))

def Input.ack (input : Input) : UInt64 :=
  UInt64.ofNat (leField input.inTempAck 0 8)

theorem processAck_ok {before after : World} (ran : processAck before = .ok (⟨⟩, after)) :
    let ack := before.con.input.ack
    let acked := ackedPrefix before.msgs ack before.con.queues.outSent
    ∃ refs, after = { before.released acked refs with
      con := { before.con with
        refs
        input := prepareReadTag before.con.input
        queues := { before.con.queues with
          outSent := before.con.queues.outSent.dropWhile fun id => (before.msgs id).hdr.seq ≤ ack } }
      log := .acknowledged ack (ackSettles before ack) :: ackEntries before.msgs ack acked ++ before.log } := by
  obtain ⟨middle, dropped, ran⟩ := ok_of_bind ran
  obtain ⟨refs, rfl⟩ := dropAcked_ok dropped
  cases ran
  exact ⟨refs, rfl⟩

def readPartialAck (bound : Nat) : Prog Int :=
  readPartial bound .inTempAck 8 8

inductive Section where
  | front
  | middle

def Section.read (section_ : Section) (msg : InMsg) : List UInt8 :=
  match section_ with
  | .front => msg.front
  | .middle => msg.middle.getD []

def Section.extend (section_ : Section) (msg : InMsg) (bytes : List UInt8) : InMsg :=
  match section_ with
  | .front => { msg with front := msg.front ++ bytes }
  | .middle => { msg with middle := msg.middle.map (· ++ bytes) }

def Section.setCrc (section_ : Section) (input : Input) (crc : UInt32) : Input :=
  match section_ with
  | .front => { input with inFrontCrc := crc }
  | .middle => { input with inMiddleCrc := crc }

def readSectionOnce (section_ : Section) (secLen : Nat) : Step (Next PUnit Int) := fun world =>
  match world.con.input.inMsg with
  | none => .error .bug
  | some msg =>
    if (section_.read msg).length < secLen then do
      let ((ret, bytes), world) ← world.recv (secLen - (section_.read msg).length)
      if ret ≤ 0 then .ok (.done ret, world)
      else .ok (.again ⟨⟩, world.withInput { world.con.input with
        inMsg := some (section_.extend msg bytes) })
    else if (section_.read msg).length = secLen then
      .ok (.done 1, world.withInput (section_.setCrc world.con.input (crc32c 0 (section_.read msg))))
    else .ok (.done 1, world)

def readPartialMessageSection (bound : Nat) (section_ : Section) (secLen : Nat) : Prog Int :=
  iterate .exhausted (fun _ => atomically (readSectionOnce section_ secLen)) bound PUnit.unit

def readDataOnce : Step (Next PUnit Int) := fun world =>
  match world.con.input.inMsg with
  | none => .error .bug
  | some msg =>
    if msg.cursor.resid ≠ 0 then do
      let piece ← cephMsgDataNext msg.data msg.cursor
      let ((ret, bytes), world) ← world.recv piece.length
      if ret ≤ 0 then .ok (.done ret, world)
      else do
        let (_, cursor) ← cephMsgDataAdvance msg.data msg.cursor ret.toNat
        let crc := world.con.input.inDataCrc
        .ok (.again ⟨⟩, world.withInput { world.con.input with
          inMsg := some { msg with data := storePiece msg.data msg.cursor bytes, cursor }
          inDataCrc := if world.msgr.nocrc then crc else crc32c crc bytes })
    else .ok (.done 1, world)

def readPartialMsgData (bound : Nat) : Prog Int := do
  let world ← get
  match world.con.input.inMsg with
  | none => throw .bug
  | some msg =>
    if msg.data.isEmpty then pure (-eio)
    else iterate .exhausted (fun _ => atomically readDataOnce) bound PUnit.unit

def seqDelta (seq inSeq : UInt64) : Int :=
  (seq.toInt64 - inSeq.toInt64).toInt

inductive HeaderCheck where
  | bad (code : Int)
  | stale
  | next

def checkHeader (input : Input) : HeaderCheck :=
  let hdr := MsgHeader.decode input.inHdr
  if crc32c 0 (input.inHdr.take 49) ≠ hdr.crc then .bad (-ebadmsg)
  else if hdr.frontLen.toNat > cephMsgMaxFrontLen then .bad (-eio)
  else if hdr.middleLen.toNat > cephMsgMaxMiddleLen then .bad (-eio)
  else if hdr.dataLen.toNat > cephMsgMaxDataLen then .bad (-eio)
  else if seqDelta hdr.seq input.inSeq < 1 then .stale
  else if seqDelta hdr.seq input.inSeq > 1 then .bad (-ebadmsg)
  else .next

def discardRest (input : Input) : Input :=
  { input with inBasePos := - (MsgHeader.decode input.inHdr).bodyLen - sizeofMsgFooter
               inTag := cephMsgrTagReady }

def skipStale : Step PUnit := fun world =>
  .ok (⟨⟩, world.withInput (discardRest world.con.input))

def skipMessage (world : World) : World :=
  let input := world.con.input
  (world.withInput { discardRest input with inSeq := input.inSeq + 1 }).note
    (.consumed .skipped (MsgHeader.decode input.inHdr).seq input.inSeq (input.inSeq + 1))

def popAlloc : Step Alloc := fun world =>
  match world.con.input.inMsg with
  | some _ => .error .bug
  | none => .ok (world.env.allocs.headD .nomem,
      { world with env := { world.env with allocs := world.env.allocs.tail } })

def prepareInData (msg : InMsg) : Except Halt InMsg :=
  if msg.hdr.dataLen.toNat ≠ 0 then do
    let cursor ← cephMsgDataCursorInit msg.data msg.dataLength msg.hdr.dataLen.toNat msg.cursor
    .ok { msg with cursor }
  else .ok msg

/-- What follows `alloc_msg` once the mutex is held again. The result is 0 for
a message that is skipped and 1 for one that is read. -/
def installInMsg (answer : Alloc) : Step Int := fun world =>
  match answer with
  | .skip => .ok (0, skipMessage world)
  | .nomem => .ok (-enomem, world)
  | .msg msg middleAlloc =>
    let hdr := MsgHeader.decode world.con.input.inHdr
    let world := { world with con := { world.con with refs := world.con.refs + 1 } }
    if hdr.middleLen ≠ 0 ∧ msg.middle.isNone ∧ ¬ middleAlloc then .ok (-enomem, world.note .leaked)
    else if hdr.dataLen.toNat > msg.dataLength then .ok (0, skipMessage (world.note .leaked))
    else do
      let msg ← prepareInData { msg with
        hdr, front := []
        middle := if hdr.middleLen ≠ 0 ∨ msg.middle.isSome then some [] else none }
      .ok (1, world.withInput { world.con.input with inMsg := some msg })

/-- `ceph_con_in_msg_alloc` and what follows it. -/
def cephConInMsgAlloc : Prog Int := do
  let answer ← atomically popAlloc
  dropMutex
  let world ← get
  if world.con.state ≠ .opened then pure (-eagain)
  else atomically (installInMsg answer)

def InMsg.crcOk (msg : InMsg) (input : Input) (nocrc : Bool) : Bool :=
  let footer := MsgFooter.decode msg.footer
  input.inFrontCrc = footer.frontCrc ∧ input.inMiddleCrc = footer.middleCrc ∧
    (nocrc ∨ footer.flags &&& cephMsgFooterNocrc ≠ 0 ∨ input.inDataCrc = footer.dataCrc)

/-- `read_partial_message` from the middle on. -/
def readPartialTail (bound : Nat) (hdr : MsgHeader) (middle : Bool) : Prog Int := do
  let ret ← onlyIf middle (readPartialMessageSection bound .middle hdr.middleLen.toNat)
  if ret ≤ 0 then pure ret
  else do
    let ret ← onlyIf (hdr.dataLen ≠ 0) (readPartialMsgData bound)
    if ret ≤ 0 then pure ret
    else do
      let ret ← readPartial bound .footer (sizeofMsgHeader + sizeofMsgFooter) sizeofMsgFooter
      if ret ≤ 0 then pure ret
      else do
        let world ← get
        match world.con.input.inMsg with
        | none => throw .bug
        | some msg => pure (if msg.crcOk world.con.input world.msgr.nocrc then 1 else -ebadmsg)

/-- `read_partial_message` behind the header. -/
def readPartialBody (bound : Nat) : Prog Int := do
  let world ← get
  let hdr := MsgHeader.decode world.con.input.inHdr
  let ret ← readPartialMessageSection bound .front hdr.frontLen.toNat
  if ret ≤ 0 then pure ret
  else do
    let world ← get
    match world.con.input.inMsg with
    | none => throw .bug
    | some msg => readPartialTail bound hdr msg.middle.isSome

def readPartialMessage (bound : Nat) : Prog Int := do
  let ret ← readPartial bound .inHdr sizeofMsgHeader sizeofMsgHeader
  if ret ≤ 0 then pure ret
  else do
    let world ← get
    match checkHeader world.con.input with
    | .bad code => pure code
    | .stale => do
      atomically skipStale
      pure 0
    | .next => do
      let ret ← onlyIf world.con.input.inMsg.isNone cephConInMsgAlloc
      if ret ≤ 0 then pure ret
      else readPartialBody bound

def takeInMsg : Step PUnit := fun world =>
  match world.con.input.inMsg with
  | none => .error .bug
  | some msg =>
    let input := world.con.input
    .ok (⟨⟩, { world with con := { world.con with
      input := { input with inMsg := none, inSeq := input.inSeq + 1 }
      refs := world.con.refs - 1
      peerName := if world.con.peerName.type = 0 then msg.hdr.src else world.con.peerName } }.note
      (.consumed .dispatched msg.hdr.seq input.inSeq (input.inSeq + 1)))

def finishRead : Step PUnit := fun world =>
  .ok (⟨⟩, if world.con.state = .opened then world.withInput (prepareReadTag world.con.input)
    else world)

def processMessage : Prog PUnit := do
  atomically takeInMsg
  dropMutex

def skipOnce : Step Int := fun world => do
  let skip := min skipBufSize (- world.con.input.inBasePos).toNat
  let ((ret, _), world) ← world.recv skip
  if ret ≤ 0 then .ok (ret, world)
  else .ok (ret, world.withInput { world.con.input with inBasePos := world.con.input.inBasePos + ret })

def readTag : Step (Next PUnit Int) := fun world => do
  let position := world.received
  let ((ret, bytes), world) ← world.recv 1
  match bytes with
  | [] => .ok (.done ret, world)
  | tag :: _ =>
    let world := world.note (.tag position)
    let input := { world.con.input with inTag := tag }
    if tag = cephMsgrTagMsg then
      if input.inMsg.isSome then .error .bug
      else .ok (.again ⟨⟩, world.withInput { input with
        inBasePos := 0, inFrontCrc := 0, inMiddleCrc := 0, inDataCrc := 0 })
    else if tag = cephMsgrTagAck then .ok (.again ⟨⟩, world.withInput { input with inBasePos := 0 })
    else if tag = cephMsgrTagClose then
      .ok (.done ret, { world with con := { conCloseSocket { world.con with input } with
        state := .closed } })
    else .ok (.done (-1), world.withInput input)

def checkSock : Step PUnit := fun world =>
  if world.con.sock.isSome then .ok (⟨⟩, world) else .error .bug

def tryReadConnecting (bound : Nat) : Prog (Next Int Int) := do
  let ret ← readPartialBanner bound
  if ret ≤ 0 then pure (.done ret)
  else do
    let ret ← atomically processBanner
    if ret < 0 then pure (.done ret)
    else do
      let ret ← retryConnect
      pure (.done ret)

def tryReadNegotiating (bound : Nat) : Prog (Next Int Int) := do
  let ret ← readPartialConnect bound
  if ret ≤ 0 then pure (.done ret)
  else do
    let ret ← processConnect
    pure (if ret < 0 then .done ret else .again ret)

def tryReadTagged (bound : Nat) (ret : Int) : Prog (Next Int Int) := do
  let world ← get
  if world.con.input.inTag = cephMsgrTagMsg then do
    let ret ← readPartialMessage bound
    if ret ≤ 0 then pure (.done (if ret = -ebadmsg then -eio else ret))
    else do
      let world ← get
      if world.con.input.inTag = cephMsgrTagReady then pure (.again ret)
      else do
        processMessage
        atomically finishRead
        pure (.again ret)
  else if world.con.input.inTag = cephMsgrTagAck ∨ world.con.input.inTag = cephMsgrTagSeq then do
    let ret ← readPartialAck bound
    if ret ≤ 0 then pure (.done ret)
    else do
      atomically processAck
      pure (.again ret)
  else pure (.done ret)

def tryReadTag (bound : Nat) (ret : Int) : Prog (Next Int Int) := do
  let world ← get
  if world.con.input.inTag = cephMsgrTagReady then do
    match ← atomically readTag with
    | .done ret => pure (.done ret)
    | .again _ => tryReadTagged bound 1
  else tryReadTagged bound ret

def tryReadOpen (bound : Nat) (ret : Int) : Prog (Next Int Int) := do
  let world ← get
  if world.con.input.inBasePos < 0 then do
    let ret ← atomically skipOnce
    if ret ≤ 0 then pure (.done ret)
    else do
      let world ← get
      if world.con.input.inBasePos ≠ 0 then pure (.again ret)
      else tryReadTag bound ret
  else tryReadTag bound ret

def tryReadFrom (bound : Nat) (ret : Int) : Prog (Next Int Int) := do
  let world ← get
  match world.con.state with
  | .closed => pure (.done 0)
  | .preopen => pure (.done 0)
  | .standby => pure (.done 0)
  | .connecting => do
    atomically checkSock
    tryReadConnecting bound
  | .negotiating => do
    atomically checkSock
    tryReadNegotiating bound
  | .opened => do
    atomically checkSock
    tryReadOpen bound ret

def tryRead (bound : Nat) : Prog Int :=
  iterate .exhausted (tryReadFrom bound) bound (-1)

end KmodCeph.Messenger
