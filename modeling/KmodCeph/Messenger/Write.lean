import KmodCeph.Messenger.State

namespace KmodCeph.Messenger

open Lib

def conOutKvecReset (output : Output) : Output :=
  { output with outKvecLeft := 0, outKvecBytes := 0, outKvecCur := 0 }

def conOutKvecAdd (output : Output) (size : Nat) (data : Ref) : Except Halt Output :=
  if output.outKvecLeft ≥ 8 then .error .bug
  else .ok { output with
    outKvec := output.outKvec.set output.outKvecLeft { base := data, offset := 0, len := size }
    outKvecLeft := output.outKvecLeft + 1
    outKvecBytes := output.outKvecBytes + size }

def Output.pending (output : Output) : List Kvec :=
  (output.outKvec.drop output.outKvecCur).take output.outKvecLeft

def World.pendingBytes (world : World) : List UInt8 :=
  world.con.output.pending.flatMap world.kvecBytes

def prepareWriteMessageFooter (world : World) (id : Nat) : Except Halt World :=
  let msg := world.msgs id
  let output := world.con.output
  if output.outKvecLeft ≥ 8 then .error .outOfBounds
  else .ok ((world.withMsg id
    { msg with footer := { msg.footer with flags := msg.footer.flags ||| cephMsgFooterComplete } }).withOutput
    { output with
      outKvecIsMsg := true
      outKvec := output.outKvec.set output.outKvecLeft
        { base := .footer id, offset := 0, len := sizeofMsgFooter }
      outKvecBytes := output.outKvecBytes + sizeofMsgFooter
      outKvecLeft := output.outKvecLeft + 1
      outMore := msg.moreToFollow
      outMsgDone := true })

/-- "Sneak an ack in there first?" -/
def sneakAck (con : Con) : Except Halt Con :=
  if con.input.inSeq > con.input.inSeqAcked then do
    let output ← conOutKvecAdd con.output 1 .tagAck
    let output ← conOutKvecAdd { output with outTempAck := con.input.inSeq } 8 .outTempAck
    .ok { con with output, input := { con.input with inSeqAcked := con.input.inSeq } }
  else .ok con

def assignOutSeq (world : World) (id : Nat) : World :=
  let msg := world.msgs id
  if msg.needsOutSeq then
    let queues := world.con.queues
    let seq := queues.outSeq + 1
    ({ world with con := { world.con with queues := { queues with outSeq := seq } } }.withMsg id
      { msg with hdr := { msg.hdr with seq }, needsOutSeq := false }).note (.numbered id seq)
  else world

def fillCrc (msg : Msg) : Msg :=
  { msg with
    hdr := { msg.hdr with crc := crc32c 0 msg.hdr.encodeChecked }
    footer :=
      { flags := 0, frontCrc := crc32c 0 msg.front
        middleCrc := match msg.middle with | some middle => crc32c 0 middle | none => 0
        dataCrc := 0 } }

@[simp] theorem fillCrc_data (msg : Msg) : (fillCrc msg).data = msg.data := rfl

@[simp] theorem fillCrc_dataLength (msg : Msg) : (fillCrc msg).dataLength = msg.dataLength := rfl

@[simp] theorem fillCrc_cursor (msg : Msg) : (fillCrc msg).cursor = msg.cursor := rfl

@[simp] theorem fillCrc_moreToFollow (msg : Msg) : (fillCrc msg).moreToFollow = msg.moreToFollow := rfl

/-- The first message of `out_queue` becomes the last one of `out_sent`. -/
def takeMessage (world : World) : Except Halt (Nat × World) :=
  match world.con.queues.outQueue with
  | [] => .error .bug
  | id :: rest =>
    if (world.msgs id).con then
      let queues := { world.con.queues with outQueue := rest
                                            outSent := world.con.queues.outSent ++ [id] }
      let output := { world.con.output with outMsg := some id }
      .ok (id, assignOutSeq { world with con := { world.con with queues, output } } id)
    else .error .bug

def addMessageKvecs (output : Output) (id : Nat) (msg : Msg) : Except Halt Output := do
  let output ← conOutKvecAdd output 1 .tagMsg
  let output ← conOutKvecAdd output sizeofMsgHeader (.hdr id)
  let output ← conOutKvecAdd output msg.front.length (.front id)
  match msg.middle with
  | none => .ok output
  | some middle => conOutKvecAdd output middle.length (.middle id)

def prepareWritePayload (world : World) (id : Nat) : Except Halt World :=
  let msg := world.msgs id
  if msg.dataLength ≠ 0 then do
    let cursor ← cephMsgDataCursorInit msg.data msg.dataLength (msg.dataLength % 2 ^ 32) msg.cursor
    .ok ((world.withMsg id { msg with cursor }).withOutput
      { world.con.output with outMore := true })
  else prepareWriteMessageFooter world id

def Msg.sound (msg : Msg) : Bool :=
  msg.hdr.middleLen.toNat = (msg.middle.getD []).length ∧ msg.hdr.dataLen.toNat = msg.dataLength ∧
    ∀ item ∈ msg.data, item.length ≠ 0

def prepareWriteMessage : Step PUnit := fun world => do
  let output := { conOutKvecReset world.con.output with outKvecIsMsg := true, outMsgDone := false }
  let con ← sneakAck { world.con with output }
  let (id, world) ← takeMessage { world with con }
  let msg := world.msgs id
  if msg.hdr.frontLen.toNat ≠ msg.front.length then .error .bug
  else do
    let output ← addMessageKvecs world.con.output id msg
    let world ← prepareWritePayload ((world.withOutput output).withMsg id (fillCrc msg)) id
    .ok (⟨⟩, { world with con := { world.con with writePending := true } }.note
      (.transmitted id msg.hdr.seq msg.sound))

def Msg.completed (msg : Msg) : Msg :=
  { msg with footer := { msg.footer with flags := msg.footer.flags ||| cephMsgFooterComplete } }

def Output.withFooter (output : Output) (id : Nat) (moreToFollow : Bool) : Output :=
  { output with
    outKvecIsMsg := true
    outKvec := output.outKvec.set output.outKvecLeft
      { base := .footer id, offset := 0, len := sizeofMsgFooter }
    outKvecBytes := output.outKvecBytes + sizeofMsgFooter
    outKvecLeft := output.outKvecLeft + 1
    outMore := moreToFollow
    outMsgDone := true }

theorem prepareWriteMessageFooter_ok {world after : World} {id : Nat}
    (ran : prepareWriteMessageFooter world id = .ok after) :
    world.con.output.outKvecLeft < 8 ∧
    after = (world.withMsg id (world.msgs id).completed).withOutput
      (world.con.output.withFooter id (world.msgs id).moreToFollow) := by
  unfold prepareWriteMessageFooter at ran
  simp only at ran
  split at ran
  · cases ran
  · cases ran
    exact ⟨by omega, rfl⟩

theorem sneakAck_ok {con after : Con} (ran : sneakAck con = .ok after) :
    (after = con ∧ con.input.inSeq ≤ con.input.inSeqAcked) ∨
    ∃ tagged output, conOutKvecAdd con.output 1 .tagAck = .ok tagged ∧
      conOutKvecAdd { tagged with outTempAck := con.input.inSeq } 8 .outTempAck = .ok output ∧
      after = { con with output, input := { con.input with inSeqAcked := con.input.inSeq } } := by
  unfold sneakAck at ran
  split at ran
  · obtain ⟨tagged, first, ran⟩ := ok_of_bind ran
    obtain ⟨output, second, ran⟩ := ok_of_bind ran
    cases ran
    exact .inr ⟨tagged, output, first, second, rfl⟩
  · cases ran
    exact .inl ⟨rfl, UInt64.not_lt.mp ‹_›⟩

def World.numbered (world : World) (id : Nat) : Msg :=
  if (world.msgs id).needsOutSeq then
    { world.msgs id with
      hdr := { (world.msgs id).hdr with seq := world.con.queues.outSeq + 1 }, needsOutSeq := false }
  else world.msgs id

def World.transmitEntries (world : World) (id : Nat) : List Entry :=
  .transmitted id (world.numbered id).hdr.seq (world.msgs id).sound ::
    if (world.msgs id).needsOutSeq then [.numbered id (world.con.queues.outSeq + 1)] else []

def Con.shifted (con : Con) (id : Nat) (rest : List Nat) (needsOutSeq : Bool) : Con :=
  { con with
    queues :=
      { outQueue := rest
        outSent := con.queues.outSent ++ [id]
        outSeq := if needsOutSeq then con.queues.outSeq + 1 else con.queues.outSeq }
    output := { con.output with outMsg := some id } }

theorem takeMessage_ok {before after : World} {id : Nat} (ran : takeMessage before = .ok (id, after)) :
    ∃ rest, before.con.queues.outQueue = id :: rest ∧ (before.msgs id).con ∧
      after = { before with
        con := before.con.shifted id rest (before.msgs id).needsOutSeq
        msgs := Function.update before.msgs id (before.numbered id)
        log := (before.transmitEntries id).tail ++ before.log } := by
  unfold takeMessage at ran
  split at ran
  · cases ran
  · rename_i first rest queued
    split at ran
    · rename_i owned
      cases ran
      refine ⟨rest, queued, owned, ?_⟩
      cases needs : (before.msgs id).needsOutSeq with
      | true =>
        simp [assignOutSeq, Con.shifted, World.numbered, World.transmitEntries, needs, World.withMsg,
          World.note]
      | false =>
        simp [assignOutSeq, Con.shifted, World.numbered, World.transmitEntries, needs,
          Function.update_eq_self]
    · cases ran

theorem sound_numbered (world : World) (id : Nat) : (world.numbered id).sound = (world.msgs id).sound := by
  unfold World.numbered
  split <;> rfl

def Payload (id : Nat) (msg final : Msg) (kvecs output : Output) : Prop :=
  (msg.dataLength = 0 ∧ final = (fillCrc msg).completed ∧ kvecs.outKvecLeft < 8 ∧
    output = kvecs.withFooter id msg.moreToFollow) ∨
  (msg.dataLength ≠ 0 ∧ ∃ cursor, cephMsgDataCursorInit msg.data msg.dataLength (msg.dataLength % 2 ^ 32)
    msg.cursor = .ok cursor ∧ final = { fillCrc msg with cursor } ∧ output = { kvecs with outMore := true })

theorem prepareWritePayload_ok {before after : World} {id : Nat} (msg : Msg)
    (filled : before.msgs id = fillCrc msg) (ran : prepareWritePayload before id = .ok after) :
    ∃ final output, Payload id msg final before.con.output output ∧
      after = (before.withMsg id final).withOutput output := by
  unfold prepareWritePayload at ran
  simp only [filled, fillCrc_data, fillCrc_dataLength, fillCrc_cursor] at ran
  split at ran
  · rename_i nonempty
    obtain ⟨cursor, started, ran⟩ := ok_of_bind ran
    simp only [Except.ok.injEq] at ran
    exact ⟨{ fillCrc msg with cursor }, { before.con.output with outMore := true },
      .inr ⟨nonempty, cursor, started, rfl, rfl⟩, ran.symm⟩
  · rename_i empty
    obtain ⟨room, rfl⟩ := prepareWriteMessageFooter_ok ran
    rw [filled, fillCrc_moreToFollow]
    exact ⟨(fillCrc msg).completed, before.con.output.withFooter id msg.moreToFollow,
      .inl ⟨not_not.mp empty, rfl, room, rfl⟩, rfl⟩

theorem prepareWriteMessage_ok {before after : World} (ran : prepareWriteMessage before = .ok (⟨⟩, after)) :
    ∃ id rest con kvecs final output,
      before.con.queues.outQueue = id :: rest ∧ (before.msgs id).con ∧
      (before.msgs id).hdr.frontLen.toNat = (before.msgs id).front.length ∧
      sneakAck { before.con with output :=
        { conOutKvecReset before.con.output with outKvecIsMsg := true, outMsgDone := false } } = .ok con ∧
      addMessageKvecs { con.output with outMsg := some id } id (before.numbered id) = .ok kvecs ∧
      Payload id (before.numbered id) final kvecs output ∧
      after = { before with
        con := { con.shifted id rest (before.msgs id).needsOutSeq with output, writePending := true }
        msgs := Function.update before.msgs id final
        log := before.transmitEntries id ++ before.log } := by
  obtain ⟨con, sneaked, ran⟩ := ok_of_bind ran
  obtain ⟨⟨id, taken⟩, took, ran⟩ := ok_of_bind ran
  obtain ⟨rest, queued, owned, rfl⟩ := takeMessage_ok took
  have queues : con.queues = before.con.queues := by
    obtain ⟨rfl, _⟩ | ⟨_, _, _, _, rfl⟩ := sneakAck_ok sneaked <;> rfl
  have number : ({ before with con } : World).numbered id = before.numbered id := by
    simp only [World.numbered, queues]
  have entries : ({ before with con } : World).transmitEntries id = before.transmitEntries id := by
    simp only [World.transmitEntries, number, queues]
  simp only [number, entries, Function.update_self] at ran
  split at ran
  · cases ran
  · rename_i front
    obtain ⟨kvecs, added, ran⟩ := ok_of_bind ran
    obtain ⟨world, paid, ran⟩ := ok_of_bind ran
    obtain ⟨final, output, payload, rfl⟩ :=
      prepareWritePayload_ok (before.numbered id) (by simp [World.withMsg]) paid
    cases ran
    refine ⟨id, rest, con, kvecs, final, output, queues ▸ queued, owned, ?_, sneaked, added, payload, ?_⟩
    · have same : (before.numbered id).hdr.frontLen.toNat = (before.numbered id).front.length :=
        not_not.mp front
      unfold World.numbered at same
      split at same <;> exact same
    · simp [World.note, World.withMsg, World.withOutput, Con.shifted, World.transmitEntries,
        sound_numbered]

def prepareWriteAck : Step PUnit := fun world => do
  let seq := world.con.input.inSeq
  let output ← conOutKvecAdd (conOutKvecReset world.con.output) 1 .tagAck
  let output ← conOutKvecAdd { output with outTempAck := seq } 8 .outTempAck
  .ok (⟨⟩, { world with con := { world.con with
    output := { output with outMore := true }
    input := { world.con.input with inSeqAcked := seq }
    writePending := true } })

def prepareWriteSeq (con : Con) : Except Halt Con := do
  let seq := con.input.inSeq
  let output := { conOutKvecReset con.output with outTempAck := seq }
  let output ← conOutKvecAdd output 8 .outTempAck
  .ok { con with output, input := { con.input with inSeqAcked := seq }, writePending := true }

def prepareWriteKeepalive : Step PUnit := fun world => do
  let output ← conOutKvecAdd (conOutKvecReset world.con.output) 1 .tagKeepalive
  .ok (⟨⟩, { world with con := { world.con with
    output, keepalivePending := false, writePending := true } })

def prepareWriteBanner (con : Con) : Except Halt Con := do
  let output ← conOutKvecAdd con.output cephBanner.length .banner
  let output ← conOutKvecAdd output sizeofEntityAddr .myEncAddr
  .ok { con with output := { output with outMore := false }, writePending := true }

theorem prepareWriteAck_ok {before after : World} (ran : prepareWriteAck before = .ok (⟨⟩, after)) :
    ∃ tagged output, conOutKvecAdd (conOutKvecReset before.con.output) 1 .tagAck = .ok tagged ∧
      conOutKvecAdd { tagged with outTempAck := before.con.input.inSeq } 8 .outTempAck = .ok output ∧
      after = { before with con := { before.con with
        output := { output with outMore := true }
        input := { before.con.input with inSeqAcked := before.con.input.inSeq }
        writePending := true } } := by
  obtain ⟨tagged, first, ran⟩ := ok_of_bind ran
  obtain ⟨output, second, ran⟩ := ok_of_bind ran
  cases ran
  exact ⟨tagged, output, first, second, rfl⟩

theorem prepareWriteKeepalive_ok {before after : World}
    (ran : prepareWriteKeepalive before = .ok (⟨⟩, after)) :
    ∃ output, conOutKvecAdd (conOutKvecReset before.con.output) 1 .tagKeepalive = .ok output ∧
      after = { before with con := { before.con with
        output, keepalivePending := false, writePending := true } } := by
  obtain ⟨output, added, ran⟩ := ok_of_bind ran
  cases ran
  exact ⟨output, added, rfl⟩

/-- "account for full iov entries consumed": `out_kvec_left`, `out_kvec_cur`
and what is left of `ret`. -/
def consumeKvecs (kvecs : List Kvec) : Nat → Nat → Nat → Except Halt (Nat × Nat × Nat)
  | 0, cur, ret =>
    match kvecs[cur]? with
    | none => .error .outOfBounds
    | some kvec => if ret ≥ kvec.len then .error .bug else .ok (0, cur, ret)
  | left + 1, cur, ret =>
    match kvecs[cur]? with
    | none => .error .outOfBounds
    | some kvec =>
      if ret ≥ kvec.len then consumeKvecs kvecs left (cur + 1) (ret - kvec.len)
      else .ok (left + 1, cur, ret)

def finishKvecs (output : Output) : Output :=
  { output with outKvecLeft := 0, outKvecIsMsg := false }

/-- What `write_partial_kvec` does once `ret` bytes have been taken. -/
def advanceKvecs (output : Output) (ret : Nat) : Except Halt (Next PUnit Int × Output) :=
  let output := { output with outKvecBytes := output.outKvecBytes - ret }
  if output.outKvecBytes = 0 then .ok (.done 1, finishKvecs output)
  else do
    let (left, cur, ret) ← consumeKvecs output.outKvec output.outKvecLeft output.outKvecCur ret
    .ok (.again ⟨⟩, { output with
      outKvecLeft := left
      outKvecCur := cur
      outKvec := output.outKvec.modify cur
        fun kvec => { kvec with offset := kvec.offset + ret, len := kvec.len - ret } })

def writeKvecOnce : Step (Next PUnit Int) := fun world =>
  if world.con.output.outKvecBytes > 0 then do
    let (ret, world) ← world.send world.pendingBytes
    if ret ≤ 0 then .ok (.done ret, world)
    else do
      let (next, output) ← advanceKvecs world.con.output ret.toNat
      .ok (next, world.withOutput output)
  else .ok (.done 1, world.withOutput (finishKvecs world.con.output))

def writePartialKvec (bound : Nat) : Prog Int :=
  iterate .exhausted (fun _ => atomically writeKvecOnce) bound PUnit.unit

/-- `footer.data_crc` after a piece of data has been taken for sending. -/
def dataCrcAfter (world : World) (msg : Msg) (piece : Piece) : UInt32 :=
  if ¬ world.msgr.nocrc ∧ msg.cursor.needCrc then crc32c msg.footer.dataCrc piece.bytes
  else msg.footer.dataCrc

/-- One pass of the loop of `write_partial_message_data`, and what follows it:
"prepare and queue up footer, too". -/
def writeDataOnce (id : Nat) : Step (Next PUnit Int) := fun world => do
  let msg := world.msgs id
  if msg.cursor.resid ≠ 0 then do
    let piece ← cephMsgDataNext msg.data msg.cursor
    let (ret, world) ← world.send piece.bytes
    if ret ≤ 0 then .ok (.done ret, world)
    else do
      let (_, cursor) ← cephMsgDataAdvance msg.data msg.cursor ret.toNat
      .ok (.again ⟨⟩, world.withMsg id
        { msg with cursor, footer := { msg.footer with dataCrc := dataCrcAfter world msg piece } })
  else do
    let flags := if world.msgr.nocrc then msg.footer.flags ||| cephMsgFooterNocrc else msg.footer.flags
    let world := (world.withMsg id { msg with footer := { msg.footer with flags } }).withOutput
      (conOutKvecReset world.con.output)
    let world ← prepareWriteMessageFooter world id
    .ok (.done 1, world)

def writePartialMessageData (bound id : Nat) : Prog Int := do
  let world ← get
  if (world.msgs id).data.isEmpty then pure (-einval)
  else iterate .exhausted (fun _ => atomically (writeDataOnce id)) bound PUnit.unit

def writeSkipOnce : Step (Next PUnit Int) := fun world =>
  if world.con.output.outSkip > 0 then do
    let size := min world.con.output.outSkip.toNat pageSize
    let (ret, world) ← world.send (List.replicate size 0)
    if ret ≤ 0 then .ok (.done ret, world)
    else .ok (.again ⟨⟩, world.withOutput
      { world.con.output with outSkip := world.con.output.outSkip - ret })
  else .ok (.done 1, world)

def writePartialSkip (bound : Nat) : Prog Int :=
  iterate .exhausted (fun _ => atomically writeSkipOnce) bound PUnit.unit

def Output.clean (output : Output) : Bool :=
  (output.outMsg = none ∨ output.outMsgDone) ∧ output.outSkip = 0

def cephTcpConnect (world : World) : Except Halt (Int × World) :=
  if world.con.sock.isSome then .error .bug
  else
    let (answer, incoming) := world.env.connects.headD (0, [])
    let world := { world with env := { world.env with connects := world.env.connects.tail } }
    if answer < 0 then .ok (answer, world)
    else .ok (0, { world with
      con := { world.con with sock := some { incoming, received := 0 } }
      sockNo := world.sockNo + 1
      wire := Function.update world.wire (world.sockNo + 1) [] }.note
        (.opened world.con.output.clean world.msgr.myEncAddr))

/-- "open the socket first?" -/
def openSocket : Step Int := fun world =>
  if world.con.sock.isSome ∨ world.con.input.inMsg.isSome then .error .bug
  else do
    let con ← prepareWriteBanner
      { world.con with state := .connecting, output := conOutKvecReset world.con.output }
    cephTcpConnect { world with con := { con with
      input := { con.input with inBasePos := 0, inTag := cephMsgrTagReady } } }

def Con.opening (con : Con) : Con :=
  { con with
    state := .connecting
    writePending := true
    output := { con.output with
      outKvec := (con.output.outKvec.set 0 ⟨.banner, 0, cephBanner.length⟩).set 1
        ⟨.myEncAddr, 0, sizeofEntityAddr⟩
      outKvecCur := 0, outKvecLeft := 2, outKvecBytes := cephBanner.length + sizeofEntityAddr
      outMore := false }
    input := { con.input with inBasePos := 0, inTag := cephMsgrTagReady } }

theorem openSocket_ok {before after : World} {ret : Int} (ran : openSocket before = .ok (ret, after)) :
    before.con.sock = none ∧ before.con.input.inMsg = none ∧
      ((∃ env, ret < 0 ∧ after = { before with env, con := before.con.opening }) ∨
      ∃ env incoming, ret = 0 ∧ after = { before with
        env
        con := { before.con.opening with sock := some ⟨incoming, 0⟩ }
        sockNo := before.sockNo + 1
        wire := Function.update before.wire (before.sockNo + 1) []
        log := .opened before.con.output.clean before.msgr.myEncAddr :: before.log }) := by
  unfold openSocket at ran
  split at ran
  · cases ran
  · rename_i unopened
    simp only [not_or, Bool.not_eq_true, Option.isSome_eq_false_iff, Option.isNone_iff_eq_none] at unopened
    refine ⟨unopened.1, unopened.2, ?_⟩
    obtain ⟨con, prepared, ran⟩ := ok_of_bind ran
    cases prepared
    unfold cephTcpConnect at ran
    split at ran
    · cases ran
    · simp only at ran
      split at ran
      · cases ran
        exact .inl ⟨_, ‹_›, rfl⟩
      · cases ran
        exact .inr ⟨_, _, rfl, rfl⟩

def finishMessage : Step PUnit := fun world =>
  .ok (⟨⟩, world.withOutput { world.con.output with outMsg := none })

def clearWritePending : Step PUnit := fun world =>
  .ok (⟨⟩, { world with con := { world.con with writePending := false } })

inductive WriteLabel where
  | more
  | moreKvec
  | msgPages
  | doNext

def tryWriteFrom (bound : Nat) : WriteLabel → Prog (Next WriteLabel Int)
  | .more => do
    let world ← get
    if world.con.state = .preopen then do
      let ret ← atomically openSocket
      pure (if ret < 0 then .done ret else .again .moreKvec)
    else pure (.again .moreKvec)
  | .moreKvec => do
    let world ← get
    let skipped ← onlyIf (world.con.output.outSkip ≠ 0) (writePartialSkip bound)
    if skipped ≤ 0 then pure (.done skipped)
    else do
      let world ← get
      let sent ← onlyIf (world.con.output.outKvecLeft ≠ 0) (writePartialKvec bound)
      pure (if sent ≤ 0 then .done sent else .again .msgPages)
  | .msgPages => do
    let world ← get
    match world.con.output.outMsg with
    | none => pure (.again .doNext)
    | some id =>
      if world.con.output.outMsgDone then do
        atomically finishMessage
        pure (.again .doNext)
      else do
        let ret ← writePartialMessageData bound id
        pure (if ret = 1 then .again .moreKvec else .done ret)
  | .doNext => do
    let world ← get
    if world.con.state = .opened ∧ world.con.queues.outQueue ≠ [] then do
      atomically prepareWriteMessage
      pure (.again .more)
    else if world.con.state = .opened ∧ world.con.input.inSeq > world.con.input.inSeqAcked then do
      atomically prepareWriteAck
      pure (.again .more)
    else if world.con.state = .opened ∧ world.con.keepalivePending then do
      atomically prepareWriteKeepalive
      pure (.again .more)
    else do
      atomically clearWritePending
      pure (.done 0)

def tryWrite (bound : Nat) : Prog Int :=
  iterate .exhausted (tryWriteFrom bound) bound .more

end KmodCeph.Messenger
