import KmodCeph.Messenger.Write

namespace KmodCeph.Messenger

open Lib

def conCloseSocket (con : Con) : Con :=
  { con with sock := none, sockClosed := false }

def cephMsgRemove (world : World) (id : Nat) : Except Halt World :=
  if (world.msgs id).con then
    .ok ({ world with con := { world.con with refs := world.con.refs - 1 } }.withMsg id
      { world.msgs id with con := false })
  else .error .bug

def cephMsgRemoveList : List Nat → World → Except Halt World
  | [], world => .ok world
  | id :: rest, world => do
    let world ← cephMsgRemove world id
    cephMsgRemoveList rest world

def World.released (world : World) (ids : List Nat) (refs : Int) : World :=
  { world with
    con := { world.con with refs }
    msgs := fun id => { world.msgs id with con := (world.msgs id).con && id ∉ ids } }

theorem cephMsgRemoveList_ok {ids : List Nat} {world after : World}
    (ran : cephMsgRemoveList ids world = .ok after) : ∃ refs, after = world.released ids refs := by
  induction ids generalizing world with
  | nil =>
    cases ran
    exact ⟨after.con.refs, by simp [World.released]⟩
  | cons first rest ih =>
    obtain ⟨middle, removed, ran⟩ := ok_of_bind ran
    obtain ⟨refs, rfl⟩ := ih ran
    unfold cephMsgRemove at removed
    split at removed
    · cases removed
      refine ⟨refs, ?_⟩
      simp only [World.released, World.withMsg]
      congr 1
      funext id
      by_cases same : id = first
      · subst same
        simp
      · simp [same]
    · cases removed

def dropInMsg (con : Con) : Con :=
  match con.input.inMsg with
  | none => con
  | some _ => { con with input := { con.input with inMsg := none }, refs := con.refs - 1 }

def resetConnection (world : World) : Except Halt World := do
  let world ← cephMsgRemoveList world.con.queues.outQueue world
  let world ← cephMsgRemoveList world.con.queues.outSent world
  let con := dropInMsg world.con
  .ok ({ world with con := { con with
    queues := { outQueue := [], outSent := [], outSeq := 0 }
    hello := { con.hello with connectSeq := 0 }
    output := { con.output with outMsg := none }
    input := { con.input with inSeq := 0, inSeqAcked := 0 } } }.note .reset)

def Con.reset (con : Con) (refs : Int) : Con :=
  { con with
    refs
    queues := { outQueue := [], outSent := [], outSeq := 0 }
    hello := { con.hello with connectSeq := 0 }
    output := { con.output with outMsg := none }
    input := { con.input with inMsg := none, inSeq := 0, inSeqAcked := 0 } }

theorem dropInMsg_eq (con : Con) :
    ∃ refs, dropInMsg con = { con with refs, input := { con.input with inMsg := none } } := by
  unfold dropInMsg
  split
  · rename_i none_
    exact ⟨con.refs, by rw [← none_]⟩
  · exact ⟨con.refs - 1, rfl⟩

theorem resetConnection_ok {world after : World} (ran : resetConnection world = .ok after) :
    ∃ refs, after = { world with
      con := world.con.reset refs
      msgs := fun id => { world.msgs id with con := (world.msgs id).con &&
        id ∉ world.con.queues.outSent ++ world.con.queues.outQueue }
      log := .reset :: world.log } := by
  obtain ⟨first, removed, ran⟩ := ok_of_bind ran
  obtain ⟨_, rfl⟩ := cephMsgRemoveList_ok removed
  obtain ⟨second, removed, ran⟩ := ok_of_bind ran
  obtain ⟨refs, rfl⟩ := cephMsgRemoveList_ok removed
  obtain ⟨final, dropped⟩ := dropInMsg_eq { world.con with refs }
  simp only [World.released, dropped, Except.ok.injEq] at ran
  refine ⟨final, ran.symm.trans ?_⟩
  simp only [World.note, Con.reset, World.mk.injEq, true_and, and_true]
  funext id
  by_cases queued : id ∈ world.con.queues.outQueue <;>
    by_cases sent : id ∈ world.con.queues.outSent <;> simp [queued, sent]

def cephConClose : Step PUnit := fun world => do
  let world ← resetConnection { world with con := { world.con with
    state := .closed, lossytx := false, keepalivePending := false, writePending := false
    backoff := false } }
  .ok (⟨⟩, { world with con := conCloseSocket { world.con with
    hello := { world.con.hello with peerGlobalSeq := 0 } } })

def cephConOpen (type : UInt8) (num : UInt64) (addr : List UInt8) : Step PUnit := fun world =>
  .ok (⟨⟩, { world with con := { world.con with
    state := .preopen
    peerName := ⟨type, num⟩
    hello := { world.con.hello with peerAddr := addr } } })

def clearStandby (con : Con) : Con :=
  if con.state = .standby then
    { con with state := .preopen
               hello := { con.hello with connectSeq := con.hello.connectSeq + 1 } }
  else con

def cephConSend (id : Nat) : Step PUnit := fun world =>
  let msg := { world.msgs id with
    hdr := { (world.msgs id).hdr with src := world.msgr.instName }, needsOutSeq := true }
  if msg.front.length ≠ msg.hdr.frontLen.toNat then .error .bug
  else if world.con.state = .closed then
    .ok (⟨⟩, (world.withMsg id msg).note (.dropped id msg.con))
  else if msg.con ∨ id ∈ world.con.queues.outSent ++ world.con.queues.outQueue then .error .bug
  else
    let queues := { world.con.queues with outQueue := world.con.queues.outQueue ++ [id] }
    let con := clearStandby { world.con with queues, refs := world.con.refs + 1 }
    .ok (⟨⟩, ({ world with con := { con with writePending := true } }.withMsg id
      { msg with con := true }).note (.sent id))

def revokeQueued (id : Nat) (world : World) : World :=
  if id ∈ world.con.queues.outSent ++ world.con.queues.outQueue then
    let msg := world.msgs id
    let queues := { world.con.queues with outSent := world.con.queues.outSent.erase id
                                          outQueue := world.con.queues.outQueue.erase id }
    ({ world with con := { world.con with queues, refs := world.con.refs - 1 } }.withMsg id
      { msg with con := false, hdr := { msg.hdr with seq := 0 } }).note (.revoked id)
  else world

def revokeSending (id : Nat) (world : World) : World :=
  if world.con.output.outMsg = some id then
    let msg := world.msgs id
    let output := { world.con.output with outMsg := none }
    let output :=
      if output.outKvecIsMsg then
        { output with outSkip := output.outKvecBytes, outKvecIsMsg := false }
      else output
    ((world.withOutput output).withMsg id { msg with hdr := { msg.hdr with seq := 0 } }).note
      (.interrupted id)
  else world

def cephMsgRevoke (id : Nat) : Step PUnit := fun world =>
  if (world.msgs id).con then .ok (⟨⟩, revokeSending id (revokeQueued id world))
  else .ok (⟨⟩, world)

def MsgHeader.bodyLen (hdr : MsgHeader) : Int :=
  hdr.frontLen.toNat + hdr.middleLen.toNat + hdr.dataLen.toNat

def InMsg.taken (msg : InMsg) (dataLen : Nat) : Nat :=
  msg.front.length + (msg.middle.getD []).length + (dataLen - msg.cursor.totalResid)

def MsgHeader.frameLen (hdr : MsgHeader) : Nat :=
  sizeofMsgHeader + hdr.frontLen.toNat + hdr.middleLen.toNat + hdr.dataLen.toNat + sizeofMsgFooter

def Input.revokes (input : Input) (msg : InMsg) : Consumed :=
  .revoked (MsgHeader.decode input.inHdr).frameLen (msg.taken (MsgHeader.decode input.inHdr).dataLen.toNat)

def cephMsgRevokeIncoming (id : Nat) : Step PUnit := fun world =>
  match world.con.input.inMsg with
  | none => .ok (⟨⟩, world)
  | some msg =>
    if msg.id = id then
      let input := world.con.input
      .ok (⟨⟩, (world.withInput { input with
        inBasePos := input.inBasePos - sizeofMsgHeader - (MsgHeader.decode input.inHdr).bodyLen -
          sizeofMsgFooter
        inMsg := none
        inTag := cephMsgrTagReady
        inSeq := input.inSeq + 1 }).note
        (.consumed (input.revokes msg) msg.hdr.seq input.inSeq (input.inSeq + 1)))
    else .ok (⟨⟩, world)

def cephConKeepalive : Step PUnit := fun world =>
  let con := clearStandby world.con
  .ok (⟨⟩, { world with con :=
    if con.keepalivePending then con else { con with keepalivePending := true, writePending := true } })

def sockStateClosed : Step PUnit := fun world =>
  .ok (⟨⟩, { world with con := { world.con with sockClosed := true } })

def fillMessage (id : Nat) (contents : Msg) : Step PUnit := fun world =>
  if (world.msgs id).con ∨ world.con.output.outMsg = some id then .ok (⟨⟩, world)
  else .ok (⟨⟩, world.withMsg id { contents with con := false })

def Call.step : Call → Step PUnit
  | .send id => cephConSend id
  | .revoke id => cephMsgRevoke id
  | .revokeIncoming id => cephMsgRevokeIncoming id
  | .keepalive => cephConKeepalive
  | .close => cephConClose
  | .reopen type num addr => cephConOpen type num addr
  | .sockClosed => sockStateClosed
  | .write id contents => fillMessage id contents

section

variable {before after : World}

theorem clearStandby_eq (con : Con) : ∃ state connectSeq,
    clearStandby con = { con with state, hello := { con.hello with connectSeq } } ∧
      (state = con.state ∨ con.state = .standby ∧ state = .preopen) := by
  unfold clearStandby
  split
  · exact ⟨_, _, rfl, .inr ⟨‹_›, rfl⟩⟩
  · exact ⟨con.state, con.hello.connectSeq, rfl, .inl rfl⟩

def World.stamped (world : World) (id : Nat) : Msg :=
  { world.msgs id with
    hdr := { (world.msgs id).hdr with src := world.msgr.instName }, needsOutSeq := true }

theorem cephConSend_ok {id : Nat} (ran : cephConSend id before = .ok (⟨⟩, after)) :
    (before.con.state = .closed ∧
      after = (before.withMsg id (before.stamped id)).note (.dropped id (before.msgs id).con)) ∨
    ((before.msgs id).con = false ∧ id ∉ before.con.queues.outSent ++ before.con.queues.outQueue ∧
      before.con.state ≠ .closed ∧ ∃ state connectSeq,
      (state = before.con.state ∨ before.con.state = .standby ∧ state = .preopen) ∧
      after = ({ before with con := { before.con with
        state
        hello := { before.con.hello with connectSeq }
        queues := { before.con.queues with outQueue := before.con.queues.outQueue ++ [id] }
        refs := before.con.refs + 1
        writePending := true } }.withMsg id { before.stamped id with con := true }).note (.sent id)) := by
  simp only [cephConSend] at ran
  split at ran
  · cases ran
  · split at ran
    · cases ran
      exact .inl ⟨‹_›, rfl⟩
    · rename_i notClosed
      split at ran
      · cases ran
      · rename_i fresh
        obtain ⟨state, connectSeq, cleared, step⟩ := clearStandby_eq
          { before.con with
            queues := { before.con.queues with outQueue := before.con.queues.outQueue ++ [id] }
            refs := before.con.refs + 1 }
        simp only [cleared] at ran
        cases ran
        simp only [not_or] at fresh
        exact .inr ⟨eq_false_of_ne_true fresh.1, fresh.2, notClosed, state, connectSeq, step, rfl⟩

theorem cephConKeepalive_ok (ran : cephConKeepalive before = .ok (⟨⟩, after)) :
    ∃ state connectSeq keepalivePending writePending,
      (state = before.con.state ∨ before.con.state = .standby ∧ state = .preopen) ∧
      after = { before with con := { before.con with
        state, keepalivePending, writePending, hello := { before.con.hello with connectSeq } } } := by
  obtain ⟨state, connectSeq, cleared, step⟩ := clearStandby_eq before.con
  simp only [cephConKeepalive, cleared] at ran
  split at ran <;> cases ran <;> exact ⟨state, connectSeq, _, _, step, rfl⟩

theorem cephConClose_ok (ran : cephConClose before = .ok (⟨⟩, after)) :
    ∃ refs, after = { before with
      con := { before.con.reset refs with
        state := .closed, lossytx := false, keepalivePending := false, writePending := false
        backoff := false, sock := none, sockClosed := false
        hello := { before.con.hello with connectSeq := 0, peerGlobalSeq := 0 } }
      msgs := fun id => { before.msgs id with con := (before.msgs id).con &&
        id ∉ before.con.queues.outSent ++ before.con.queues.outQueue }
      log := .reset :: before.log } := by
  obtain ⟨world, reset, ran⟩ := ok_of_bind ran
  obtain ⟨refs, rfl⟩ := resetConnection_ok reset
  cases ran
  exact ⟨refs, rfl⟩

theorem cephMsgRevokeIncoming_ok {id : Nat} (ran : cephMsgRevokeIncoming id before = .ok (⟨⟩, after)) :
    after = before ∨ ∃ msg, before.con.input.inMsg = some msg ∧ msg.id = id ∧
      after = (before.withInput { before.con.input with
        inBasePos := before.con.input.inBasePos - sizeofMsgHeader -
          (MsgHeader.decode before.con.input.inHdr).bodyLen - sizeofMsgFooter
        inMsg := none
        inTag := cephMsgrTagReady
        inSeq := before.con.input.inSeq + 1 }).note
        (.consumed (before.con.input.revokes msg) msg.hdr.seq before.con.input.inSeq
          (before.con.input.inSeq + 1)) := by
  unfold cephMsgRevokeIncoming at ran
  split at ran
  · cases ran
    exact .inl rfl
  · split at ran
    · cases ran
      exact .inr ⟨_, ‹_›, ‹_›, rfl⟩
    · cases ran
      exact .inl rfl

theorem fillMessage_ok {id : Nat} {contents : Msg} (ran : fillMessage id contents before = .ok (⟨⟩, after)) :
    after = before ∨ (before.msgs id).con = false ∧ before.con.output.outMsg ≠ some id ∧
      after = before.withMsg id { contents with con := false } := by
  unfold fillMessage at ran
  split at ran <;> cases ran
  · exact .inl rfl
  · rename_i free
    simp only [not_or] at free
    exact .inr ⟨eq_false_of_ne_true free.1, free.2, rfl⟩

end

def runCalls : List Call → Prog PUnit
  | [] => pure ⟨⟩
  | call :: rest => do
    atomically call.step
    runCalls rest

def popCalls : Step (List Call) := fun world =>
  .ok (world.env.calls.headD [], { world with env := { world.env with calls := world.env.calls.tail } })

def dropMutex : Prog PUnit := do
  let calls ← atomically popCalls
  runCalls calls

end KmodCeph.Messenger
