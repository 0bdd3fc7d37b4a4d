import KmodCeph.Messenger.Read

namespace KmodCeph.Messenger

open Lib

def conFault : Step PUnit := fun world =>
  let con := conCloseSocket world.con
  if con.lossytx then .ok (⟨⟩, { world with con := { con with state := .closed } })
  else
    let con := dropInMsg con
    let queues : Queues := { con.queues with outQueue := con.queues.outSent ++ con.queues.outQueue, outSent := [] }
    if queues.outQueue = [] ∧ ¬ con.keepalivePending then
      .ok (⟨⟩, { world with con := { con with queues, writePending := false, state := .standby } })
    else .ok (⟨⟩, { world with con := { con with queues, state := .preopen, backoff := true } })

theorem conFault_ok {before after : World} (ran : conFault before = .ok (⟨⟩, after)) :
    (before.con.lossytx ∧ after = { before with con := { before.con with
      sock := none, sockClosed := false, state := .closed } }) ∨
    (before.con.lossytx = false ∧ ∃ refs state writePending backoff,
      (state = .standby ∨ state = .preopen) ∧
      after = { before with con := { before.con with
        sock := none, sockClosed := false, refs, state, writePending, backoff
        input := { before.con.input with inMsg := none }
        queues := { before.con.queues with
          outQueue := before.con.queues.outSent ++ before.con.queues.outQueue, outSent := [] } } }) := by
  unfold conFault at ran
  simp only at ran
  split at ran
  · cases ran
    exact .inl ⟨‹_›, rfl⟩
  · obtain ⟨refs, dropped⟩ := dropInMsg_eq (conCloseSocket before.con)
    simp only [dropped] at ran
    refine .inr ⟨eq_false_of_ne_true ‹_›, refs, ?_⟩
    split at ran <;> cases ran
    · exact ⟨_, _, _, .inl rfl, rfl⟩
    · exact ⟨_, _, _, .inr rfl, rfl⟩

def conSockClosed : Step Bool := fun world =>
  .ok (world.con.sockClosed, { world with con := { world.con with sockClosed := false } })

def conBackoff : Step Bool := fun world =>
  if world.con.backoff then do
    let ret := world.env.queues.headD 0
    bugOn (ret = -enoent)
    .ok (true, { world with
      env := { world.env with queues := world.env.queues.tail }
      con := { world.con with backoff := ret ≠ 0 } })
  else .ok (false, world)

def checkNoSock : Step PUnit := fun world =>
  if world.con.sock.isSome ∧ (world.con.state = .closed ∨ world.con.state = .preopen) then .error .bug
  else .ok (⟨⟩, world)

def conWorkOnce (bound : Nat) : Prog (Next PUnit Bool) := do
  if ← atomically conSockClosed then pure (.done true)
  else if ← atomically conBackoff then pure (.done false)
  else do
    let world ← get
    if world.con.state = .standby then pure (.done false)
    else do
      atomically checkNoSock
      if world.con.state = .closed then pure (.done false)
      else do
        let ret ← tryRead bound
        if ret < 0 then pure (if ret = -eagain then .again ⟨⟩ else .done true)
        else do
          let ret ← tryWrite bound
          pure (if ret < 0 then if ret = -eagain then .again ⟨⟩ else .done true else .done false)

def conWork (bound : Nat) : Prog PUnit := do
  let fault ← iterate .exhausted (fun _ => conWorkOnce bound) bound PUnit.unit
  if fault then do
    atomically conFault
    dropMutex
  else pure ⟨⟩

inductive Event where
  | call (call : Call)
  | work (env : Env)

def setEnv (env : Env) : Step PUnit := fun world =>
  .ok (⟨⟩, { world with env })

def Event.run (bound : Nat) : Event → Prog PUnit
  | .call request => atomically request.step
  | .work env => do
    atomically (setEnv env)
    conWork bound

def runEvents (bound : Nat) : List Event → Prog PUnit
  | [] => pure ⟨⟩
  | event :: rest => do
    event.run bound
    runEvents bound rest

end KmodCeph.Messenger
