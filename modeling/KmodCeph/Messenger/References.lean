import KmodCeph.Messenger.Inbound
import KmodCeph.Messenger.Outbound

namespace KmodCeph.Messenger

open Lib List World Input

def Input.inHand (input : Input) : Int :=
  if input.inMsg.isSome then 1 else 0

/-- The messages that hold a reference: those on the outgoing lists and the
one that is being read. -/
def World.held (world : World) : Int :=
  (world.con.queues.outSent ++ world.con.queues.outQueue).length + world.con.input.inHand

variable {input : Input}

theorem Input.inHand_some {msg : InMsg} (inMsg : input.inMsg = some msg) : input.inHand = 1 := by
  simp [inHand, inMsg]

theorem Input.inHand_none (inMsg : input.inMsg = none) : input.inHand = 0 := by
  simp [inHand, inMsg]

def Entry.leaks : Entry → Bool
  | .leaked => true
  | .consumed (.revoked _ _) _ _ _ => true
  | _ => false

/-- The references to a connection that are taken on behalf of its messages. -/
structure Balanced (world : World) : Prop where
  outbound : Outbound world
  refs : world.con.refs = world.held + world.log.countP Entry.leaks

section

variable {before after : World}

theorem World.held_of_same (queues : after.con.queues = before.con.queues)
    (inMsg : after.con.input.inMsg.isSome = before.con.input.inMsg.isSome) : after.held = before.held := by
  rw [World.held, World.held, queues, Input.inHand, Input.inHand, inMsg]

variable {ids : List Nat} {ack : UInt64} {id : Nat}

theorem cephMsgRemoveList_refs (ran : cephMsgRemoveList ids before = .ok after) :
    after.con.refs = before.con.refs - ids.length := by
  induction ids generalizing before with
  | nil =>
    cases ran
    simp
  | cons first rest ih =>
    obtain ⟨middle, removed, ran⟩ := ok_of_bind ran
    unfold cephMsgRemove at removed
    split at removed
    · cases removed
      rw [ih ran, length_cons]
      simp only [withMsg]
      omega
    · cases removed

theorem dropInMsg_refs (con : Con) :
    (dropInMsg con).refs = con.refs - con.input.inHand := by
  unfold dropInMsg
  split <;> rename_i inMsg <;> simp [Input.inHand, inMsg]

theorem resetConnection_refs (ran : resetConnection before = .ok after) :
    after.con.refs = before.con.refs - before.held := by
  obtain ⟨first, queued, ran⟩ := ok_of_bind ran
  have queuedRefs := cephMsgRemoveList_refs queued
  obtain ⟨_, rfl⟩ := cephMsgRemoveList_ok queued
  obtain ⟨second, sent, ran⟩ := ok_of_bind ran
  have sentRefs := cephMsgRemoveList_refs sent
  obtain ⟨_, rfl⟩ := cephMsgRemoveList_ok sent
  cases ran
  simp only [released] at queuedRefs sentRefs
  simp only [World.note, dropInMsg_refs, released, World.held, length_append]
  lia

theorem cephConClose_refs (ran : cephConClose before = .ok (⟨⟩, after)) :
    after.con.refs = before.con.refs - before.held := by
  obtain ⟨world, reset, ran⟩ := ok_of_bind ran
  cases ran
  have refs := resetConnection_refs reset
  exact refs

theorem dropAcked_refs (ran : dropAcked ack ids before = .ok after) :
    after.con.refs = before.con.refs - (ackedPrefix before.msgs ack ids).length := by
  induction ids generalizing before with
  | nil =>
    cases ran
    simp [ackedPrefix]
  | cons id rest ih =>
    simp only [dropAcked] at ran
    split at ran
    · rename_i later
      cases ran
      have unacked : ¬ (before.msgs id).hdr.seq ≤ ack := UInt64.not_le.mpr later
      simp [ackedPrefix, unacked]
    · rename_i early
      have acked : (before.msgs id).hdr.seq ≤ ack := UInt64.not_lt.mp early
      obtain ⟨middle, removed, ran⟩ := ok_of_bind ran
      unfold cephMsgRemove at removed
      split at removed
      · cases removed
        rw [ih ran]
        have same (other : Nat) : (Function.update before.msgs id { before.msgs id with con := false } other).hdr =
            (before.msgs other).hdr := by
          by_cases equal : other = id
          · rw [equal, Function.update_self]
          · rw [Function.update_of_ne equal]
        simp only [World.note, withMsg, ackedPrefix, same, takeWhile_cons, acked, decide_true, if_true,
          length_cons]
        omega
      · cases removed

theorem processAck_refs (ran : processAck before = .ok (⟨⟩, after)) :
    after.con.refs =
      before.con.refs - (ackedPrefix before.msgs before.con.input.ack before.con.queues.outSent).length := by
  obtain ⟨middle, dropped, ran⟩ := ok_of_bind ran
  cases ran
  have refs := dropAcked_refs dropped
  exact refs

theorem takeInMsg_refs (ran : takeInMsg before = .ok (⟨⟩, after)) : after.con.refs = before.con.refs - 1 := by
  unfold takeInMsg at ran
  split at ran
  · cases ran
  · cases ran
    rfl

theorem conFault_refs (ran : conFault before = .ok (⟨⟩, after)) :
    after.con.refs - after.held = before.con.refs - before.held := by
  unfold conFault at ran
  simp only at ran
  have dropped := dropInMsg_refs (conCloseSocket before.con)
  obtain ⟨_, same⟩ := dropInMsg_eq (conCloseSocket before.con)
  split at ran
  · cases ran
    rfl
  · have queues : (dropInMsg (conCloseSocket before.con)).queues = before.con.queues := by
      rw [same]
      rfl
    have inMsg : (dropInMsg (conCloseSocket before.con)).input.inMsg = none := by rw [same]
    generalize dropInMsg (conCloseSocket before.con) = con at *
    have refs : con.refs = before.con.refs - before.con.input.inHand := dropped
    have none_ := inHand_none inMsg
    split at ran <;> cases ran <;> simp only [World.held, queues, none_, refs, nil_append] <;> lia

theorem Balanced.of_same (balanced : Balanced before) (outbound : Outbound after)
    (refs : after.con.refs - after.held = before.con.refs - before.held)
    (leaks : after.log.countP Entry.leaks = before.log.countP Entry.leaks) : Balanced after := by
  refine ⟨outbound, ?_⟩
  have old := balanced.refs
  rw [leaks]
  lia

theorem revoke_held (outbound : Outbound before) (ran : cephMsgRevoke id before = .ok (⟨⟩, after)) :
    after.con.refs - after.held = before.con.refs - before.held ∧
      after.log.countP Entry.leaks = before.log.countP Entry.leaks := by
  unfold cephMsgRevoke at ran
  split at ran
  · rename_i owned
    cases ran
    have member := (outbound.owned id).mp owned
    have queued : revokeQueued id before = _ := if_pos member
    have length := length_erase_of_mem member
    have positive := length_pos_of_mem member
    rw [erase_append_of_nodup id outbound.nodup] at length
    have sending : (revokeSending id (revokeQueued id before)).con.refs = (revokeQueued id before).con.refs ∧
        (revokeSending id (revokeQueued id before)).held = (revokeQueued id before).held ∧
        (revokeSending id (revokeQueued id before)).log.countP Entry.leaks =
          (revokeQueued id before).log.countP Entry.leaks := by
      unfold revokeSending
      split <;> exact ⟨rfl, rfl, rfl⟩
    rw [sending.1, sending.2.1, sending.2.2, queued]
    refine ⟨?_, rfl⟩
    simp only [World.note, withMsg, World.held, length]
    lia
  · cases ran
    exact ⟨rfl, rfl⟩

theorem Balanced.call {request : Call} (balanced : Balanced before) (outbound : Outbound after)
    (ran : request.step before = .ok (⟨⟩, after)) : Balanced after := by
  cases request with
  | send id =>
    obtain ⟨_, rfl⟩ | ⟨_, _, _, _, _, _, rfl⟩ := cephConSend_ok ran
    · exact balanced.of_same outbound rfl rfl
    · refine balanced.of_same outbound ?_ rfl
      simp only [World.note, withMsg, World.held, length_append, length_singleton]
      omega
  | revoke id =>
    obtain ⟨refs, leaks⟩ := revoke_held balanced.outbound ran
    exact balanced.of_same outbound refs leaks
  | revokeIncoming id =>
    obtain rfl | ⟨msg, inMsg, _, rfl⟩ := cephMsgRevokeIncoming_ok ran
    · exact balanced
    · refine ⟨outbound, ?_⟩
      have old := balanced.refs
      rw [World.held, inHand_some inMsg] at old
      simp only [World.note, withInput, World.held, inHand_none, revokes,
        countP_cons_of_pos (show Entry.leaks (.consumed (.revoked _ _) _ _ _) = true from rfl)]
      lia
  | keepalive =>
    obtain ⟨_, _, _, _, _, rfl⟩ := cephConKeepalive_ok ran
    exact balanced.of_same outbound rfl rfl
  | close =>
    have refs := cephConClose_refs ran
    obtain ⟨_, rfl⟩ := cephConClose_ok ran
    refine balanced.of_same outbound ?_ rfl
    rw [refs]
    simp [World.held, Con.reset, inHand_none]
  | reopen type num addr =>
    cases ran
    exact balanced.of_same outbound rfl rfl
  | sockClosed =>
    cases ran
    exact balanced.of_same outbound rfl rfl
  | write id contents =>
    obtain rfl | ⟨_, _, rfl⟩ := fillMessage_ok ran
    · exact balanced
    · exact balanced.of_same outbound rfl rfl

theorem Balanced.of_read (balanced : Balanced before) (outbound : Outbound after) {msg : InMsg}
    (reads : before.ReadsMsg msg) (refs : after.con.refs = before.con.refs)
    (queues : after.con.queues = before.con.queues) (inMsg : after.con.input.inMsg.isSome = true)
    (log : after.log = before.log) : Balanced after := by
  refine balanced.of_same outbound ?_ (by rw [log])
  rw [refs, held_of_same queues (by rw [inMsg, reads.2]; rfl)]

theorem countP_ackEntries {msgs : Nat → Msg} {settled : Bool} {log : List Entry} :
    (.acknowledged ack settled :: ackEntries msgs ack ids ++ log).countP Entry.leaks = log.countP Entry.leaks := by
  have none_ : (ackEntries msgs ack ids).countP Entry.leaks = 0 := by
    refine List.countP_eq_zero.mpr fun entry member => ?_
    simp only [ackEntries, mem_reverse, mem_map] at member
    obtain ⟨id, _, rfl⟩ := member
    exact Bool.false_ne_true
  rw [cons_append, countP_cons_of_neg Bool.false_ne_true, countP_append, none_, Nat.zero_add]

theorem Balanced.transmit {rest : List Nat} {final : Msg} (balanced : Balanced before)
    (outbound : Outbound after) (transmits : Transmits before after id rest final)
    (refs : after.con.refs = before.con.refs) (inMsg : after.con.input.inMsg = before.con.input.inMsg) :
    Balanced after := by
  refine balanced.of_same outbound ?_ ?_
  · rw [refs, World.held, World.held, transmits.list, Input.inHand, Input.inHand, inMsg]
  · rw [transmits.log, transmitEntries]
    split <;> rfl

theorem prepareWriteMessage_refs (ran : prepareWriteMessage before = .ok (⟨⟩, after)) :
    after.con.refs = before.con.refs ∧ after.con.input.inMsg = before.con.input.inMsg := by
  obtain ⟨_, _, con, _, _, _, _, _, _, sneaked, _, _, rfl⟩ := prepareWriteMessage_ok ran
  obtain ⟨rfl, _⟩ | ⟨_, _, _, _, rfl⟩ := sneakAck_ok sneaked <;> exact ⟨rfl, rfl⟩

theorem Balanced.step (act : Act before after) (balanced : Balanced before) : Balanced after := by
  have outbound := balanced.outbound.step act
  cases act with
  | call request ran => exact balanced.call outbound ran
  | fault ran =>
    have refs := conFault_refs ran
    refine balanced.of_same outbound refs ?_
    obtain ⟨_, rfl⟩ | ⟨_, _, _, _, _, _, rfl⟩ := conFault_ok ran <;> rfl
  | openSocket _ ran =>
    obtain ⟨_, _, ⟨_, _, rfl⟩ | ⟨_, _, _, rfl⟩⟩ := openSocket_ok ran <;>
      exact balanced.of_same outbound rfl rfl
  | queueFooter _ _ _ _ _ ran =>
    obtain ⟨_, rfl⟩ := prepareWriteMessageFooter_ok ran
    exact balanced.of_same outbound rfl rfl
  | prepareMessage _ _ ran =>
    obtain ⟨_, _, _, transmits⟩ := transmits_of_prepare ran
    obtain ⟨refs, inMsg⟩ := prepareWriteMessage_refs ran
    exact balanced.transmit outbound transmits refs inMsg
  | prepareAck _ _ ran =>
    obtain ⟨_, _, _, _, rfl⟩ := prepareWriteAck_ok ran
    exact balanced.of_same outbound rfl rfl
  | prepareKeepalive _ _ ran =>
    obtain ⟨_, _, rfl⟩ := prepareWriteKeepalive_ok ran
    exact balanced.of_same outbound rfl rfl
  | greet _ _ ran =>
    obtain ⟨_, _, _, _, rfl⟩ | ⟨_, rfl⟩ := processBanner_ok ran <;>
      exact balanced.of_same outbound rfl rfl
  | queueConnect _ ran =>
    obtain ⟨_, _, _, _, _, _, _, rfl⟩ := queueConnect_ok ran
    exact balanced.of_same outbound rfl rfl
  | reset _ _ ran =>
    have refs := resetConnection_refs ran
    obtain ⟨_, rfl⟩ := resetConnection_ok ran
    refine balanced.of_same outbound ?_ rfl
    rw [refs]
    simp [World.held, Con.reset, inHand_none]
  | leak =>
    refine ⟨outbound, ?_⟩
    have old := balanced.refs
    rw [World.note, countP_cons_of_pos rfl]
    simp only [World.held] at old ⊢
    lia
  | install msg next =>
    refine balanced.of_same outbound ?_ rfl
    have none_ := inHand_none next.2.2.2
    have some_ : ({ before.con.input with inMsg := some msg } : Input).inHand = 1 := rfl
    simp only [World.held, none_, some_]
    omega
  | readSection _ _ _ _ _ reads => exact balanced.of_read outbound reads rfl rfl rfl rfl
  | setCrc section_ => cases section_ <;> exact balanced.of_same outbound rfl rfl
  | readData _ _ _ _ _ _ reads => exact balanced.of_read outbound reads rfl rfl rfl rfl
  | readFooter _ _ _ _ _ reads => exact balanced.of_read outbound reads rfl rfl rfl rfl
  | dispatch _ ran =>
    have refs := takeInMsg_refs ran
    obtain ⟨_, _, _, inMsg, rfl⟩ := takeInMsg_cases ran
    refine balanced.of_same outbound ?_ rfl
    have some_ := inHand_some inMsg
    rw [refs]
    simp only [World.held, some_, inHand_none]
    omega
  | processAck _ ran =>
    have refs := processAck_refs ran
    have acks := acks_of_processAck ran
    refine balanced.of_same outbound ?_ (by rw [acks.log, countP_ackEntries])
    obtain ⟨_, rfl⟩ := processAck_ok ran
    have sent := congrArg List.length acks.sent
    rw [refs]
    have same : (prepareReadTag before.con.input).inHand = before.con.input.inHand := rfl
    simp only [World.held, same, length_append] at sent ⊢
    lia
  | _ => exact balanced.of_same outbound rfl rfl

end

/-- In every run the references that are held are those of the messages on the
lists and of the message in hand, exactly if no message that was being read was
revoked, found too long for its data or left without a middle. -/
theorem references_balance (bound : Nat) (events : List Event) (start : World) (unsent : start.Unsent)
    (refs : start.con.refs = start.held) :
    let world := outcome (runEvents bound events) start
    world.con.refs = world.held ↔ ∀ entry ∈ world.log, entry.leaks = false := by
  intro world
  have begins : Balanced start := ⟨unsent.outbound, by rw [refs, unsent.log]; simp⟩
  have balanced : Balanced world :=
    runEvents_preserves (fun _ _ act balanced => balanced.step act) bound events begins
  rw [balanced.refs]
  constructor
  · intro equal
    have none_ : world.log.countP Entry.leaks = 0 := by omega
    simpa [countP_eq_zero] using none_
  · intro none_
    have zero : world.log.countP Entry.leaks = 0 := List.countP_eq_zero.mpr (by simpa using none_)
    omega

def readingEvents : List Event :=
  [.call (.send 3), .call (.send 5), .work { Env.silent with sends := [200, 200] },
    .work { Env.silent with recvs := [1, 8, 1, 53], allocs := [.msg (emptyMsg MsgHeader.zero) true] }]

def readingStart : World :=
  openWorld (cephMsgrTagAck :: leBytes 8 1 ++ emptyFrame 1)

theorem readingStart_held : readingStart.con.refs = readingStart.held := by
  decide +kernel

theorem references_balance_reading :
    let world := outcome (runEvents 20 readingEvents) readingStart
    world.con.refs = 2 ∧ (world.con.refs = world.held ↔ ∀ entry ∈ world.log, entry.leaks = false) :=
  ⟨by decide +kernel,
    references_balance 20 readingEvents readingStart (openWorld_unsent _) readingStart_held⟩

/-- `ceph_msg_revoke_incoming` drops the message and keeps its reference. -/
theorem references_leak : ¬ ∀ (bound : Nat) (events : List Event) (start : World), start.Unsent →
    start.con.refs = start.held →
    (outcome (runEvents bound events) start).con.refs = (outcome (runEvents bound events) start).held := by
  intro balance
  have equal := balance 20 (readingEvents ++ [.call (.revokeIncoming 0)]) readingStart (openWorld_unsent _)
    readingStart_held
  revert equal
  decide +kernel

end KmodCeph.Messenger
