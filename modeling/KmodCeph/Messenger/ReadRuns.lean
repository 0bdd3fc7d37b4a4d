import KmodCeph.Messenger.WriteRuns

namespace KmodCeph.Messenger

open Lib List World
open Relation

structure Undisturbed (before after : World) : Prop where
  stage : stage after.log = stage before.log
  opened : after.con.state = .opened → before.con.state = .opened
  negotiating : after.con.state = .negotiating → before.con.state = .negotiating
  input : after.con.state = .opened → before.con.input.inMsg = none → after.con.input = before.con.input
  greetedAt : greetedAt after.log = greetedAt before.log
  kvecs : after.con.output.outKvecCur = before.con.output.outKvecCur ∧
    after.con.output.outKvecLeft = before.con.output.outKvecLeft

theorem Undisturbed.of_same {before after : World} (log : Messenger.stage after.log = Messenger.stage before.log)
    (state : after.con.state = before.con.state) (input : after.con.input = before.con.input)
    (greetedAt : Messenger.greetedAt after.log = Messenger.greetedAt before.log)
    (kvecs : after.con.output.outKvecCur = before.con.output.outKvecCur ∧
      after.con.output.outKvecLeft = before.con.output.outKvecLeft) : Undisturbed before after :=
  ⟨log, state.symm.trans, state.symm.trans, fun _ _ => input, greetedAt, kvecs⟩

theorem Undisturbed.refl (world : World) : Undisturbed world world :=
  .of_same rfl rfl rfl rfl ⟨rfl, rfl⟩

theorem Undisturbed.trans {before middle after : World} (first : Undisturbed before middle)
    (second : Undisturbed middle after) : Undisturbed before after where
  stage := second.stage.trans first.stage
  opened := first.opened ∘ second.opened
  negotiating := first.negotiating ∘ second.negotiating
  input state none_ := by
    have kept := first.input (second.opened state) none_
    rw [second.input state (by rw [kept, none_]), kept]
  greetedAt := second.greetedAt.trans first.greetedAt
  kvecs := ⟨second.kvecs.1.trans first.kvecs.1, second.kvecs.2.trans first.kvecs.2⟩

variable {id bound : Nat} {target : Target} {endPos size ret : Int} {bytes : List UInt8} {protocol : UInt32}

theorem cephConSend_undisturbed {before after : World}
    (ran : cephConSend id before = .ok (⟨⟩, after)) : Undisturbed before after := by
  obtain ⟨_, rfl⟩ | ⟨_, _, _, state, connectSeq, rfl | ⟨standby, rfl⟩, rfl⟩ := cephConSend_ok ran
  · exact .of_same rfl rfl rfl rfl ⟨rfl, rfl⟩
  · exact .of_same rfl rfl rfl rfl ⟨rfl, rfl⟩
  · exact ⟨rfl, nofun, nofun, nofun, rfl, rfl, rfl⟩

theorem cephMsgRevoke_undisturbed {before after : World}
    (ran : cephMsgRevoke id before = .ok (⟨⟩, after)) : Undisturbed before after := by
  have queued (world : World) : Undisturbed world (revokeQueued id world) := by
    unfold revokeQueued
    split <;> exact .of_same rfl rfl rfl rfl ⟨rfl, rfl⟩
  have sending (world : World) : Undisturbed world (revokeSending id world) := by
    unfold revokeSending
    split
    · refine .of_same rfl rfl rfl rfl ?_
      simp only [World.note, withMsg, withOutput]
      split <;> exact ⟨rfl, rfl⟩
    · exact .of_same rfl rfl rfl rfl ⟨rfl, rfl⟩
  unfold cephMsgRevoke at ran
  split at ran <;> cases ran
  · exact (queued before).trans (sending _)
  · exact Undisturbed.refl _

theorem Call.step_undisturbed {request : Call} {before after : World}
    (ran : request.step before = .ok (⟨⟩, after)) : Undisturbed before after := by
  cases request with
  | send id => exact cephConSend_undisturbed ran
  | revoke id => exact cephMsgRevoke_undisturbed ran
  | revokeIncoming id =>
    obtain rfl | ⟨msg, some_, _, rfl⟩ := cephMsgRevokeIncoming_ok ran
    · exact Undisturbed.refl _
    · refine ⟨rfl, fun state => state, fun state => state, fun _ none_ => ?_, rfl, rfl, rfl⟩
      rw [some_] at none_
      cases none_
  | keepalive =>
    obtain ⟨state, _, _, _, rfl | ⟨standby, rfl⟩, rfl⟩ := cephConKeepalive_ok ran
    · exact .of_same rfl rfl rfl rfl ⟨rfl, rfl⟩
    · exact ⟨rfl, nofun, nofun, nofun, rfl, rfl, rfl⟩
  | close =>
    obtain ⟨refs, rfl⟩ := cephConClose_ok ran
    exact ⟨rfl, nofun, nofun, nofun, rfl, rfl, rfl⟩
  | reopen type num addr =>
    cases ran
    exact ⟨rfl, nofun, nofun, nofun, rfl, rfl, rfl⟩
  | sockClosed =>
    cases ran
    exact .of_same rfl rfl rfl rfl ⟨rfl, rfl⟩
  | write id contents =>
    obtain rfl | ⟨_, _, rfl⟩ := fillMessage_ok ran
    · exact Undisturbed.refl _
    · exact .of_same rfl rfl rfl rfl ⟨rfl, rfl⟩

theorem runCalls_runs (calls : List Call) (before : World) :
    Runs Act (runCalls calls) before fun _ after => Undisturbed before after := by
  induction calls generalizing before with
  | nil => exact Runs.pure (Undisturbed.refl _)
  | cons first rest ih =>
    refine Runs.bind (fun _ after => Undisturbed before after)
      (runs_atomically fun _ after ran => ⟨.single (.call first ran), Call.step_undisturbed ran⟩) ?_
    intro _ middle undisturbed
    exact Runs.mono (ih middle) fun _ after rest => undisturbed.trans rest

theorem dropMutex_runs (before : World) :
    Runs Act dropMutex before fun _ after => Undisturbed before after := by
  refine Runs.bind (fun _ after => Undisturbed before after) (runs_atomically fun _ after ran => ?_) ?_
  · cases ran
    exact ⟨.single (act_env _ _), .of_same rfl rfl rfl rfl ⟨rfl, rfl⟩⟩
  · intro calls middle undisturbed
    exact Runs.mono (runCalls_runs calls middle) fun _ after rest => undisturbed.trans rest

/-- `read_partial` is a path when each of its passes is an act. -/
theorem readPartial_runs {before : World} (keeps : Con → Prop)
    (pass : ∀ (world : World) (env : Env) (sock : Sock) (bytes : List UInt8) (stored : World),
      keeps world.con → world.con.sock = some sock → world.con.input.inBasePos + bytes.length ≤ endPos →
      world.con.input.inBasePos < endPos →
      (world.took env sock bytes.length).store (size - (endPos - world.con.input.inBasePos)).toNat
        bytes target = .ok stored → Act world (stored.advance bytes.length) ∧ keeps (stored.advance bytes.length).con)
    (start : keeps before.con) : Runs Act (readPartial bound target endPos size) before fun ret after =>
      keeps after.con ∧ (ret ≤ 0 ∨ endPos ≤ after.con.input.inBasePos) := by
  refine Runs.iterate (fun _ world => keeps world.con) ?_ start
  intro _ world kept
  refine runs_atomically fun next after ran => ?_
  unfold readPartialOnce at ran
  split at ran
  · rename_i unread
    obtain ⟨⟨⟨ret, bytes⟩, middle⟩, received, ran⟩ := ok_of_bind ran
    obtain ⟨refused, rfl, env, rfl⟩ | ⟨env, sock, some_, nonempty, fits, _, rfl, rfl⟩ :=
      recv_cases received
    · simp only [refused, if_true, Except.ok.injEq, Prod.mk.injEq] at ran
      obtain ⟨rfl, rfl⟩ := ran
      exact ⟨.single (act_env _ env), kept, .inl refused⟩
    · have positive := length_pos_of_ne_nil nonempty
      simp only at ran
      rw [if_neg (by omega)] at ran
      obtain ⟨stored, stores, ran⟩ := ok_of_bind ran
      obtain ⟨rfl, rfl⟩ := ran
      obtain ⟨act, kept⟩ := pass world env sock bytes stored kept some_ (by omega) unread stores
      exact ⟨.single act, kept⟩
  · simp only [Except.ok.injEq, Prod.mk.injEq] at ran
    obtain ⟨rfl, rfl⟩ := ran
    exact ⟨.refl, kept, .inr (by omega)⟩

theorem length_overwrite {buffer : List UInt8} {offset : Nat} (fits : offset + bytes.length ≤ buffer.length) :
    (overwrite buffer offset bytes).length = buffer.length := by
  simp only [overwrite, length_append, List.length_take, length_drop]
  lia

def Target.ofHello : Target → Prop
  | .inBanner | .actualPeerAddr | .peerAddrForMe | .inReply | .authReplyBuf => True
  | .inHdr | .footer | .inTempAck => False

theorem readHello_runs {before : World}
    {state : ConState} (shaking : state = .connecting ∨ state = .negotiating) (ofHello : target.ofHello)
    (position : Target.peerAddrForMe = target → endPos = 281 ∧ size = 136 ∧
      145 ≤ before.con.input.inBasePos) (known : before.con.state = state ∧ before.con.sock.isSome) :
    Runs Act (readPartial bound target endPos size) before fun ret after =>
      (after.con.state = state ∧ after.con.sock.isSome) ∧ (ret ≤ 0 ∨ endPos ≤ after.con.input.inBasePos) := by
  refine Runs.mono (readPartial_runs (fun con => (con.state = state ∧ con.sock.isSome) ∧
    (Target.peerAddrForMe = target → 145 ≤ con.input.inBasePos)) ?_
    ⟨known, fun isAddr => (position isAddr).2.2⟩) fun _ _ holds => ⟨holds.1.1, holds.2⟩
  intro world env sock bytes stored ⟨⟨known, _⟩, far⟩ some_ fits unread stores
  cases target with
  | inBanner =>
    cases stores
    exact ⟨.readHello env sock bytes.length _ some_ (known ▸ shaking) rfl id, ⟨known, rfl⟩, nofun⟩
  | actualPeerAddr =>
    cases stores
    exact ⟨.readHello env sock bytes.length _ some_ (known ▸ shaking) rfl id, ⟨known, rfl⟩, nofun⟩
  | inReply =>
    cases stores
    exact ⟨.readHello env sock bytes.length _ some_ (known ▸ shaking) rfl id, ⟨known, rfl⟩, nofun⟩
  | authReplyBuf =>
    simp only [World.store] at stores
    split at stores
    · cases stores
    · cases stores
      exact ⟨.readHello env sock bytes.length _ some_ (known ▸ shaking) rfl id, ⟨known, rfl⟩, nofun⟩
  | peerAddrForMe =>
    cases stores
    obtain ⟨rfl, rfl, _⟩ := position rfl
    have near := far rfl
    refine ⟨.readHello env sock bytes.length _ some_ (known ▸ shaking) rfl fun length => ?_, ⟨known, rfl⟩, ?_⟩
    · refine (length_overwrite ?_).trans length
      simp only [sizeofEntityAddr] at length
      simp only [took]
      lia
    · intro _
      simp only [World.advance, withInput, withHello, took]
      omega
  | inHdr => cases ofHello
  | footer => cases ofHello
  | inTempAck => cases ofHello

theorem readPartialBanner_runs {before : World} (state : before.con.state = .connecting ∧ before.con.sock.isSome) :
    Runs Act (readPartialBanner bound) before fun _ after =>
      after.con.state = .connecting ∧ after.con.sock.isSome := by
  refine Runs.bind _ (readHello_runs (.inl rfl) trivial nofun state) fun ret after ⟨state, _⟩ => ?_
  split
  · exact Runs.pure state
  · refine Runs.bind _ (readHello_runs (.inl rfl) trivial nofun state) fun ret after ⟨state, read⟩ => ?_
    split
    · exact Runs.pure state
    · refine Runs.mono (readHello_runs (.inl rfl) trivial (fun _ => ⟨rfl, rfl, ?_⟩) state)
        fun _ _ holds => holds.1
      simp only [cephBanner, sizeofEntityAddr, length_cons, length_nil] at read
      omega

theorem readPartialConnect_runs {before : World} (state : before.con.state = .negotiating ∧ before.con.sock.isSome) :
    Runs Act (readPartialConnect bound) before fun _ after => after.con.state = .negotiating := by
  refine Runs.bind _ (readHello_runs (.inr rfl) trivial nofun state) fun ret after ⟨state, _⟩ => ?_
  split
  · exact Runs.pure state.1
  · refine Runs.read ?_
    exact Runs.mono (readHello_runs (.inr rfl) trivial nofun state) fun _ _ holds => holds.1.1

theorem fillConnect_runs {before : World} (asking : before.Asking) :
    Runs Act (atomically fillConnect) before fun _ after => after.Asking := by
  refine runs_atomically fun _ after ran => ?_
  obtain ⟨proto, _, ran⟩ := ok_of_bind ran
  cases ran
  exact ⟨.single (.negotiate _ (getGlobalSeq before.msgr 0).globalSeq asking rfl), asking⟩

theorem queueConnect_state {before after : World}
    {reply : Option (List UInt8)} (ran : queueConnect protocol bytes reply before = .ok (ret, after)) :
    ret = 0 ∧ after.con.state = before.con.state := by
  obtain ⟨first, _, ran⟩ := ok_of_bind ran
  obtain ⟨second, _, ran⟩ := ok_of_bind ran
  cases ran
  exact ⟨rfl, rfl⟩

theorem queueConnect_runs {before : World} {reply : Option (List UInt8)} (asking : before.Asking) :
    Runs Act (atomically (queueConnect protocol bytes reply)) before fun ret after =>
      0 ≤ ret → after.con.state = .negotiating :=
  runs_atomically fun _ _ ran => ⟨.single (.queueConnect asking ran), fun _ =>
    (queueConnect_state ran).2.trans asking.1⟩

theorem prepareWriteConnect_runs {before : World} (asking : before.Asking) :
    Runs Act prepareWriteConnect before fun ret after => 0 ≤ ret → after.con.state = .negotiating := by
  refine Runs.bind _ (fillConnect_runs asking) fun _ before asking => ?_
  refine Runs.bind (fun _ after => after.Asking) (runs_atomically fun _ after ran => ?_) ?_
  · cases ran
    exact ⟨.single (act_env _ _), asking⟩
  · intro answer before asking
    cases answer with
    | absent => exact queueConnect_runs asking
    | failed errno =>
      refine Runs.bind _ (dropMutex_runs before) fun _ _ _ => Runs.pure fun accepted => ?_
      exact absurd accepted (by omega)
    | made protocol bytes reply =>
      refine Runs.bind _ (dropMutex_runs before) fun _ after undisturbed => Runs.read ?_
      split
      · exact Runs.pure fun accepted => absurd accepted (by decide)
      · rename_i state
        refine queueConnect_runs ⟨by simpa using state, ?_⟩
        rw [undisturbed.stage, undisturbed.greetedAt, undisturbed.kvecs.1, undisturbed.kvecs.2]
        exact asking.2

theorem retryConnect_runs {before : World} (asking : before.Asking) :
    Runs Act retryConnect before fun _ _ => True := by
  refine Runs.bind _ (prepareWriteConnect_runs asking) fun ret after state => ?_
  split
  · exact Runs.pure trivial
  · refine Runs.bind (fun _ _ => True) (runs_atomically fun _ _ ran => ?_) fun _ _ _ => Runs.pure trivial
    cases ran
    exact ⟨.single (.prepareRead (state (by omega))), trivial⟩

def World.Replied (world : World) : Prop :=
  world.con.state = .negotiating ∧ stage world.log = .replied

theorem failReset_runs {before : World} (replied : before.Replied) :
    Runs Act (atomically failReset) before fun _ _ => True := by
  refine runs_atomically fun _ _ ran => ?_
  obtain ⟨after, reset, ran⟩ := ok_of_bind ran
  cases ran
  exact ⟨.single (.reset replied.1 replied.2 reset), trivial⟩

theorem resetKvecs_runs {before : World} (replied : before.Replied) :
    Runs Act (atomically resetKvecs) before fun _ after => after.Asking := by
  refine runs_atomically fun _ _ ran => ?_
  cases ran
  exact ⟨.single (.resetKvecs replied.1 replied.2), replied.1, .inr ⟨replied.2, rfl, rfl⟩⟩

theorem resetForConnect_runs {before : World} (replied : before.Replied) :
    Runs Act (atomically resetForConnect) before fun _ after => after.Asking := by
  refine runs_atomically fun _ _ ran => ?_
  obtain ⟨middle, reset, ran⟩ := ok_of_bind ran
  have first := Act.reset replied.1 replied.2 reset
  obtain ⟨refs, rfl⟩ := resetConnection_ok reset
  cases ran
  exact ⟨.tail (.single first) (.resetKvecs replied.1 replied.2), replied.1, .inr ⟨replied.2, rfl, rfl⟩⟩

theorem prepareWriteSeq_ok {con after : Con} (ran : prepareWriteSeq con = .ok after) :
    ∃ output inSeqAcked writePending, conOutKvecAdd
        { conOutKvecReset con.output with outTempAck := inSeqAcked } 8 .outTempAck = .ok output ∧
      after = { con with output, writePending, input := { con.input with inSeqAcked } } := by
  obtain ⟨output, added, ran⟩ := ok_of_bind ran
  cases ran
  exact ⟨output, _, true, added, rfl⟩

theorem acceptConnect_runs {before : World} {reply : MsgConnectReply} (replied : before.Replied) :
    Runs Act (atomically (acceptConnect reply)) before fun _ _ => True := by
  refine runs_atomically fun _ _ ran => ?_
  unfold acceptConnect at ran
  split at ran
  · obtain ⟨after, reset, ran⟩ := ok_of_bind ran
    cases ran
    exact ⟨.single (.reset replied.1 replied.2 reset), trivial⟩
  · split at ran
    · obtain ⟨con, prepared, ran⟩ := ok_of_bind ran
      obtain ⟨output, acked, pending, added, rfl⟩ := prepareWriteSeq_ok prepared
      cases ran
      exact ⟨.single (.accept _ output _ pending acked _ replied.1 replied.2 rfl rfl (.inr added) (.inl rfl)),
        trivial⟩
    · cases ran
      exact ⟨.single (.accept _ before.con.output _ before.con.writePending before.con.input.inSeqAcked _
        replied.1 replied.2 rfl rfl (.inl rfl) (.inr rfl)), trivial⟩

theorem processConnect_runs {before : World} (state : before.con.state = .negotiating) :
    Runs Act processConnect before fun _ _ => True := by
  refine Runs.bind (fun _ after => after.Replied) (runs_atomically fun _ _ ran => ?_) ?_
  · cases ran
    exact ⟨.single (.reply state), state, rfl⟩
  intro _ before replied
  refine Runs.read ?_
  simp only
  split
  · exact failReset_runs replied
  split
  · exact failReset_runs replied
  split
  · refine Runs.bind (fun _ after => after.Replied) (runs_atomically fun _ _ ran => ?_) ?_
    · cases ran
      exact ⟨.single (.adopt _ before.msgr.globalSeq replied.1 rfl rfl), replied⟩
    intro retries after replied
    split
    · exact Runs.pure trivial
    · exact Runs.bind _ (resetKvecs_runs replied) fun _ _ asking => retryConnect_runs asking
  split
  · refine Runs.bind _ (resetForConnect_runs replied) fun _ _ asking => ?_
    refine Runs.bind _ (retryConnect_runs asking) fun ret after _ => ?_
    split
    · exact Runs.pure trivial
    · exact Runs.bind _ (dropMutex_runs after) fun _ _ _ => Runs.read (Runs.pure trivial)
  split
  · refine Runs.bind (fun _ after => after.Replied) (runs_atomically fun _ _ ran => ?_) ?_
    · cases ran
      exact ⟨.single (.adopt _ before.msgr.globalSeq replied.1 rfl rfl), replied⟩
    intro _ after replied
    exact Runs.bind _ (resetKvecs_runs replied) fun _ _ asking => retryConnect_runs asking
  split
  · refine Runs.bind (fun _ after => after.Replied) (runs_atomically fun _ _ ran => ?_) ?_
    · cases ran
      exact ⟨.single (.adopt before.con.hello _ replied.1 rfl rfl), replied⟩
    intro _ after replied
    exact Runs.bind _ (resetKvecs_runs replied) fun _ _ asking => retryConnect_runs asking
  split
  · exact acceptConnect_runs replied
  · exact Runs.pure trivial

theorem processBanner_asking {before after : World} (ran : processBanner before = .ok (ret, after))
    (accepted : 0 ≤ ret) : after.Asking := by
  unfold processBanner at ran
  simp only at ran
  split at ran
  · cases ran
    exact absurd accepted (by decide)
  · split at ran
    · cases ran
      exact absurd accepted (by decide)
    · cases ran
      exact ⟨rfl, .inl ⟨rfl, rfl⟩⟩

theorem tryReadConnecting_runs {before : World} (state : before.con.state = .connecting)
    (open_ : before.con.sock.isSome) : Runs Act (tryReadConnecting bound) before fun _ _ => True := by
  refine Runs.bind _ (readPartialBanner_runs ⟨state, open_⟩) fun ret before ⟨state, open_⟩ => ?_
  split
  · exact Runs.pure trivial
  · refine Runs.bind (fun ret after => 0 ≤ ret → after.Asking) (runs_atomically fun _ _ ran =>
      ⟨.single (.greet state open_ ran), processBanner_asking ran⟩) fun ret after asking => ?_
    split
    · exact Runs.pure trivial
    · exact Runs.bind _ (retryConnect_runs (asking (by omega))) fun _ _ _ => Runs.pure trivial

theorem tryReadNegotiating_runs {before : World} (state : before.con.state = .negotiating)
    (open_ : before.con.sock.isSome) : Runs Act (tryReadNegotiating bound) before fun _ _ => True := by
  refine Runs.bind _ (readPartialConnect_runs ⟨state, open_⟩) fun ret before state => ?_
  split
  · exact Runs.pure trivial
  · exact Runs.bind _ (processConnect_runs state) fun _ _ _ => Runs.pure trivial

end KmodCeph.Messenger
