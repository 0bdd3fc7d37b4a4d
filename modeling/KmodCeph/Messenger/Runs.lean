import KmodCeph.Messenger.ReadRuns

namespace KmodCeph.Messenger

open Lib
open Relation

variable {bound : Nat} {hdr : List UInt8} {section_ : Section} {ret : Int}

theorem readHdr_runs {before : World} (reads : before.Reads cephMsgrTagMsg) :
    Runs Act (readPartial bound .inHdr sizeofMsgHeader sizeofMsgHeader) before fun ret after =>
      after.Reads cephMsgrTagMsg ∧ (ret ≤ 0 ∨ 53 ≤ after.con.input.inBasePos) := by
  refine readPartial_runs (fun con => con.state = .opened ∧ con.input.inTag = cephMsgrTagMsg) ?_ reads
  intro world env sock bytes stored reads some_ fits unread stores
  cases stores
  exact ⟨.readHdr env sock bytes.length _ reads some_ unread fits, reads⟩

theorem readPartialAck_runs {before : World} (reads : before.Reads cephMsgrTagAck ∨ before.Reads cephMsgrTagSeq) :
    Runs Act (readPartialAck bound) before fun _ after =>
      after.Reads cephMsgrTagAck ∨ after.Reads cephMsgrTagSeq := by
  refine Runs.mono (readPartial_runs (fun con =>
    (con.state = .opened ∧ con.input.inTag = cephMsgrTagAck) ∨
      (con.state = .opened ∧ con.input.inTag = cephMsgrTagSeq)) ?_ reads) fun _ _ holds => holds.1
  intro world env sock bytes stored reads some_ fits unread stores
  cases stores
  exact ⟨.readAck env sock bytes.length _ reads some_, reads⟩

def Con.ReadsBody (con : Con) (hdr : List UInt8) (middle : Bool) : Prop :=
  con.state = .opened ∧ con.input.inTag = cephMsgrTagMsg ∧ con.input.inHdr = hdr ∧
    ∃ msg, con.input.inMsg = some msg ∧ (middle → msg.middle.isSome)

theorem readFooter_runs {before : World} {middle : Bool} (reads : before.con.ReadsBody hdr middle) :
    Runs Act (readPartial bound .footer (sizeofMsgHeader + sizeofMsgFooter) sizeofMsgFooter) before
      fun _ after => after.con.ReadsBody hdr middle := by
  refine Runs.mono (readPartial_runs (fun con => con.ReadsBody hdr middle) ?_ reads) fun _ _ holds => holds.1
  intro world env sock bytes stored ⟨state, tag, same, msg, inMsg, has⟩ some_ fits unread stores
  simp only [World.store, World.took, inMsg] at stores
  cases stores
  exact ⟨.readFooter env sock bytes.length _ msg ⟨⟨state, tag⟩, inMsg⟩ some_ fits,
    state, tag, same, _, rfl, has⟩

theorem Section.extend_middle {msg : InMsg} {bytes : List UInt8}
    (has : msg.middle.isSome) : (section_.extend msg bytes).middle.isSome := by
  cases section_ with
  | front => exact has
  | middle => simpa [Section.extend] using has

theorem readSection_runs {secLen : Nat} {before : World}
    {middle : Bool} (has : section_ = .middle → middle = true) (reads : before.con.ReadsBody hdr middle) :
    Runs Act (readPartialMessageSection bound section_ secLen) before fun _ after =>
      after.con.ReadsBody hdr middle := by
  refine Runs.iterate (fun _ world => world.con.ReadsBody hdr middle) ?_ reads
  intro _ world reads
  obtain ⟨state, tag, same, msg, inMsg, some_⟩ := reads
  refine runs_atomically fun next after ran => ?_
  simp only [readSectionOnce, inMsg] at ran
  split at ran
  · obtain ⟨⟨⟨ret, bytes⟩, received⟩, recv, ran⟩ := ok_of_bind ran
    obtain ⟨refused, rfl, env, rfl⟩ | ⟨env, sock, open_, nonempty, fits, _, rfl, rfl⟩ :=
      World.recv_cases recv
    · simp only [refused, if_true, Except.ok.injEq, Prod.mk.injEq] at ran
      obtain ⟨rfl, rfl⟩ := ran
      exact ⟨.single (act_env _ env), state, tag, same, msg, inMsg, some_⟩
    · have positive := List.length_pos_of_ne_nil nonempty
      simp only at ran
      rw [if_neg (by omega)] at ran
      cases ran
      exact ⟨.single (.readSection env sock bytes section_ msg ⟨⟨state, tag⟩, inMsg⟩ open_
        fun isMiddle => some_ (has isMiddle)), state, tag, same, _, rfl,
        fun present => Section.extend_middle (some_ present)⟩
  · split at ran
    · cases ran
      refine ⟨.single (.setCrc section_ _), ?_⟩
      cases section_ <;> exact ⟨state, tag, same, msg, inMsg, some_⟩
    · cases ran
      exact ⟨.refl, state, tag, same, msg, inMsg, some_⟩

theorem readPartialMsgData_runs {before : World} {middle : Bool}
    (payload : (MsgHeader.decode hdr).dataLen.toNat ≠ 0) (reads : before.con.ReadsBody hdr middle) :
    Runs Act (readPartialMsgData bound) before fun _ after => after.con.ReadsBody hdr middle := by
  refine Runs.read ?_
  split
  · exact Runs.throw _
  · split
    · exact Runs.pure reads
    · refine Runs.iterate (fun _ world => world.con.ReadsBody hdr middle) ?_ reads
      intro _ world ⟨state, tag, same, msg, inMsg, some_⟩
      refine runs_atomically fun next after ran => ?_
      simp only [readDataOnce, inMsg] at ran
      split at ran
      · obtain ⟨piece, located, ran⟩ := ok_of_bind ran
        obtain ⟨⟨⟨ret, bytes⟩, received⟩, recv, ran⟩ := ok_of_bind ran
        obtain ⟨refused, rfl, env, rfl⟩ | ⟨env, sock, open_, nonempty, fits, _, rfl, rfl⟩ :=
          World.recv_cases recv
        · simp only [refused, if_true, Except.ok.injEq, Prod.mk.injEq] at ran
          obtain ⟨rfl, rfl⟩ := ran
          exact ⟨.single (act_env _ env), state, tag, same, msg, inMsg, some_⟩
        · have positive := List.length_pos_of_ne_nil nonempty
          simp only at ran
          rw [if_neg (by omega)] at ran
          obtain ⟨⟨fresh, cursor⟩, advanced, ran⟩ := ok_of_bind ran
          cases ran
          exact ⟨.single (.readData env sock bytes.length msg _ _ ⟨⟨state, tag⟩, inMsg⟩ open_
            (same ▸ payload) advanced), state, tag, same, _, rfl, some_⟩
      · cases ran
        exact ⟨.refl, state, tag, same, msg, inMsg, some_⟩

theorem readPartialTail_runs {before : World} {middle : Bool} (reads : before.con.ReadsBody hdr middle) :
    Runs Act (readPartialTail bound (MsgHeader.decode hdr) middle) before fun _ after =>
      after.con.ReadsBody hdr middle := by
  refine Runs.bind _ (runs_onlyIf (fun _ => reads) fun has => readSection_runs (fun _ => has) reads)
    fun ret after reads => ?_
  split
  · exact Runs.pure reads
  refine Runs.bind _ (runs_onlyIf (fun _ => reads) fun payload =>
    readPartialMsgData_runs (fun zero => payload (UInt32.toNat_inj.mp zero)) reads) fun ret after reads => ?_
  split
  · exact Runs.pure reads
  refine Runs.bind _ (readFooter_runs reads) fun ret after reads => ?_
  split
  · exact Runs.pure reads
  refine Runs.read ?_
  split
  · exact Runs.throw _
  · exact Runs.pure reads

def World.HasRead (world : World) : Prop :=
  world.Reads cephMsgrTagMsg ∧ world.con.input.inMsg.isSome

theorem Con.ReadsBody.hasRead {world : World} {middle : Bool}
    (reads : world.con.ReadsBody hdr middle) : world.HasRead := by
  obtain ⟨state, tag, _, msg, inMsg, _⟩ := reads
  exact ⟨⟨state, tag⟩, by rw [inMsg]; rfl⟩

theorem readPartialBody_runs {before : World} (reads : before.HasRead) :
    Runs Act (readPartialBody bound) before fun _ after => after.HasRead := by
  obtain ⟨⟨state, tag⟩, some_⟩ := reads
  obtain ⟨msg, inMsg⟩ := Option.isSome_iff_exists.mp some_
  have body : before.con.ReadsBody before.con.input.inHdr false := ⟨state, tag, rfl, msg, inMsg, nofun⟩
  refine Runs.read ?_
  refine Runs.bind _ (readSection_runs nofun body) fun ret after reads => ?_
  split
  · exact Runs.pure reads.hasRead
  · refine Runs.read ?_
    split
    · exact Runs.throw _
    · rename_i found inMsg
      obtain ⟨state, tag, same, _⟩ := reads
      exact Runs.mono (readPartialTail_runs ⟨state, tag, same, found, inMsg, id⟩) fun _ _ reads => reads.hasRead

theorem prepareInData_ok {msg after : InMsg} (ran : prepareInData msg = .ok after) :
    (∃ cursor, after = { msg with cursor }) ∧ (msg.hdr.dataLen.toNat ≠ 0 →
      cephMsgDataCursorInit msg.data msg.dataLength msg.hdr.dataLen.toNat msg.cursor = .ok after.cursor) := by
  unfold prepareInData at ran
  split at ran
  · obtain ⟨cursor, started, ran⟩ := ok_of_bind ran
    cases ran
    exact ⟨⟨cursor, rfl⟩, fun _ => started⟩
  · cases ran
    exact ⟨⟨msg.cursor, rfl⟩, fun payload => absurd payload ‹_›⟩

theorem installInMsg_runs {before : World} {answer : Alloc} (next : before.ReadsNext) :
    Runs Act (atomically (installInMsg answer)) before fun ret after => ret ≤ 0 ∨ after.HasRead := by
  refine runs_atomically fun ret after ran => ?_
  cases answer with
  | skip =>
    cases ran
    exact ⟨.single (.skipMessage next), .inl (by decide)⟩
  | nomem =>
    cases ran
    exact ⟨.refl, .inl (by decide)⟩
  | msg msg middleAlloc =>
    simp only [installInMsg] at ran
    split at ran
    · cases ran
      exact ⟨.single (.leak next), .inl (by decide)⟩
    · split at ran
      · cases ran
        exact ⟨.tail (.single (.leak next)) (.skipMessage next), .inl (by decide)⟩
      · obtain ⟨ready, prepared, ran⟩ := ok_of_bind ran
        obtain ⟨⟨cursor, rfl⟩, started⟩ := prepareInData_ok prepared
        cases ran
        refine ⟨.single (.install _ next rfl rfl ?_ fun payload => ⟨_, started payload⟩),
          .inr ⟨next.1, rfl⟩⟩
        simp only
        split <;> rfl

theorem cephConInMsgAlloc_runs {before : World} (reads : before.Reads cephMsgrTagMsg)
    (position : 53 ≤ before.con.input.inBasePos) (check : checkHeader before.con.input = .next)
    (none_ : before.con.input.inMsg = none) :
    Runs Act cephConInMsgAlloc before fun ret after => ret ≤ 0 ∨ after.HasRead := by
  refine Runs.bind (fun _ after => after.con = before.con) (runs_atomically fun _ after ran => ?_) ?_
  · simp only [popAlloc, none_] at ran
    cases ran
    exact ⟨.single (act_env _ _), rfl⟩
  intro answer middle same
  refine Runs.bind _ (dropMutex_runs middle) fun _ after undisturbed => Runs.read ?_
  split
  · exact Runs.pure (.inl (by decide))
  · rename_i state
    simp only [ne_eq, not_not] at state
    have input : after.con.input = before.con.input := by
      rw [undisturbed.input state (by rw [same, none_]), same]
    refine installInMsg_runs ⟨⟨state, ?_⟩, ?_, ?_, ?_⟩ <;> rw [input]
    exacts [reads.2, position, check, none_]

theorem readPartialMessage_runs {before : World} (reads : before.Reads cephMsgrTagMsg) :
    Runs Act (readPartialMessage bound) before fun ret after => ret ≤ 0 ∨ after.HasRead := by
  refine Runs.bind _ (readHdr_runs reads) fun ret after ⟨reads, read⟩ => ?_
  split
  · exact Runs.pure (.inl ‹_›)
  have position : 53 ≤ after.con.input.inBasePos := by omega
  refine Runs.read ?_
  split
  · rename_i code bad
    refine Runs.pure (.inl ?_)
    unfold checkHeader at bad
    simp only at bad
    split_ifs at bad <;> cases bad <;> decide
  · refine Runs.bind (fun _ _ => True) (runs_atomically fun _ _ ran => ?_)
      fun _ _ _ => Runs.pure (.inl (by decide))
    cases ran
    exact ⟨.single (.stale reads ‹_›), trivial⟩
  · rename_i check
    refine Runs.bind _ (runs_onlyIf (fun some_ => .inr ⟨reads, by simpa [Option.isSome_iff_ne_none] using some_⟩) fun none_ =>
      cephConInMsgAlloc_runs reads position check (Option.isNone_iff_eq_none.mp none_))
      fun ret after read => ?_
    split
    · exact Runs.pure (.inl ‹_›)
    · exact Runs.mono (readPartialBody_runs (read.resolve_left ‹_›)) fun _ _ reads => .inr reads

theorem takeInMsg_cases {before after : World} (ran : takeInMsg before = .ok (⟨⟩, after)) :
    ∃ msg refs peerName, before.con.input.inMsg = some msg ∧
      after = { before with
        con := { before.con with
          refs, peerName
          input := { before.con.input with inMsg := none, inSeq := before.con.input.inSeq + 1 } }
        log := .consumed .dispatched msg.hdr.seq before.con.input.inSeq (before.con.input.inSeq + 1) ::
          before.log } := by
  unfold takeInMsg at ran
  split at ran
  · cases ran
  · cases ran
    exact ⟨_, _, _, ‹_›, rfl⟩

theorem processMessage_runs {before : World} (reads : before.Reads cephMsgrTagMsg) :
    Runs Act processMessage before fun _ after =>
      after.con.state = .opened → after.Reads cephMsgrTagMsg ∧ after.con.input.inMsg = none := by
  refine Runs.bind (fun _ after => after.Reads cephMsgrTagMsg ∧ after.con.input.inMsg = none)
    (runs_atomically fun _ after ran => ?_) ?_
  · have act := Act.dispatch reads ran
    obtain ⟨msg, refs, peerName, _, rfl⟩ := takeInMsg_cases ran
    exact ⟨.single act, reads, rfl⟩
  · intro _ middle ⟨reads, none_⟩
    refine Runs.mono (dropMutex_runs middle) fun _ after undisturbed state => ?_
    have input := undisturbed.input state none_
    exact ⟨⟨state, by rw [input, reads.2]⟩, by rw [input, none_]⟩

theorem tryReadTagged_runs {before : World} (state : before.con.state = .opened) :
    Runs Act (tryReadTagged bound ret) before fun _ _ => True := by
  refine Runs.read ?_
  split
  · refine Runs.bind _ (readPartialMessage_runs ⟨state, ‹_›⟩) fun ret after read => ?_
    split
    · exact Runs.pure trivial
    · have reads : after.HasRead := read.resolve_left ‹_›
      refine Runs.read ?_
      split
      · exact Runs.pure trivial
      · refine Runs.bind _ (processMessage_runs reads.1) fun _ after finished => ?_
        refine Runs.bind (fun _ _ => True) (runs_atomically fun _ _ ran => ?_) fun _ _ _ => Runs.pure trivial
        unfold finishRead at ran
        split at ran
        · rename_i state
          cases ran
          exact ⟨.single (.finishRead (finished state).1 (finished state).2), trivial⟩
        · cases ran
          exact ⟨.refl, trivial⟩
  · split
    · rename_i tag
      refine Runs.bind _ (readPartialAck_runs ?_) fun ret after reads => ?_
      · exact tag.imp (fun ack => ⟨state, ack⟩) fun seq => ⟨state, seq⟩
      · split
        · exact Runs.pure trivial
        · exact Runs.bind (fun _ _ => True) (runs_atomically fun _ _ ran =>
            ⟨.single (.processAck reads ran), trivial⟩) fun _ _ _ => Runs.pure trivial
    · exact Runs.pure trivial

theorem readTag_runs {before : World} (reads : before.Reads cephMsgrTagReady)
    (position : 0 ≤ before.con.input.inBasePos) :
    Runs Act (atomically readTag) before fun next after =>
      next.Holds (fun _ => after.con.state = .opened) fun _ => True := by
  refine runs_atomically fun next after ran => ?_
  obtain ⟨⟨⟨ret, bytes⟩, received⟩, recv, ran⟩ := ok_of_bind ran
  obtain ⟨refused, rfl, env, rfl⟩ | ⟨env, sock, open_, nonempty, fits, _, rfl, rfl⟩ :=
    World.recv_cases recv
  · cases ran
    exact ⟨.single (act_env _ env), trivial⟩
  · have received : before.received = sock.received := by simp [World.received, open_]
    cases bytes with
    | nil => exact absurd rfl nonempty
    | cons tag rest =>
      have single : rest = [] := List.length_eq_zero_iff.mp (by simpa using fits)
      subst single
      simp only [received, List.length_singleton] at ran
      split at ran
      · rename_i isMsg
        split at ran
        · cases ran
        · rename_i none_
          cases ran
          have none_ : before.con.input.inMsg = none := Option.not_isSome_iff_eq_none.mp none_
          have act := Act.tagMsg env sock reads position open_ none_
          subst isMsg
          exact ⟨.single act, reads.1⟩
      · rename_i other
        split at ran
        · cases ran
          exact ⟨.single (.tagOther env sock tag 0 reads position open_ other), reads.1⟩
        · split at ran
          · rename_i isClose
            cases ran
            subst isClose
            exact ⟨.single (.tagClose env sock reads position open_), trivial⟩
          · cases ran
            exact ⟨.single (.tagOther env sock tag before.con.input.inBasePos reads position open_ other),
              trivial⟩

section

variable {before : World}
variable (state : before.con.state = .opened)
include state

theorem tryReadTag_runs
    (position : 0 ≤ before.con.input.inBasePos) : Runs Act (tryReadTag bound ret) before fun _ _ => True := by
  refine Runs.read ?_
  split
  · refine Runs.bind _ (readTag_runs ⟨state, ‹_›⟩ position) fun next after holds => ?_
    cases next with
    | done ret => exact Runs.pure trivial
    | again _ => exact tryReadTagged_runs holds
  · exact tryReadTagged_runs state

theorem skipOnce_runs (negative : before.con.input.inBasePos < 0) :
    Runs Act (atomically skipOnce) before fun _ after => after.con.state = .opened := by
  refine runs_atomically fun ret after ran => ?_
  obtain ⟨⟨⟨ret, bytes⟩, received⟩, recv, ran⟩ := ok_of_bind ran
  obtain ⟨refused, rfl, env, rfl⟩ | ⟨env, sock, open_, nonempty, fits, _, rfl, rfl⟩ :=
    World.recv_cases recv
  · simp only [refused, if_true, Except.ok.injEq, Prod.mk.injEq] at ran
    obtain ⟨rfl, rfl⟩ := ran
    exact ⟨.single (act_env _ env), state⟩
  · have positive := List.length_pos_of_ne_nil nonempty
    simp only at ran
    rw [if_neg (by omega)] at ran
    cases ran
    exact ⟨.single (.discard env sock bytes.length state open_ (by lia)), state⟩

theorem tryReadOpen_runs : Runs Act (tryReadOpen bound ret) before fun _ _ => True := by
  refine Runs.read ?_
  split
  · refine Runs.bind _ (skipOnce_runs state ‹_›) fun ret after state => ?_
    split
    · exact Runs.pure trivial
    · refine Runs.read ?_
      split
      · exact Runs.pure trivial
      · exact tryReadTag_runs state (by omega)
  · exact tryReadTag_runs state (by omega)

end

theorem runs_check {α : Type} {step : Step α} {before : World} {post : α → World → Prop}
    (check : ∀ result after, step before = .ok (result, after) → after = before ∧ post result before) :
    Runs Act (atomically step) before post := by
  refine runs_atomically fun result after ran => ?_
  obtain ⟨rfl, holds⟩ := check result after ran
  exact ⟨.refl, holds⟩

theorem checkSock_runs {before : World} :
    Runs Act (atomically checkSock) before fun _ after => after = before ∧ before.con.sock.isSome := by
  refine runs_check fun _ after ran => ?_
  unfold checkSock at ran
  split at ran <;> cases ran
  exact ⟨rfl, rfl, ‹_›⟩

theorem tryReadFrom_runs (bound : Nat) (ret : Int) (before : World) :
    Runs Act (tryReadFrom bound ret) before fun _ _ => True := by
  refine Runs.read ?_
  split
  · exact Runs.pure trivial
  · exact Runs.pure trivial
  · exact Runs.pure trivial
  · rename_i state
    refine Runs.bind _ checkSock_runs fun _ after ⟨same, open_⟩ => ?_
    subst same
    exact tryReadConnecting_runs state open_
  · rename_i state
    refine Runs.bind _ checkSock_runs fun _ after ⟨same, open_⟩ => ?_
    subst same
    exact tryReadNegotiating_runs state open_
  · rename_i state
    refine Runs.bind _ checkSock_runs fun _ after ⟨same, _⟩ => ?_
    subst same
    exact tryReadOpen_runs state

theorem tryRead_runs (bound : Nat) (before : World) :
    Runs Act (tryRead bound) before fun _ _ => True := by
  refine Runs.iterate (fun _ _ => True) (fun ret before _ => ?_) trivial
  exact Runs.mono (tryReadFrom_runs bound ret before) fun next _ _ => by cases next <;> trivial

theorem conWorkOnce_runs (bound : Nat) (before : World) :
    Runs Act (conWorkOnce bound) before fun _ _ => True := by
  refine Runs.bind (fun _ _ => True) (runs_atomically fun _ _ ran => ?_) fun closed before _ => ?_
  · cases ran
    exact ⟨.single (.quiet before.env before.con.writePending false before.con.backoff),
      trivial⟩
  split
  · exact Runs.pure trivial
  refine Runs.bind (fun _ _ => True) (runs_atomically fun _ _ ran => ?_) fun backoff before _ => ?_
  · unfold conBackoff at ran
    split at ran
    · obtain ⟨_, _, ran⟩ := ok_of_bind ran
      cases ran
      exact ⟨.single (.quiet _ before.con.writePending before.con.sockClosed _), trivial⟩
    · cases ran
      exact ⟨.refl, trivial⟩
  split
  · exact Runs.pure trivial
  refine Runs.read ?_
  split
  · exact Runs.pure trivial
  refine Runs.bind (fun _ _ => True) (runs_check fun _ _ ran => ?_) fun _ middle _ => ?_
  · unfold checkNoSock at ran
    split at ran <;> cases ran
    exact ⟨rfl, trivial⟩
  split
  · exact Runs.pure trivial
  refine Runs.bind _ (tryRead_runs bound middle) fun ret middle _ => ?_
  split
  · exact Runs.pure trivial
  · exact Runs.bind _ (tryWrite_runs bound middle) fun _ _ _ => Runs.pure trivial

theorem conWork_runs (bound : Nat) (before : World) :
    Runs Act (conWork bound) before fun _ _ => True := by
  refine Runs.bind (fun _ _ => True) (Runs.iterate (fun _ _ => True) (fun _ before _ => ?_) trivial)
    fun fault before _ => ?_
  · exact Runs.mono (conWorkOnce_runs bound before) fun next _ _ => by cases next <;> trivial
  · split
    · refine Runs.bind (fun _ _ => True)
        (runs_atomically fun _ _ ran => ⟨.single (.fault ran), trivial⟩) fun _ middle _ => ?_
      exact Runs.mono (dropMutex_runs middle) fun _ _ _ => trivial
    · exact Runs.pure trivial

theorem Event.run_runs (bound : Nat) (event : Event) (before : World) :
    Runs Act (event.run bound) before fun _ _ => True := by
  cases event with
  | call request =>
    exact runs_atomically fun _ after ran => ⟨.single (.call request ran), trivial⟩
  | work env =>
    refine Runs.bind (fun _ _ => True) (runs_atomically fun _ _ ran => ?_)
      fun _ middle _ => conWork_runs bound middle
    cases ran
    exact ⟨.single (act_env _ _), trivial⟩

theorem runEvents_runs (bound : Nat) (events : List Event) (before : World) :
    Runs Act (runEvents bound events) before fun _ _ => True := by
  induction events generalizing before with
  | nil => exact Runs.pure trivial
  | cons event rest ih =>
    exact Runs.bind _ (event.run_runs bound before) fun _ middle _ => ih middle

theorem runEvents_preserves {holds : World → Prop}
    (step : ∀ before after, Act before after → holds before → holds after)
    (bound : Nat) (events : List Event) {before : World} (start : holds before) :
    holds (outcome (runEvents bound events) before) :=
  preserved step (runEvents_runs bound events before).outcome start

end KmodCeph.Messenger
