import KmodCeph.Messenger.Inbound
import KmodCeph.Messenger.Outbound

namespace KmodCeph.Messenger

open Lib List World

def lastTag : List Entry → Option Nat
  | [] => none
  | .tag received :: _ => some received
  | .opened _ _ :: _ => none
  | _ :: rest => lastTag rest

/-- The message revoked since the latest tag: the end of its frame, and how many
bytes of its front, middle and data had been read. -/
def revocation : List Entry → Option (Nat × Nat)
  | [] => none
  | .tag _ :: _ => none
  | .opened _ _ :: _ => none
  | .consumed (.revoked length body) _ _ _ :: rest => (lastTag rest).map fun tag => (tag + 1 + length, body)
  | _ :: rest => revocation rest

/-- Every tag that follows a revocation is read where the body is counted twice. -/
def Resynced : List Entry → Prop
  | [] => True
  | .tag received :: rest =>
    (∀ frameEnd body, revocation rest = some (frameEnd, body) → received = frameEnd + body) ∧ Resynced rest
  | _ :: rest => Resynced rest

def Entry.marks : Entry → Bool
  | .tag _ | .opened _ _ | .consumed (.revoked _ _) _ _ _ => true
  | _ => false

section

variable {log : List Entry} {entry : Entry}

theorem unmarked_cons (unmarked : entry.marks = false) :
    lastTag (entry :: log) = lastTag log ∧ revocation (entry :: log) = revocation log ∧
      (Resynced (entry :: log) ↔ Resynced log) := by
  cases entry with
  | consumed how => cases how <;> first | exact ⟨rfl, rfl, Iff.rfl⟩ | cases unmarked
  | tag | opened => cases unmarked
  | _ => exact ⟨rfl, rfl, Iff.rfl⟩

theorem unmarked_append {added : List Entry} (unmarked : ∀ entry ∈ added, entry.marks = false) :
    lastTag (added ++ log) = lastTag log ∧ revocation (added ++ log) = revocation log ∧
      (Resynced (added ++ log) ↔ Resynced log) := by
  induction added with
  | nil => exact ⟨rfl, rfl, Iff.rfl⟩
  | cons entry added ih =>
    obtain ⟨tags, revocations, resynced⟩ := ih fun other member => unmarked other (by simp [member])
    obtain ⟨tag, revoked, synced⟩ := @unmarked_cons (added ++ log) entry (unmarked entry (by simp))
    exact ⟨tag.trans tags, revoked.trans revocations, synced.trans resynced⟩

theorem Resynced.of_suffix {received : Nat} {rest : List Entry} (resynced : Resynced log)
    (suffix : .tag received :: rest <:+ log) {frameEnd body : Nat}
    (revoked : revocation rest = some (frameEnd, body)) : received = frameEnd + body := by
  induction log with
  | nil => simp at suffix
  | cons entry log ih =>
    rcases List.suffix_cons_iff.mp suffix with equal | later
    · obtain ⟨rfl, rfl⟩ := List.cons.inj equal
      exact resynced.1 frameEnd body revoked
    · refine ih ?_ later
      cases entry <;> first | exact resynced.2 | exact resynced

end

def Input.dataLen (input : Input) : Nat :=
  (MsgHeader.decode input.inHdr).dataLen.toNat

/-- How far a message has been read: its header, and then with its message in
hand. -/
structure Progress (received tag : Nat) (input : Input) : Prop where
  low : 0 ≤ input.inBasePos
  high : input.inBasePos ≤ 66
  header : input.inMsg = none → input.inBasePos < 53 ∨ checkHeader input = .next →
    (received : Int) = tag + 1 + input.inBasePos
  body : ∀ msg, input.inMsg = some msg → (received : Int) = tag + 1 + input.inBasePos + msg.taken input.dataLen ∧
    (input.dataLen ≠ 0 → msg.cursor.resid ≤ msg.cursor.totalResid ∧ msg.cursor.totalResid ≤ input.dataLen)

/-- Where the next frame is looked for after an incoming message has been revoked. -/
structure Aligned (world : World) : Prop where
  inbound : Inbound world
  resynced : Resynced world.log
  shaking : world.con.state = .connecting ∧ world.con.sock.isSome ∨ world.con.state = .negotiating →
    revocation world.log = none
  waiting : world.con.state = .opened → ∀ frameEnd body, revocation world.log = some (frameEnd, body) →
    world.con.input.inTag = cephMsgrTagReady ∧ world.con.input.inBasePos ≤ 0 ∧
      (world.received : Int) - world.con.input.inBasePos = frameEnd + body
  reading : world.con.state = .opened → world.con.input.inTag = cephMsgrTagMsg →
    ∃ tag, lastTag world.log = some tag ∧ Progress world.received tag world.con.input

section

variable {before after : World}

def Unmarked (before after : World) : Prop :=
  ∃ added, after.log = added ++ before.log ∧ ∀ entry ∈ added, entry.marks = false

theorem Unmarked.same (log : after.log = before.log) : Unmarked before after :=
  ⟨[], log, forall_mem_nil _⟩

theorem Unmarked.note {entry : Entry} (log : after.log = entry :: before.log) (unmarked : entry.marks = false) :
    Unmarked before after :=
  ⟨[entry], log, by simpa using unmarked⟩

theorem Unmarked.eq (unmarked : Unmarked before after) :
    lastTag after.log = lastTag before.log ∧ revocation after.log = revocation before.log ∧
      (Resynced after.log ↔ Resynced before.log) := by
  obtain ⟨added, log, none_⟩ := unmarked
  rw [log]
  exact unmarked_append none_

theorem Aligned.shut (aligned : Aligned before) (inbound : Inbound after) (unmarked : Unmarked before after)
    (state : after.con.state = .closed ∨ after.con.state = .preopen ∨ after.con.state = .standby ∨
      after.con.state = .connecting ∧ after.con.sock = none) : Aligned after := by
  refine ⟨inbound, unmarked.eq.2.2.mpr aligned.resynced, fun shaking => ?_, fun opened => ?_, fun opened => ?_⟩
  · rcases state with state | state | state | ⟨state, none_⟩
    · simp [state] at shaking
    · simp [state] at shaking
    · simp [state] at shaking
    · simp [state, none_] at shaking
  · rw [opened] at state
    simp at state
  · rw [opened] at state
    simp at state

theorem received_of_same (sock : after.con.sock = before.con.sock) : after.received = before.received := by
  rw [World.received, World.received, sock]

section

variable (aligned : Aligned before)
include aligned

theorem Aligned.keep (inbound : Inbound after) (unmarked : Unmarked before after)
    (state : after.con.state = before.con.state) (sock : after.con.sock = before.con.sock)
    (input : after.con.input.position = before.con.input.position) : Aligned after := by
  obtain ⟨tags, revocations, resynced⟩ := unmarked.eq
  simp only [Input.position, Prod.mk.injEq] at input
  obtain ⟨inSeq, inHdr, inMsg, inBasePos, inTag⟩ := input
  have received := received_of_same sock
  refine ⟨inbound, resynced.mpr aligned.resynced, ?_, ?_, ?_⟩
  · rw [state, sock, revocations]
    exact aligned.shaking
  · rw [state, revocations, inTag, inBasePos, received]
    exact aligned.waiting
  · rw [state, tags, inTag, received]
    intro opened isMsg
    obtain ⟨tag, last, progress⟩ := aligned.reading opened isMsg
    have check : checkHeader after.con.input = checkHeader before.con.input := by
      simp only [checkHeader, inHdr, inSeq]
    refine ⟨tag, last, ?_, ?_, ?_, ?_⟩
    · rw [inBasePos]
      exact progress.low
    · rw [inBasePos]
      exact progress.high
    · rw [inMsg, inBasePos, check]
      exact progress.header
    · rw [inMsg, inBasePos, Input.dataLen, inHdr]
      exact progress.body

theorem Aligned.negotiating (inbound : Inbound after) (unmarked : Unmarked before after)
    (shaking : before.con.state = .connecting ∧ before.con.sock.isSome ∨ before.con.state = .negotiating)
    (state : after.con.state ≠ .opened) : Aligned after := by
  obtain ⟨_, revocations, resynced⟩ := unmarked.eq
  exact ⟨inbound, resynced.mpr aligned.resynced, fun _ => revocations.trans (aligned.shaking shaking),
    fun opened => absurd opened state, fun opened => absurd opened state⟩

theorem Aligned.await (inbound : Inbound after) (unmarked : Unmarked before after)
    (none_ : revocation before.log = none) (tag : after.con.input.inTag ≠ cephMsgrTagMsg) : Aligned after := by
  obtain ⟨_, revocations, resynced⟩ := unmarked.eq
  refine ⟨inbound, resynced.mpr aligned.resynced, ?_, fun _ frameEnd body some_ => ?_, fun _ isMsg => absurd isMsg tag⟩
  · intro _
    exact revocations.trans none_
  · rw [revocations, none_] at some_
    cases some_

/-- No message has been revoked since the latest tag unless a tag is awaited. -/
theorem Aligned.unrevoked {tag : UInt8} (reads : before.Reads tag)
    (other : tag ≠ cephMsgrTagReady) : revocation before.log = none := by
  cases revoked : revocation before.log with
  | none => rfl
  | some pair =>
    have ready := (aligned.waiting reads.1 pair.1 pair.2 revoked).1
    exact absurd (reads.2.symm.trans ready) other

theorem Aligned.revokeIncoming {id : Nat} (inbound : Inbound after)
    (ran : cephMsgRevokeIncoming id before = .ok (⟨⟩, after)) : Aligned after := by
  obtain rfl | ⟨msg, inMsg, _, rfl⟩ := cephMsgRevokeIncoming_ok ran
  · exact aligned
  · have holds := aligned.inbound.inMsg msg inMsg
    refine ⟨inbound, aligned.resynced, fun shaking => ?_, fun opened frameEnd body some_ => ?_, fun _ isMsg => ?_⟩
    · rcases shaking with ⟨connecting, _⟩ | negotiating
      · exact absurd connecting holds.connecting
      · exact absurd negotiating holds.negotiating
    · obtain ⟨tag, last, progress⟩ := aligned.reading opened (holds.tag opened)
      have high := progress.high
      have placed := (progress.body msg inMsg).1
      have pair : some (tag + 1 + (MsgHeader.decode before.con.input.inHdr).frameLen,
          msg.taken before.con.input.dataLen) = some (frameEnd, body) := by
        rw [← some_]
        change _ = (lastTag before.log).map _
        rw [last]
        rfl
      simp only [Option.some.injEq, Prod.mk.injEq] at pair
      refine ⟨rfl, ?_, ?_⟩
      · simp only [World.note, withInput, MsgHeader.bodyLen, sizeofMsgHeader, sizeofMsgFooter]
        lia
      · change (before.received : Int) - _ = _
        rw [placed, ← pair.1, ← pair.2]
        simp only [World.note, withInput, MsgHeader.bodyLen, MsgHeader.frameLen, sizeofMsgHeader, sizeofMsgFooter]
        lia
    · exact absurd (show cephMsgrTagReady = cephMsgrTagMsg from isMsg) (by decide)

theorem Aligned.call {request : Call} (inbound : Inbound after)
    (ran : request.step before = .ok (⟨⟩, after)) : Aligned after := by
  cases request with
  | send id =>
    obtain ⟨_, rfl⟩ | ⟨_, _, _, state, _, step, rfl⟩ := cephConSend_ok ran
    · exact aligned.keep inbound (.note rfl rfl) rfl rfl rfl
    · rcases step with rfl | ⟨_, rfl⟩
      · exact aligned.keep inbound (.note rfl rfl) rfl rfl rfl
      · exact aligned.shut inbound (.note rfl rfl) (.inr (.inl rfl))
  | revoke id =>
    have queued (world : World) : Unmarked world (revokeQueued id world) ∧
        (revokeQueued id world).con.state = world.con.state ∧ (revokeQueued id world).con.sock = world.con.sock ∧
        (revokeQueued id world).con.input = world.con.input := by
      unfold revokeQueued
      split
      · exact ⟨.note rfl rfl, rfl, rfl, rfl⟩
      · exact ⟨.same rfl, rfl, rfl, rfl⟩
    have sending (world : World) : Unmarked world (revokeSending id world) ∧
        (revokeSending id world).con.state = world.con.state ∧ (revokeSending id world).con.sock = world.con.sock ∧
        (revokeSending id world).con.input = world.con.input := by
      unfold revokeSending
      split
      · exact ⟨.note rfl rfl, rfl, rfl, rfl⟩
      · exact ⟨.same rfl, rfl, rfl, rfl⟩
    change cephMsgRevoke id before = _ at ran
    unfold cephMsgRevoke at ran
    split at ran <;> cases ran
    · obtain ⟨⟨first, firstLog, firstNone⟩, firstState, firstSock, firstInput⟩ := queued before
      obtain ⟨⟨second, secondLog, secondNone⟩, state, sock, input⟩ := sending (revokeQueued id before)
      refine aligned.keep inbound ⟨second ++ first, ?_, fun entry member => ?_⟩ (state.trans firstState)
        (sock.trans firstSock) (by rw [input, firstInput])
      · rw [secondLog, firstLog, append_assoc]
      · exact (List.mem_append.mp member).elim (secondNone entry) (firstNone entry)
    · exact aligned
  | revokeIncoming id => exact aligned.revokeIncoming inbound ran
  | keepalive =>
    obtain ⟨state, _, _, _, step, rfl⟩ := cephConKeepalive_ok ran
    rcases step with rfl | ⟨_, rfl⟩
    · exact aligned.keep inbound (.same rfl) rfl rfl rfl
    · exact aligned.shut inbound (.same rfl) (.inr (.inl rfl))
  | close =>
    obtain ⟨_, rfl⟩ := cephConClose_ok ran
    exact aligned.shut inbound (.note rfl rfl) (.inl rfl)
  | reopen type num addr =>
    cases ran
    exact aligned.shut inbound (.same rfl) (.inr (.inl rfl))
  | sockClosed =>
    cases ran
    exact aligned.keep inbound (.same rfl) rfl rfl rfl
  | write id contents =>
    obtain rfl | ⟨_, _, rfl⟩ := fillMessage_ok ran
    · exact aligned
    · exact aligned.keep inbound (.same rfl) rfl rfl rfl

theorem Aligned.tag {sock : Sock} (reads : before.Reads cephMsgrTagReady)
    (position : 0 ≤ before.con.input.inBasePos) (some_ : before.con.sock = some sock) :
    Resynced (.tag sock.received :: before.log) := by
  refine ⟨fun frameEnd body revoked => ?_, aligned.resynced⟩
  obtain ⟨_, low, placed⟩ := aligned.waiting reads.1 frameEnd body revoked
  have received : before.received = sock.received := by simp [World.received, some_]
  lia

theorem Aligned.tagMsg {env : Env} {sock : Sock} (reads : before.Reads cephMsgrTagReady)
    (position : 0 ≤ before.con.input.inBasePos) (some_ : before.con.sock = some sock)
    (none_ : before.con.input.inMsg = none)
    (inbound : Inbound (((before.took env sock 1).note (.tag sock.received)).withInput
      { before.con.input with inTag := cephMsgrTagMsg, inBasePos := 0, inFrontCrc := 0
                              inMiddleCrc := 0, inDataCrc := 0 })) :
    Aligned (((before.took env sock 1).note (.tag sock.received)).withInput
      { before.con.input with inTag := cephMsgrTagMsg, inBasePos := 0, inFrontCrc := 0
                              inMiddleCrc := 0, inDataCrc := 0 }) := by
  refine ⟨inbound, aligned.tag reads position some_, fun _ => rfl, fun _ _ _ revoked => (by cases revoked),
    fun _ _ => ⟨sock.received, rfl, le_rfl, show (0 : Int) ≤ 66 by decide, fun _ _ => ?_, fun msg inMsg => ?_⟩⟩
  · simp [World.received, withInput, World.note, took]
  · exact absurd (none_.symm.trans inMsg) (by simp)

theorem Aligned.progress (inbound : Inbound after) (reads : before.Reads cephMsgrTagMsg)
    (log : after.log = before.log)
    (progress : ∀ tag, Progress before.received tag before.con.input → Progress after.received tag after.con.input) :
    Aligned after := by
  have none_ := aligned.unrevoked reads (by decide)
  refine ⟨inbound, log ▸ aligned.resynced, fun shaking => ?_, fun _ frameEnd body some_ => ?_, fun _ _ => ?_⟩
  · exact log ▸ none_
  · rw [log, none_] at some_
    cases some_
  · obtain ⟨place, last, old⟩ := aligned.reading reads.1 reads.2
    exact ⟨place, log ▸ last, progress place old⟩

end

theorem received_took {env : Env} {sock : Sock} {count : Nat} (some_ : before.con.sock = some sock) :
    (before.took env sock count).received = before.received + count := by
  simp [World.received, took, some_]

section

variable {received tag : Nat} {input : Input}
variable (progress : Progress received tag input)
include progress

theorem Progress.install {msg : InMsg}
    (none_ : input.inMsg = none) (check : checkHeader input = .next) (front : msg.front = [])
    (middle : msg.middle.getD [] = [])
    (data : (MsgHeader.decode input.inHdr).dataLen.toNat ≠ 0 → ∃ cursor, cephMsgDataCursorInit msg.data msg.dataLength
      (MsgHeader.decode input.inHdr).dataLen.toNat cursor = .ok msg.cursor) :
    Progress received tag { input with inMsg := some msg } := by
  have placed := progress.header none_ (.inr check)
  refine ⟨progress.low, progress.high, nofun, fun other some_ => ?_⟩
  obtain rfl : msg = other := Option.some.inj some_
  have lengths : Input.dataLen { input with inMsg := some msg } = input.dataLen := rfl
  rw [lengths, InMsg.taken, front, middle]
  by_cases payload : input.dataLen = 0
  · rw [payload]
    exact ⟨by simpa using placed, fun nonempty => absurd rfl nonempty⟩
  · obtain ⟨cursor, started⟩ := data payload
    obtain ⟨_, _, item, _, counts⟩ := cephMsgDataCursorInit_counts started
    have total : msg.cursor.totalResid = input.dataLen := counts.totalResid
    have resid := counts.resid
    rw [total]
    refine ⟨by simpa using placed, fun _ => ⟨?_, le_rfl⟩⟩
    rw [resid]
    exact Nat.min_le_left _ _

theorem Progress.read {count : Nat} {msg next : InMsg} {crc : UInt32} (inMsg : input.inMsg = some msg)
    (taken : next.taken input.dataLen = msg.taken input.dataLen + count)
    (resid : input.dataLen ≠ 0 → next.cursor.resid ≤ next.cursor.totalResid ∧ next.cursor.totalResid ≤ input.dataLen) :
    Progress (received + count) tag { input with inMsg := some next, inDataCrc := crc } := by
  obtain ⟨placed, _⟩ := progress.body msg inMsg
  refine ⟨progress.low, progress.high, nofun, fun other some_ => ?_⟩
  obtain rfl : next = other := Option.some.inj some_
  refine ⟨?_, resid⟩
  have lengths : Input.dataLen { input with inMsg := some next, inDataCrc := crc } = input.dataLen := rfl
  rw [lengths, taken]
  lia

end

theorem taken_extend {section_ : Section} {msg : InMsg} {bytes : List UInt8} {dataLen : Nat}
    (middle : section_ = .middle → msg.middle.isSome) :
    (section_.extend msg bytes).taken dataLen = msg.taken dataLen + bytes.length := by
  cases section_ with
  | front =>
    simp only [Section.extend, InMsg.taken, length_append]
    lia
  | middle =>
    obtain ⟨part, some_⟩ := Option.isSome_iff_exists.mp (middle rfl)
    simp only [Section.extend, InMsg.taken, some_, Option.map_some, Option.getD_some, length_append]
    lia

theorem Aligned.step (act : Act before after) (aligned : Aligned before) : Aligned after := by
  have inbound := aligned.inbound.step act
  cases act with
  | call request ran => exact aligned.call inbound ran
  | fault ran =>
    obtain ⟨_, rfl⟩ | ⟨_, _, _, _, _, state, rfl⟩ := conFault_ok ran
    · exact aligned.shut inbound (.same rfl) (.inl rfl)
    · refine aligned.shut inbound (.same rfl) ?_
      rcases state with rfl | rfl
      · exact .inr (.inr (.inl rfl))
      · exact .inr (.inl rfl)
  | openSocket _ ran =>
    obtain ⟨none_, _, ⟨_, _, rfl⟩ | ⟨_, _, _, rfl⟩⟩ := openSocket_ok ran
    · exact aligned.shut inbound (.same rfl) (.inr (.inr (.inr ⟨rfl, none_⟩)))
    · exact ⟨inbound, aligned.resynced, fun _ => rfl, (fun h => by cases h), (fun h => by cases h)⟩
  | queueFooter _ _ _ _ _ ran =>
    obtain ⟨_, rfl⟩ := prepareWriteMessageFooter_ok ran
    exact aligned.keep inbound (.same rfl) rfl rfl rfl
  | prepareMessage _ _ ran =>
    obtain ⟨id, _, con, _, _, _, _, _, _, sneaked, _, _, rfl⟩ := prepareWriteMessage_ok ran
    have unmarked : ∀ entry ∈ before.transmitEntries id, entry.marks = false := by
      intro entry member
      unfold transmitEntries at member
      split at member <;> simp only [mem_cons, not_mem_nil, or_false] at member
      · rcases member with rfl | rfl <;> rfl
      · rw [member]
        rfl
    obtain ⟨rfl, _⟩ | ⟨_, _, _, _, rfl⟩ := sneakAck_ok sneaked <;>
      exact aligned.keep inbound ⟨_, rfl, unmarked⟩ rfl rfl rfl
  | prepareAck _ _ ran =>
    obtain ⟨_, _, _, _, rfl⟩ := prepareWriteAck_ok ran
    exact aligned.keep inbound (.same rfl) rfl rfl rfl
  | prepareKeepalive _ _ ran =>
    obtain ⟨_, _, rfl⟩ := prepareWriteKeepalive_ok ran
    exact aligned.keep inbound (.same rfl) rfl rfl rfl
  | readHello _ _ _ _ some_ state =>
    refine aligned.negotiating inbound (.same rfl) (state.imp_left fun connecting => ⟨connecting, by simp [some_]⟩) ?_
    rcases state with state | state <;> exact state ▸ (by simp)
  | greet state open_ ran =>
    obtain ⟨_, _, _, _, rfl⟩ | ⟨_, rfl⟩ := processBanner_ok ran
    · exact aligned.keep inbound (.same rfl) rfl rfl rfl
    · exact aligned.negotiating inbound (.note rfl rfl) (.inl ⟨state, open_⟩) (by simp)
  | negotiate => exact aligned.keep inbound (.same rfl) rfl rfl rfl
  | queueConnect _ ran =>
    obtain ⟨_, _, _, _, _, _, _, rfl⟩ := queueConnect_ok ran
    exact aligned.keep inbound (.note rfl rfl) rfl rfl rfl
  | adopt => exact aligned.keep inbound (.same rfl) rfl rfl rfl
  | prepareRead state => exact aligned.negotiating inbound (.same rfl) (.inr state) (state ▸ (by simp))
  | reply state => exact aligned.keep inbound (.note rfl rfl) rfl rfl rfl
  | reset state _ ran =>
    obtain ⟨_, rfl⟩ := resetConnection_ok ran
    exact aligned.negotiating inbound (.note rfl rfl) (.inr state) (state ▸ (by simp))
  | accept _ _ _ _ _ _ state _ _ _ _ tag =>
    refine aligned.await inbound (.same rfl) (aligned.shaking (.inr state)) ?_
    rcases tag with rfl | rfl
    · exact show cephMsgrTagSeq ≠ cephMsgrTagMsg by decide
    · exact show cephMsgrTagReady ≠ cephMsgrTagMsg by decide
  | discard env sock count state some_ fits =>
    have received := @received_took before env sock count some_
    refine ⟨inbound, aligned.resynced, fun shaking => ?_, fun _ frameEnd body revoked => ?_, fun _ isMsg => ?_⟩
    · change before.con.state = .connecting ∧ _ ∨ before.con.state = .negotiating at shaking
      simp [state] at shaking
    · obtain ⟨ready, low, placed⟩ := aligned.waiting state frameEnd body revoked
      refine ⟨ready, fits, ?_⟩
      change ((before.took env sock count).received : Int) - (before.con.input.inBasePos + count) = _
      rw [received]
      lia
    · obtain ⟨tag, last, progress⟩ := aligned.reading state isMsg
      have low := progress.low
      obtain rfl : count = 0 := by lia
      have same : ((before.took env sock 0).advance (0 : Nat)).con.input = before.con.input := by
        simp [World.advance, withInput, took]
      refine ⟨tag, last, ?_⟩
      rw [same]
      change Progress (before.took env sock 0).received tag _
      rw [received]
      exact progress
  | tagMsg env sock reads position some_ none_ => exact aligned.tagMsg reads position some_ none_ inbound
  | tagOther env sock tag inBasePos reads position some_ other =>
    exact ⟨inbound, aligned.tag reads position some_, fun _ => rfl, fun _ _ _ revoked => (by cases revoked),
      fun _ isMsg => absurd isMsg other⟩
  | tagClose env sock reads position some_ =>
    exact ⟨inbound, aligned.tag reads position some_, fun _ => rfl, (by simp), (by simp)⟩
  | readHdr env sock count inHdr reads some_ position fits =>
    refine aligned.progress inbound reads rfl fun tag progress => ?_
    have none_ : before.con.input.inMsg = none := by
      cases inMsg : before.con.input.inMsg with
      | none => rfl
      | some msg =>
        have far := (aligned.inbound.inMsg msg inMsg).position
        omega
    have placed := progress.header none_ (.inl position)
    have low := progress.low
    refine ⟨?_, ?_, fun _ _ => ?_, fun msg inMsg => absurd (none_.symm.trans inMsg) (by simp)⟩
    · simp only [World.advance, withInput]
      lia
    · simp only [World.advance, withInput]
      omega
    · change ((before.took env sock count).received : Int) = tag + 1 + (before.con.input.inBasePos + count)
      rw [received_took some_]
      lia
  | stale reads =>
    exact aligned.await inbound (.same rfl) (aligned.unrevoked reads (by decide))
      (show cephMsgrTagReady ≠ cephMsgrTagMsg by decide)
  | leak => exact aligned.keep inbound (.note rfl rfl) rfl rfl rfl
  | skipMessage next =>
    exact aligned.await inbound (.note rfl rfl) (aligned.unrevoked next.1 (by decide))
      (show cephMsgrTagReady ≠ cephMsgrTagMsg by decide)
  | install msg next _ front middle data =>
    exact aligned.progress inbound next.1 rfl fun tag progress =>
      progress.install next.2.2.2 next.2.2.1 front middle data
  | readSection env sock bytes section_ msg reads some_ middle =>
    refine aligned.progress inbound reads.1 rfl fun tag progress => ?_
    change Progress (before.took env sock bytes.length).received tag _
    rw [received_took some_]
    refine progress.read reads.2 (taken_extend middle) ?_
    have resid := (progress.body msg reads.2).2
    cases section_ <;> exact resid
  | setCrc section_ => cases section_ <;> exact aligned.keep inbound (.same rfl) rfl rfl rfl
  | @readData _ cursor env sock count msg data crc reads some_ payload ran =>
    refine aligned.progress inbound reads.1 rfl fun tag progress => ?_
    change Progress (before.took env sock count).received tag _
    rw [received_took some_]
    obtain ⟨resid, total⟩ := (progress.body msg reads.2).2 payload
    obtain ⟨fits, counted⟩ := cephMsgDataAdvance_counts ran
    have moved : cursor.resid ≤ cursor.totalResid ∧ cursor.totalResid = msg.cursor.totalResid - count := by
      rcases counted with ⟨counts, _⟩ | ⟨_, _, item, _, counts⟩
      · refine ⟨?_, counts.totalResid⟩
        rw [counts.resid, counts.totalResid]
        lia
      · refine ⟨?_, counts.totalResid⟩
        rw [counts.resid, counts.totalResid]
        exact Nat.min_le_left _ _
    refine progress.read reads.2 ?_ fun _ => ⟨moved.1, ?_⟩
    · simp only [InMsg.taken, moved.2]
      lia
    · simp only [moved.2]
      lia
  | readFooter env sock count footer msg reads some_ fits =>
    refine aligned.progress inbound reads.1 rfl fun tag progress => ?_
    obtain ⟨placed, resid⟩ := progress.body msg reads.2
    have low := progress.low
    refine ⟨?_, fits, (fun h => by cases h), fun other inMsg => ?_⟩
    · simp only [World.advance, withInput]
      omega
    · obtain rfl : { msg with footer } = other := Option.some.inj inMsg
      refine ⟨?_, resid⟩
      change ((before.took env sock count).received : Int) =
        tag + 1 + (before.con.input.inBasePos + count) + msg.taken before.con.input.dataLen
      rw [received_took some_]
      lia
  | dispatch reads ran =>
    obtain ⟨msg, _, _, inMsg, rfl⟩ := takeInMsg_cases ran
    have none_ := aligned.unrevoked reads (by decide)
    have holds := aligned.inbound.inMsg msg inMsg
    refine ⟨inbound, aligned.resynced, fun _ => none_, fun _ _ _ some_ => absurd (none_.symm.trans some_) (by simp), fun _ _ => ?_⟩
    obtain ⟨tag, last, progress⟩ := aligned.reading reads.1 reads.2
    refine ⟨tag, last, progress.low, progress.high, fun _ either => ?_,
      fun msg taken => absurd taken (Option.some_ne_none msg).symm⟩
    exfalso
    rcases either with early | check
    · have far := holds.position
      simp only at early
      omega
    · have next := seq_of_checkHeader check
      simp only [holds.hdr] at next
      simp at next
  | finishRead reads =>
    exact aligned.await inbound (.same rfl) (aligned.unrevoked reads (by decide))
      (show cephMsgrTagReady ≠ cephMsgrTagMsg by decide)
  | readAck env sock count inTempAck reads =>
    have none_ : revocation before.log = none := by
      rcases reads with reads | reads <;> exact aligned.unrevoked reads (by decide)
    refine aligned.await inbound (.same rfl) none_ ?_
    rcases reads with reads | reads
    · exact reads.2.trans_ne (by decide)
    · exact reads.2.trans_ne (by decide)
  | processAck reads ran =>
    have none_ : revocation before.log = none := by
      rcases reads with reads | reads <;> exact aligned.unrevoked reads (by decide)
    have acks := acks_of_processAck ran
    have unmarked : Unmarked before after := by
      refine ⟨_, acks.log, fun entry member => ?_⟩
      simp only [ackEntries, mem_cons, mem_reverse, mem_map] at member
      rcases member with rfl | ⟨_, _, rfl⟩ <;> rfl
    obtain ⟨_, rfl⟩ := processAck_ok ran
    exact aligned.await inbound unmarked none_ (show cephMsgrTagReady ≠ cephMsgrTagMsg by decide)
  | _ => exact aligned.keep inbound (.same rfl) rfl rfl rfl

end

/-- In every run the reader discards the bytes of a revoked message that have
not been read, and reads the next tag right after its frame, exactly if nothing
of its front, middle and data had been read when it was revoked. -/
theorem revoked_resync (bound : Nat) (events : List Event) (start : World) (begins : start.Begins)
    (between : start.con.input.inTag ≠ cephMsgrTagMsg) :
    let world := outcome (runEvents bound events) start
    (∀ frameEnd body, revocation world.log = some (frameEnd, body) → world.con.state = .opened →
      (- world.con.input.inBasePos = frameEnd - world.received ↔ body = 0)) ∧
    ∀ received rest frameEnd body, .tag received :: rest <:+ world.log →
      revocation rest = some (frameEnd, body) → (received = frameEnd ↔ body = 0) := by
  intro world
  have start : Aligned start := by
    refine ⟨begins.inbound, ?_, fun _ => ?_, fun _ _ _ some_ => ?_, fun _ isMsg => absurd isMsg between⟩
    · rw [begins.log]
      trivial
    · rw [begins.log]
      rfl
    · rw [begins.log] at some_
      cases some_
  have aligned : Aligned world := runEvents_preserves (fun _ _ => Aligned.step) bound events start
  refine ⟨fun frameEnd body revoked opened => ?_, fun received rest frameEnd body suffix revoked => ?_⟩
  · obtain ⟨_, _, placed⟩ := aligned.waiting opened frameEnd body revoked
    lia
  · have placed := aligned.resynced.of_suffix suffix revoked
    lia

def oneByteHdr : MsgHeader :=
  { MsgHeader.zero with
    seq := 1, frontLen := 1
    crc := crc32c 0 ({ MsgHeader.zero with seq := 1, frontLen := 1 } : MsgHeader).encodeChecked }

def oneByteStart : World :=
  openWorld (cephMsgrTagMsg :: oneByteHdr.encode ++ [7] ++ replicate 13 0 ++ replicate 3 cephMsgrTagAck)

def oneByteEvents (recvs : List Int) : List Event :=
  [.work { Env.silent with recvs, allocs := [.msg (emptyMsg MsgHeader.zero) true] }, .call (.revokeIncoming 0),
    .work { Env.silent with recvs := [100, 1] }]

theorem oneByteStart_begins : oneByteStart.Begins ∧ oneByteStart.con.input.inTag ≠ cephMsgrTagMsg :=
  ⟨⟨rfl, rfl, rfl⟩, by decide +kernel⟩

theorem oneByteEvents_log :
    (outcome (runEvents 20 (oneByteEvents [1, 53])) oneByteStart).log =
      [.tag 68, .consumed (.revoked 67 0) 1 0 1, .tag 0] := by
  decide +kernel

theorem revoked_resync_unread :
    let log := (outcome (runEvents 20 (oneByteEvents [1, 53])) oneByteStart).log
    log.head? = some (.tag 68) ∧ revocation log.tail = some (68, 0) ∧
    ∀ received rest frameEnd body, .tag received :: rest <:+ log → revocation rest = some (frameEnd, body) →
      (received = frameEnd ↔ body = 0) := by
  have resync := (revoked_resync 20 (oneByteEvents [1, 53]) oneByteStart oneByteStart_begins.1 oneByteStart_begins.2).2
  rw [oneByteEvents_log] at resync ⊢
  exact ⟨rfl, rfl, resync⟩

theorem oneByteEvents_read_log :
    (outcome (runEvents 20 (oneByteEvents [1, 53, 1])) oneByteStart).log =
      [.tag 69, .consumed (.revoked 67 1) 1 0 1, .tag 0] := by
  decide +kernel

/-- `ceph_msg_revoke_incoming` does not count the bytes that are in the front. -/
theorem revoked_desync : ¬ ∀ (bound : Nat) (events : List Event) (start : World), start.Begins →
    start.con.input.inTag ≠ cephMsgrTagMsg →
    ∀ received rest frameEnd body, .tag received :: rest <:+ (outcome (runEvents bound events) start).log →
      revocation rest = some (frameEnd, body) → received = frameEnd := by
  intro holds
  have resync := holds 20 (oneByteEvents [1, 53, 1]) oneByteStart oneByteStart_begins.1 oneByteStart_begins.2
  rw [oneByteEvents_read_log] at resync
  exact absurd (resync 69 _ 68 1 (suffix_refl _) rfl) (by decide)

end KmodCeph.Messenger
