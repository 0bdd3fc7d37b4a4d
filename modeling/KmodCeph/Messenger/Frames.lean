import KmodCeph.Messenger.Kvecs
import KmodCeph.Messenger.Outbound

namespace KmodCeph.Messenger

open Lib Function List World Kvec

/-- A keepalive byte, an ack, or a message with the lengths its header
announces. -/
inductive Frame : List UInt8 → Prop where
  | keepalive : Frame [cephMsgrTagKeepalive]
  | ack (seq : List UInt8) (length : seq.length = 8) : Frame (cephMsgrTagAck :: seq)
  | message (hdr front middle data footer : List UInt8) (hdrLen : hdr.length = sizeofMsgHeader)
      (frontLen : front.length = (MsgHeader.decode hdr).frontLen.toNat)
      (middleLen : middle.length = (MsgHeader.decode hdr).middleLen.toNat)
      (dataLen : data.length = (MsgHeader.decode hdr).dataLen.toNat)
      (footerLen : footer.length = sizeofMsgFooter) :
      Frame (cephMsgrTagMsg :: (hdr ++ front ++ middle ++ data ++ footer))

/-- A concatenation of complete frames. -/
def Whole (bytes : List UInt8) : Prop :=
  ∃ frames : List (List UInt8), (∀ frame ∈ frames, Frame frame) ∧ bytes = frames.flatten

def Framed (bytes : List UInt8) : Prop :=
  ∃ whole part, Whole whole ∧ bytes = whole ++ part ∧ (part = [] ∨ ∃ rest, rest ≠ [] ∧ Frame (part ++ rest))

theorem Whole.nil : Whole [] := ⟨[], nofun, rfl⟩

theorem Framed.nil : Framed [] := ⟨[], [], .nil, rfl, .inl rfl⟩

theorem Whole.append {first second : List UInt8} (left : Whole first) (right : Whole second) :
    Whole (first ++ second) := by
  obtain ⟨frames, all, rfl⟩ := left
  obtain ⟨others, rest, rfl⟩ := right
  refine ⟨frames ++ others, fun frame member => ?_, List.flatten_append.symm⟩
  rcases List.mem_append.mp member with member | member
  · exact all frame member
  · exact rest frame member

variable {bytes rest : List UInt8}

theorem Frame.whole (frame : Frame bytes) : Whole bytes :=
  ⟨[bytes], by simpa using frame, by simp⟩

theorem Framed.of_whole (whole : Whole (bytes ++ rest)) : Framed bytes := by
  obtain ⟨frames, all, equal⟩ := whole
  induction frames generalizing bytes with
  | nil =>
    simp only [flatten_nil, append_eq_nil_iff] at equal
    exact ⟨[], [], .nil, by simp [equal.1], .inl rfl⟩
  | cons frame frames ih =>
    rw [flatten_cons, append_eq_append_iff] at equal
    obtain ⟨more, whole, _⟩ | ⟨more, rfl, later⟩ := equal
    · have first : Frame (bytes ++ more) := whole ▸ all frame (by simp)
      cases more with
      | nil => exact ⟨bytes, [], (List.append_nil bytes ▸ first).whole, by simp, .inl rfl⟩
      | cons byte more => exact ⟨[], bytes, .nil, rfl, .inr ⟨byte :: more, by simp, first⟩⟩
    · obtain ⟨complete, part, allOf, rfl, proper⟩ :=
        ih (fun other member => all other (by simp [member])) later.symm
      exact ⟨frame ++ complete, part, (all frame (by simp)).whole.append allOf, by simp, proper⟩

def Ref.msg : Ref → Option Nat
  | .hdr id | .front id | .middle id | .footer id => some id
  | _ => none

/-- The cursor of a message whose data is being sent. -/
structure Msg.Walks (msg : Msg) : Prop where
  resid : msg.cursor.resid ≤ msg.cursor.totalResid
  done : msg.cursor.resid = 0 → msg.cursor.totalResid = 0
  items : ∀ item ∈ msg.data, item.length ≠ 0

/-- The bytes of the message in hand that are not among the kvecs: its data
that is left, and its footer. -/
def World.owed (world : World) : Nat :=
  match world.con.output.outMsg with
  | none => 0
  | some id => if world.con.output.outMsgDone then 0 else (world.msgs id).cursor.totalResid + sizeofMsgFooter

/-- What is on the wire, with the kvecs that are pending. -/
def World.said (world : World) : List UInt8 :=
  world.wire world.sockNo ++ world.pendingBytes

def World.Stamped (world : World) : Prop :=
  ∀ id, (world.msgs id).con = true ∨ world.con.output.outMsg = some id →
    (world.msgs id).hdr.src = world.msgr.instName

/-- An open connection that writes frames after some first bytes. -/
structure Sending (hello : List UInt8) (world : World) : Prop where
  state : world.con.state = .opened
  skip : world.con.output.outSkip = 0
  holds : world.con.output.Holds world.con.output.pending
  fits : Fits world.bytesAt world.con.output.pending
  owned : ∀ kvec ∈ world.con.output.pending, ∀ id, kvec.base.msg = some id →
    world.con.output.outMsg = some id
  walks : ∀ id, world.con.output.outMsg = some id → world.con.output.outMsgDone = false → (world.msgs id).Walks
  whole : ∀ tail, tail.length = world.owed → ∃ body, Whole body ∧ world.said ++ tail = hello ++ body

def Msg.content (msg : Msg) : MsgHeader × MsgFooter × List UInt8 × Option (List UInt8) × List DataItem × Cursor :=
  (msg.hdr, msg.footer, msg.front, msg.middle, msg.data, msg.cursor)

section

variable {hello : List UInt8} {before after : World}

theorem bytesAt_of_same {base : Ref} (msgr : after.msgr.myEncAddr = before.msgr.myEncAddr)
    (ack : after.con.output.outTempAck = before.con.output.outTempAck)
    (connect : after.con.hello.outConnect = before.con.hello.outConnect)
    (msgs : ∀ id, base.msg = some id → (after.msgs id).content = (before.msgs id).content) :
    after.bytesAt base = before.bytesAt base := by
  cases base with
  | hdr id | front id | middle id | footer id =>
    have same := msgs id rfl
    simp only [Msg.content, Prod.mk.injEq] at same
    simp only [bytesAt, same]
  | _ => simp only [bytesAt, msgr, ack, connect]

structure Keeps (before after : World) : Prop where
  state : after.con.state = before.con.state
  output : after.con.output = before.con.output
  addr : after.msgr.myEncAddr = before.msgr.myEncAddr
  connect : after.con.hello.outConnect = before.con.hello.outConnect
  sockNo : after.sockNo = before.sockNo
  wire : after.wire = before.wire
  msgs : ∀ id, before.con.output.outMsg = some id → (after.msgs id).content = (before.msgs id).content

theorem Sending.keep (sending : Sending hello before) (keeps : Keeps before after) : Sending hello after := by
  obtain ⟨state, output, addr, connect, sockNo, wire, msgs⟩ := keeps
  have memory : ∀ kvec ∈ before.con.output.pending, after.bytesAt kvec.base = before.bytesAt kvec.base :=
    fun kvec member => bytesAt_of_same addr (by rw [output]) connect fun id base =>
      msgs id (sending.owned kvec member id base)
  have said : after.said = before.said := by
    rw [World.said, World.said, wire, sockNo, pendingBytes_eq, pendingBytes_eq, output,
      gather_congr memory]
  have cursors (id : Nat) (some_ : before.con.output.outMsg = some id) :
      (after.msgs id).cursor = (before.msgs id).cursor ∧ (after.msgs id).data = (before.msgs id).data := by
    have same := msgs id some_
    simp only [Msg.content, Prod.mk.injEq] at same
    exact ⟨same.2.2.2.2.2, same.2.2.2.2.1⟩
  have owed : after.owed = before.owed := by
    rw [World.owed, World.owed, output]
    cases some_ : before.con.output.outMsg with
    | none => rfl
    | some id => simp only [(cursors id some_).1]
  refine ⟨state.trans sending.state, ?_, ?_, ?_, ?_, fun id some_ unfinished => ?_, ?_⟩
  · rw [output]
    exact sending.skip
  · rw [output]
    exact sending.holds
  · rw [output]
    exact sending.fits.congr memory
  · rw [output]
    exact sending.owned
  · rw [output] at some_ unfinished
    obtain ⟨resid, done, items⟩ := sending.walks id some_ unfinished
    obtain ⟨cursor, data⟩ := cursors id some_
    exact ⟨cursor ▸ resid, cursor ▸ done, data ▸ items⟩
  · rw [said, owed]
    exact sending.whole

theorem Sending.drained (sending : Sending hello before) (left : before.con.output.outKvecLeft = 0) :
    before.con.output.pending = [] ∧ before.said = before.wire before.sockNo := by
  have none_ : before.con.output.pending = [] :=
    eq_nil_of_length_eq_zero (by rw [← sending.holds.left, left])
  rw [World.said, pendingBytes_eq, none_]
  exact ⟨rfl, List.append_nil _⟩

theorem wrote_said {next : Next PUnit Int} {output : Output} {env : Env} {taken : List UInt8}
    (holds : before.con.output.Holds before.con.output.pending) (fits : Fits before.bytesAt before.con.output.pending)
    (pending : taken <+: before.pendingBytes)
    (ran : advanceKvecs before.con.output taken.length = .ok (next, output)) :
    Advances before.bytesAt before.con.output output taken.length ∧
    (∀ base, ((before.wrote env taken).withOutput output).bytesAt base = before.bytesAt base) ∧
    ((before.wrote env taken).withOutput output).said = before.said := by
  have enough : taken.length ≤ kvecsLen before.con.output.pending := by
    rw [← length_gather fits]
    exact pending.length_le
  have advances := holds.advance fits enough ran
  have standing := advances.standing
  simp only [Output.standing, Prod.mk.injEq] at standing
  have memory (base : Ref) : ((before.wrote env taken).withOutput output).bytesAt base = before.bytesAt base :=
    bytesAt_of_same rfl standing.2.2.2 rfl fun _ _ => rfl
  have rest := advances.bytes
  refine ⟨advances, memory, ?_⟩
  rw [World.said, pendingBytes_eq, gather_congr fun kvec _ => memory kvec.base]
  simp only [withOutput, World.wrote, update_self]
  rw [rest, World.said, append_assoc]
  obtain ⟨later, whole⟩ := pending
  rw [← pendingBytes_eq, ← whole, drop_left]

variable {output : Output} {env : Env} {taken : List UInt8} {msg : Msg} {cursor : Cursor} {fresh : Bool}
variable {world : World} {id number : Nat} {request : Call}

theorem Sending.writeKvec {next : Next PUnit Int}
    (sending : Sending hello before) (pending : taken <+: before.pendingBytes)
    (ran : advanceKvecs before.con.output taken.length = .ok (next, output)) :
    Sending hello ((before.wrote env taken).withOutput output) := by
  obtain ⟨advances, memory, said⟩ := @wrote_said before next output env taken sending.holds sending.fits pending ran
  have standing := advances.standing
  simp only [Output.standing, Prod.mk.injEq] at standing
  obtain ⟨outMsg, outMsgDone, outSkip, _⟩ := standing
  refine ⟨sending.state, outSkip.trans sending.skip, advances.holds, ?_, fun kvec member id base => ?_,
    fun id some_ unfinished => ?_, ?_⟩
  · exact advances.fits.congr fun kvec _ => memory kvec.base
  · obtain ⟨old, member, same⟩ := advances.bases kvec member
    exact outMsg.trans (sending.owned old member id (same ▸ base))
  · exact sending.walks id (outMsg ▸ some_) (outMsgDone ▸ unfinished)
  · have owed : ((before.wrote env taken).withOutput output).owed = before.owed := by
      simp only [World.owed, withOutput, World.wrote, outMsg, outMsgDone]
    rw [said, owed]
    exact sending.whole

theorem finishKvecs_said (holds : before.con.output.Holds before.con.output.pending)
    (fits : Fits before.bytesAt before.con.output.pending) (empty : before.con.output.outKvecBytes ≤ 0) :
    (finishKvecs before.con.output).pending = [] ∧ (finishKvecs before.con.output).Holds [] ∧
      (before.withOutput (finishKvecs before.con.output)).said = before.said := by
  have bytes := holds.bytes
  have none_ : before.pendingBytes = [] :=
    eq_nil_of_length_eq_zero (by rw [pendingBytes_eq, length_gather fits]; omega)
  have after : (finishKvecs before.con.output).pending = [] := by
    simp [Output.pending, finishKvecs]
  refine ⟨after, .of_left holds.size rfl (show before.con.output.outKvecBytes = 0 by omega), ?_⟩
  rw [World.said, World.said, none_, pendingBytes_eq]
  rfl

theorem Sending.finishKvecs (sending : Sending hello before) (empty : before.con.output.outKvecBytes ≤ 0) :
    Sending hello (before.withOutput (Messenger.finishKvecs before.con.output)) := by
  obtain ⟨after, holds, said⟩ := finishKvecs_said sending.holds sending.fits empty
  refine ⟨sending.state, sending.skip, ?_, ?_, ?_, sending.walks, ?_⟩
  · exact after ▸ holds
  · simp only [withOutput, after]
    exact fun _ h => by cases h
  · simp only [withOutput, after]
    simp
  · rw [said]
    exact sending.whole

theorem Msg.Walks.advance {count : Nat} {footer : MsgFooter}
    (walks : msg.Walks) (ran : cephMsgDataAdvance msg.data msg.cursor count = .ok (fresh, cursor)) :
    Msg.Walks { msg with cursor, footer } ∧ cursor.totalResid + count = msg.cursor.totalResid := by
  obtain ⟨resid, done, items⟩ := walks
  obtain ⟨fits, ⟨counts, last⟩ | ⟨used, more, item, member, counts⟩⟩ := cephMsgDataAdvance_counts ran
  · refine ⟨⟨?_, fun zero => ?_, items⟩, ?_⟩
    · simp only [counts.resid, counts.totalResid]
      lia
    · simp only [counts.resid, counts.totalResid] at zero ⊢
      lia
    · simp only [counts.totalResid]
      lia
  · have nonempty := items item member
    refine ⟨⟨?_, fun zero => ?_, items⟩, ?_⟩
    · simp only [counts.resid, counts.totalResid]
      lia
    · simp only [counts.resid, counts.totalResid] at zero ⊢
      lia
    · simp only [counts.totalResid]
      lia

theorem World.owed_of_some (some_ : world.con.output.outMsg = some id)
    (unfinished : world.con.output.outMsgDone = false) :
    world.owed = (world.msgs id).cursor.totalResid + sizeofMsgFooter := by
  simp [World.owed, some_, unfinished]

theorem World.owed_of_done
    (done : world.con.output.outMsg = none ∨ world.con.output.outMsgDone = true) : world.owed = 0 := by
  unfold World.owed
  rcases done with none_ | done
  · rw [none_]
  · rw [done]
    split <;> rfl

theorem Sending.writeData {piece : Piece} (sending : Sending hello before) (drained : before.Drained)
    (some_ : before.con.output.outMsg = some id) (unfinished : before.con.output.outMsgDone = false)
    (ran : cephMsgDataAdvance (before.msgs id).data (before.msgs id).cursor taken.length = .ok (fresh, cursor)) :
    Sending hello ((before.wrote env taken).withMsg id { before.msgs id with
      cursor, footer := { (before.msgs id).footer with
        dataCrc := dataCrcAfter before (before.msgs id) piece } }) := by
  obtain ⟨none_, said⟩ := sending.drained drained.2.2
  have pending : ((before.wrote env taken).withMsg id { before.msgs id with
      cursor, footer := { (before.msgs id).footer with
        dataCrc := dataCrcAfter before (before.msgs id) piece } }).con.output.pending = [] := none_
  obtain ⟨walks, total⟩ := (sending.walks id some_ unfinished).advance ran
  refine ⟨sending.state, sending.skip, sending.holds, ?_, sending.owned, fun other same _ => ?_, fun tail length => ?_⟩
  · rw [pending]
    exact nofun
  · obtain rfl : id = other := Option.some.inj (some_.symm.trans same)
    simp only [withMsg, update_self]
    exact walks
  · have owed := length.trans (owed_of_some (by exact some_) (by exact unfinished))
    simp only [withMsg, update_self] at owed
    have before_ := sending.whole (taken ++ tail) (by
      rw [owed_of_some some_ unfinished, length_append]
      lia)
    rw [World.said, pendingBytes_eq, pending]
    simp only [withMsg, World.wrote, update_self, gather_nil, List.append_nil, append_assoc]
    rwa [said] at before_

theorem Sending.queueFooter {id : Nat} {flags : UInt8} (sending : Sending hello before) (drained : before.Drained)
    (some_ : before.con.output.outMsg = some id) (unfinished : before.con.output.outMsgDone = false)
    (sent : (before.msgs id).cursor.resid = 0)
    (ran : prepareWriteMessageFooter ((before.withMsg id { before.msgs id with
      footer := { (before.msgs id).footer with flags } }).withOutput
        (conOutKvecReset before.con.output)) id = .ok after) : Sending hello after := by
  obtain ⟨_, said⟩ := sending.drained drained.2.2
  obtain ⟨room, equal⟩ := prepareWriteMessageFooter_ok ran
  have holds : after.con.output.Holds [⟨.footer id, 0, sizeofMsgFooter⟩] := by
    rw [equal]
    exact sending.holds.reset.store rfl room rfl rfl rfl rfl
  have length : (after.bytesAt (.footer id)).length = sizeofMsgFooter := MsgFooter.length_encode _
  have done : after.con.output.outMsgDone = true := by rw [equal]; rfl
  have pending := holds.pending
  refine ⟨?_, ?_, pending.symm ▸ holds, ?_, ?_, ?_, fun tail empty => ?_⟩
  · rw [equal]
    exact sending.state
  · rw [equal]
    exact sending.skip
  · rw [pending]
    intro kvec member
    rw [mem_singleton] at member
    subst member
    exact fits_whole length
  · rw [pending]
    intro kvec member other base
    rw [mem_singleton] at member
    subst member
    cases base
    rw [equal]
    exact some_
  · intro other _ unfinished
    rw [done] at unfinished
    cases unfinished
  · rw [owed_of_done (.inr done)] at empty
    have nothing := (sending.walks id some_ unfinished).done sent
    have whole := sending.whole (after.bytesAt (.footer id)) (by
      rw [owed_of_some some_ unfinished, nothing, length, Nat.zero_add])
    have wire : after.wire after.sockNo = before.wire before.sockNo := by rw [equal]; rfl
    rw [eq_nil_of_length_eq_zero empty, List.append_nil, World.said, pendingBytes_eq, pending, wire, ← said,
      gather_cons, gather_nil, List.append_nil, read_whole length]
    exact whole

theorem Sending.finishMessage (sending : Sending hello before) (drained : before.Drained)
    (done : before.con.output.outMsgDone = true) :
    Sending hello (before.withOutput { before.con.output with outMsg := none }) := by
  obtain ⟨none_, _⟩ := sending.drained drained.2.2
  have pending : ({ before.con.output with outMsg := none } : Output).pending = [] := none_
  refine ⟨sending.state, sending.skip, sending.holds.of_same rfl rfl rfl rfl, sending.fits, ?_, (fun _ h => by cases h), ?_⟩
  · simp only [withOutput, pending]
    simp
  · have whole := sending.whole
    rw [owed_of_done (.inr done)] at whole
    rw [owed_of_done (.inl rfl)]
    exact whole

theorem Sending.start {kvecs : List Kvec} (sending : Sending hello before) (idle : before.Idle)
    (state : after.con.state = before.con.state) (sockNo : after.sockNo = before.sockNo)
    (wire : after.wire = before.wire) (skip : after.con.output.outSkip = 0) (holds : after.con.output.Holds kvecs)
    (fits : Fits after.bytesAt kvecs)
    (owned : ∀ kvec ∈ kvecs, ∀ id, kvec.base.msg = some id → after.con.output.outMsg = some id)
    (walks : ∀ id, after.con.output.outMsg = some id → after.con.output.outMsgDone = false → (after.msgs id).Walks)
    (frames : ∀ tail, tail.length = after.owed → Whole (gather after.bytesAt kvecs ++ tail)) :
    Sending hello after := by
  obtain ⟨_, said⟩ := sending.drained idle.1.2.2
  refine ⟨state.trans sending.state, skip, ?_, ?_, ?_, walks, fun tail length => ?_⟩
  · exact holds.pending.symm ▸ holds
  · rw [holds.pending]
    exact fits
  · rw [holds.pending]
    exact owned
  · obtain ⟨body, whole, equal⟩ := sending.whole [] (by rw [owed_of_done (.inl idle.2)]; rfl)
    refine ⟨body ++ (gather after.bytesAt kvecs ++ tail), whole.append (frames tail length), ?_⟩
    rw [World.said, pendingBytes_eq, holds.pending, wire, sockNo, ← said, append_assoc, ← append_assoc hello,
      ← equal, List.append_nil]

theorem gather_ackKvecs (world : World) :
    Fits world.bytesAt ackKvecs ∧ gather world.bytesAt ackKvecs =
      cephMsgrTagAck :: leBytes 8 world.con.output.outTempAck.toNat := by
  have tag : (world.bytesAt .tagAck).length = 1 := rfl
  have seq : (world.bytesAt .outTempAck).length = 8 := length_leBytes _ _
  constructor
  · intro kvec member
    simp only [ackKvecs, mem_cons, not_mem_nil, or_false] at member
    rcases member with rfl | rfl
    · exact fits_whole tag
    · exact fits_whole seq
  · simp only [ackKvecs, gather_cons, gather_nil, read_whole tag, read_whole seq]
    rfl

theorem frame_ack (value : Nat) : Frame (cephMsgrTagAck :: leBytes 8 value) :=
  .ack _ (length_leBytes _ _)

theorem Sending.prepareAck (sending : Sending hello before) (idle : before.Idle)
    (ran : prepareWriteAck before = .ok (⟨⟩, after)) : Sending hello after := by
  obtain ⟨tagged, output, first, second, rfl⟩ := prepareWriteAck_ok ran
  obtain ⟨holds, cur, firstSame⟩ := sending.holds.reset.add rfl first
  have stamped : ({ tagged with outTempAck := before.con.input.inSeq } : Output).Holds _ :=
    holds.of_same rfl rfl rfl rfl
  obtain ⟨holds, _, secondSame⟩ := stamped.add cur second
  simp only [Output.standing, Prod.mk.injEq] at firstSame secondSame
  obtain ⟨outMsg, outMsgDone, outSkip, _⟩ := secondSame
  have none_ : output.outMsg = none := outMsg.trans (firstSame.1.trans idle.2)
  refine sending.start idle rfl rfl rfl (outSkip.trans (firstSame.2.2.1.trans sending.skip))
    (show Output.Holds _ ackKvecs from holds.of_same rfl rfl rfl rfl)
    (gather_ackKvecs _).1 ?_ ?_ ?_
  · intro kvec member id base
    simp only [ackKvecs, mem_cons, not_mem_nil, or_false] at member
    rcases member with rfl | rfl <;> cases base
  · intro id some_
    exact absurd (none_.symm.trans some_) nofun
  · intro tail length
    rw [owed_of_done (.inl none_)] at length
    rw [eq_nil_of_length_eq_zero length, List.append_nil, (gather_ackKvecs _).2]
    exact (frame_ack _).whole

theorem Sending.prepareKeepalive (sending : Sending hello before) (idle : before.Idle)
    (ran : prepareWriteKeepalive before = .ok (⟨⟩, after)) : Sending hello after := by
  obtain ⟨output, first, rfl⟩ := prepareWriteKeepalive_ok ran
  obtain ⟨holds, cur, same⟩ := sending.holds.reset.add rfl first
  simp only [Output.standing, Prod.mk.injEq] at same
  have none_ : output.outMsg = none := same.1.trans idle.2
  refine sending.start idle rfl rfl rfl (same.2.2.1.trans sending.skip) holds ?_ ?_ ?_ ?_
  · intro kvec member
    rw [nil_append, mem_singleton] at member
    subst member
    exact le_rfl
  · intro kvec member id base
    rw [nil_append, mem_singleton] at member
    subst member
    cases base
  · intro id some_
    exact absurd (none_.symm.trans some_) nofun
  · intro tail length
    rw [owed_of_done (.inl none_)] at length
    rw [eq_nil_of_length_eq_zero length, List.append_nil]
    exact Frame.keepalive.whole

theorem gather_messageKvecs {world : World} {id : Nat} {msg : Msg} (front : (world.msgs id).front = msg.front)
    (middle : (world.msgs id).middle = msg.middle) :
    Fits world.bytesAt (messageKvecs id msg) ∧ gather world.bytesAt (messageKvecs id msg) =
      cephMsgrTagMsg :: ((world.msgs id).hdr.encode ++ msg.front ++ msg.middle.getD []) := by
  have tag : (world.bytesAt .tagMsg).length = 1 := rfl
  have hdr : (world.bytesAt (.hdr id)).length = sizeofMsgHeader := MsgHeader.length_encode _
  have frontLen : (world.bytesAt (.front id)).length = msg.front.length := by rw [← front]; rfl
  have base : Fits world.bytesAt
      [⟨.tagMsg, 0, 1⟩, ⟨.hdr id, 0, sizeofMsgHeader⟩, ⟨.front id, 0, msg.front.length⟩] := by
    intro kvec member
    simp only [mem_cons, not_mem_nil, or_false] at member
    rcases member with rfl | rfl | rfl
    · exact fits_whole tag
    · exact fits_whole hdr
    · exact fits_whole frontLen
  have bytes : gather world.bytesAt
      [⟨.tagMsg, 0, 1⟩, ⟨.hdr id, 0, sizeofMsgHeader⟩, ⟨.front id, 0, msg.front.length⟩] =
        cephMsgrTagMsg :: ((world.msgs id).hdr.encode ++ msg.front) := by
    simp only [gather_cons, gather_nil, read_whole tag, read_whole hdr, read_whole frontLen]
    simp [bytesAt, front]
  cases some_ : msg.middle with
  | none =>
    simp only [messageKvecs, some_, List.append_nil, Option.getD_none]
    exact ⟨base, bytes⟩
  | some part =>
    have read : world.bytesAt (.middle id) = part := by
      simp only [bytesAt, middle, some_, Option.getD_some]
    have length : (world.bytesAt (.middle id)).length = part.length := by rw [read]
    simp only [messageKvecs, some_, Option.getD_some]
    refine ⟨fun kvec member => ?_, ?_⟩
    · rcases List.mem_append.mp member with member | member
      · exact base kvec member
      · rw [mem_singleton] at member
        subst member
        exact fits_whole length
    · rw [gather_append, bytes, gather_cons, gather_nil, read_whole length, read]
      simp

theorem frame_message (front : (world.msgs id).front = msg.front) (middle : (world.msgs id).middle = msg.middle)
    (frontLen : (world.msgs id).hdr.frontLen.toNat = msg.front.length)
    (middleLen : (world.msgs id).hdr.middleLen.toNat = (msg.middle.getD []).length) {data footer : List UInt8}
    (dataLen : data.length = (world.msgs id).hdr.dataLen.toNat) (footerLen : footer.length = sizeofMsgFooter) :
    Frame (gather world.bytesAt (messageKvecs id msg) ++ (data ++ footer)) := by
  rw [(gather_messageKvecs front middle).2, cons_append, ← append_assoc]
  refine .message _ _ _ _ _ (MsgHeader.length_encode _) ?_ ?_ ?_ footerLen <;>
    rw [MsgHeader.decode_encode]
  · exact frontLen.symm
  · exact middleLen.symm
  · exact dataLen

theorem sneakAck_holds {con next : Con} (holds : con.output.Holds []) (cur : con.output.outKvecCur = 0)
    (ran : sneakAck con = .ok next) : ∃ acks, (acks = [] ∨ acks = ackKvecs) ∧ next.output.Holds acks ∧
      next.output.outKvecCur = 0 ∧ next.output.outMsgDone = con.output.outMsgDone ∧
      next.output.outSkip = con.output.outSkip ∧ next.state = con.state := by
  obtain ⟨rfl, _⟩ | ⟨tagged, output, first, second, rfl⟩ := sneakAck_ok ran
  · exact ⟨[], .inl rfl, holds, cur, rfl, rfl, rfl⟩
  · obtain ⟨holds, cur, firstSame⟩ := holds.add cur first
    have stamped : ({ tagged with outTempAck := con.input.inSeq } : Output).Holds _ :=
      holds.of_same rfl rfl rfl rfl
    obtain ⟨holds, cur, secondSame⟩ := stamped.add cur second
    simp only [Output.standing, Prod.mk.injEq] at firstSame secondSame
    exact ⟨ackKvecs, .inr rfl, holds, cur, secondSame.2.1.trans firstSame.2.1,
      secondSame.2.2.1.trans firstSame.2.2.1, rfl⟩

theorem whole_acks {world : World} {acks : List Kvec} (either : acks = [] ∨ acks = ackKvecs) :
    Fits world.bytesAt acks ∧ Whole (gather world.bytesAt acks) ∧ ∀ kvec ∈ acks, kvec.base.msg = none := by
  rcases either with rfl | rfl
  · exact ⟨nofun, .nil, nofun⟩
  · obtain ⟨fits, bytes⟩ := gather_ackKvecs world
    refine ⟨fits, bytes ▸ (frame_ack _).whole, fun kvec member => ?_⟩
    simp only [ackKvecs, mem_cons, not_mem_nil, or_false] at member
    rcases member with rfl | rfl <;> rfl

theorem messageKvecs_msg : ∀ kvec ∈ messageKvecs id msg, ∀ other, kvec.base.msg = some other → id = other := by
  intro kvec member other base
  cases middle : msg.middle <;>
    simp only [messageKvecs, middle, mem_append, mem_cons, not_mem_nil, or_false] at member
  · rcases member with rfl | rfl | rfl <;> cases base <;> rfl
  · rcases member with (rfl | rfl | rfl) | rfl <;> cases base <;> rfl

theorem World.numbered_lengths (world : World) (id : Nat) (sound : (world.msgs id).sound = true)
    (front : (world.msgs id).hdr.frontLen.toNat = (world.msgs id).front.length) :
    (world.numbered id).hdr.frontLen.toNat = (world.numbered id).front.length ∧
    (world.numbered id).hdr.middleLen.toNat = ((world.numbered id).middle.getD []).length ∧
    (world.numbered id).hdr.dataLen.toNat = (world.numbered id).dataLength ∧
    ∀ item ∈ (world.numbered id).data, item.length ≠ 0 := by
  simp only [Msg.sound, Bool.decide_and, Bool.and_eq_true, decide_eq_true_eq] at sound
  unfold World.numbered
  split <;> exact ⟨front, sound.1, sound.2.1, sound.2.2⟩

theorem Sending.prepareMessage (sending : Sending hello before) (idle : before.Idle)
    (ran : prepareWriteMessage before = .ok (⟨⟩, after))
    (sound : ∀ id seq rest, after.log ≠ .transmitted id seq false :: rest) : Sending hello after := by
  obtain ⟨id, rest, con, kvecs, final, output, queued, _, front, sneaked, added, payload, equal⟩ :=
    prepareWriteMessage_ok ran
  have isSound : (before.msgs id).sound = true := by
    refine eq_true_of_ne_false fun unsound =>
      sound id (before.numbered id).hdr.seq ((before.transmitEntries id).tail ++ before.log) ?_
    rw [equal, transmitEntries, unsound]
    rfl
  obtain ⟨frontLen, middleLen, dataLen, items⟩ := before.numbered_lengths id isSound front
  have reset : ({ conOutKvecReset before.con.output with outKvecIsMsg := true, outMsgDone := false } : Output).Holds
      [] := sending.holds.reset.of_same rfl rfl rfl rfl
  obtain ⟨acks, either, holds, cur, done, skip, state⟩ := sneakAck_holds (by exact reset) (by rfl) sneaked
  obtain ⟨holds, cur, same⟩ := Output.Holds.addMessage
    (holds.of_same rfl rfl rfl rfl : ({ con.output with outMsg := some id } : Output).Holds acks) cur added
  simp only [Output.standing, Prod.mk.injEq] at same
  have afterOutput : after.con.output = output := by rw [equal]
  have afterMsg : after.msgs id = final := by rw [equal]; exact update_self _ _ _
  obtain ⟨fitsAcks, wholeAcks, basesAcks⟩ := @whole_acks after acks either
  have skipped : kvecs.outSkip = 0 := same.2.2.1.trans (skip.trans sending.skip)
  have bases : ∀ kvec ∈ acks ++ messageKvecs id (before.numbered id), ∀ other,
      kvec.base.msg = some other → id = other := by
    intro kvec member other base
    rcases List.mem_append.mp member with member | member
    · exact absurd ((basesAcks kvec member).symm.trans base) (by simp)
    · exact messageKvecs_msg kvec member other base
  obtain ⟨empty, rfl, room, rfl⟩ | ⟨nonempty, cursor, begun, rfl, rfl⟩ := payload
  · have outMsg : after.con.output.outMsg = some id := by rw [afterOutput]; exact same.1
    have doneNow : after.con.output.outMsgDone = true := by rw [afterOutput]; rfl
    have message := @gather_messageKvecs after id (before.numbered id) (by rw [afterMsg]; rfl) (by rw [afterMsg]; rfl)
    have footerLen : (after.bytesAt (.footer id)).length = sizeofMsgFooter := MsgFooter.length_encode _
    refine start sending idle (by rw [equal]; exact state) (by rw [equal]) (by rw [equal])
      (by rw [afterOutput]; exact skipped)
      (by rw [afterOutput]; exact holds.store cur room rfl cur rfl rfl) ?_ ?_ ?_ ?_
    · intro kvec member
      rcases List.mem_append.mp member with member | member
      · rcases List.mem_append.mp member with member | member
        · exact fitsAcks kvec member
        · exact message.1 kvec member
      · rw [mem_singleton] at member
        subst member
        exact fits_whole footerLen
    · intro kvec member other base
      rw [outMsg]
      rcases List.mem_append.mp member with member | member
      · rw [bases kvec member other base]
      · rw [mem_singleton] at member
        subst member
        exact base
    · intro other _ unfinished
      rw [doneNow] at unfinished
      cases unfinished
    · intro tail length
      rw [owed_of_done (.inr doneNow)] at length
      rw [eq_nil_of_length_eq_zero length, List.append_nil, gather_append, gather_append, append_assoc]
      refine wholeAcks.append (Frame.whole ?_)
      rw [gather_cons, gather_nil, List.append_nil, read_whole footerLen, ← nil_append (after.bytesAt _)]
      refine frame_message (by rw [afterMsg]; rfl) (by rw [afterMsg]; rfl) (by rw [afterMsg]; exact frontLen)
        (by rw [afterMsg]; exact middleLen) ?_ footerLen
      rw [afterMsg]
      exact (dataLen.trans empty).symm
  · have outMsg : after.con.output.outMsg = some id := by rw [afterOutput]; exact same.1
    have unfinished : after.con.output.outMsgDone = false := by
      rw [afterOutput]
      exact same.2.1.trans done
    have message := @gather_messageKvecs after id (before.numbered id) (by rw [afterMsg]; rfl) (by rw [afterMsg]; rfl)
    obtain ⟨_, _, item, member, counts⟩ := cephMsgDataCursorInit_counts begun
    have small : (before.numbered id).dataLength % 2 ^ 32 = (before.numbered id).dataLength := by
      rw [← dataLen]
      exact Nat.mod_eq_of_lt (UInt32.toNat_lt _)
    rw [small] at counts
    refine start sending idle (by rw [equal]; exact state) (by rw [equal]) (by rw [equal])
      (by rw [afterOutput]; exact skipped)
      (by rw [afterOutput]; exact holds.of_same rfl rfl rfl rfl) ?_ ?_ ?_ ?_
    · intro kvec member
      rcases List.mem_append.mp member with member | member
      · exact fitsAcks kvec member
      · exact message.1 kvec member
    · intro kvec member other base
      rw [outMsg, bases kvec member other base]
    · intro other some_ _
      obtain rfl : id = other := Option.some.inj (outMsg.symm.trans some_)
      have nonzero := items item member
      rw [afterMsg]
      refine ⟨?_, fun zero => ?_, items⟩
      · simp only [counts.resid, counts.totalResid]
        lia
      · simp only [counts.resid, counts.totalResid] at zero ⊢
        lia
    · intro tail length
      rw [owed_of_some outMsg unfinished, afterMsg] at length
      simp only [counts.totalResid] at length
      rw [gather_append, append_assoc]
      refine wholeAcks.append (Frame.whole ?_)
      rw [← take_append_drop (before.numbered id).dataLength tail]
      refine frame_message (by rw [afterMsg]; rfl) (by rw [afterMsg]; rfl) (by rw [afterMsg]; exact frontLen)
        (by rw [afterMsg]; exact middleLen) ?_ ?_
      · rw [afterMsg, List.length_take, length]
        exact (Nat.min_eq_left (by omega)).trans dataLen.symm
      · rw [length_drop, length]
        lia

/-- The message being sent is revoked, or a message is sent whose header does
not announce what it holds. -/
def Entry.breaks : Entry → Bool
  | .interrupted _ => true
  | .transmitted _ _ sound => !sound
  | _ => false

theorem Keeps.of_rfl (con : after.con.state = before.con.state ∧ after.con.output = before.con.output ∧
      after.con.hello.outConnect = before.con.hello.outConnect) (msgr : after.msgr = before.msgr)
    (sockNo : after.sockNo = before.sockNo) (wire : after.wire = before.wire) (msgs : after.msgs = before.msgs) :
    Keeps before after :=
  ⟨con.1, con.2.1, by rw [msgr], con.2.2, sockNo, wire, fun _ _ => by rw [msgs]⟩

theorem Sending.send (sending : Sending hello before) (stamped : before.Stamped)
    (ran : cephConSend id before = .ok (⟨⟩, after)) : Sending hello after := by
  obtain ⟨closed, _⟩ | ⟨_, _, _, state, _, step, rfl⟩ := cephConSend_ok ran
  · rw [sending.state] at closed
    cases closed
  · have same : state = before.con.state := by
      rcases step with same | ⟨standby, _⟩
      · exact same
      · rw [sending.state] at standby
        cases standby
    refine sending.keep ⟨same, rfl, rfl, rfl, rfl, rfl, fun other some_ => ?_⟩
    by_cases equal : other = id
    · subst equal
      have src := stamped other (.inr some_)
      simp only [World.note, withMsg, update_self, Msg.content, World.stamped, ← src]
    · simp [World.note, withMsg, equal]

theorem cephMsgRevoke_calm (ran : cephMsgRevoke id before = .ok (⟨⟩, after))
    (calm : ∀ entry rest, after.log = entry :: rest → entry.breaks = false) :
    after = before ∨ before.con.output.outMsg ≠ some id ∧ after = revokeQueued id before := by
  unfold cephMsgRevoke at ran
  split at ran
  · cases ran
    have output : (revokeQueued id before).con.output = before.con.output := by
      unfold revokeQueued
      split <;> rfl
    by_cases sends : before.con.output.outMsg = some id
    · have interrupted : ∃ rest, (revokeSending id (revokeQueued id before)).log = .interrupted id :: rest := by
        unfold revokeSending
        rw [if_pos (output ▸ sends)]
        exact ⟨_, rfl⟩
      obtain ⟨rest, interrupted⟩ := interrupted
      have := calm _ _ interrupted
      cases this
    · refine .inr ⟨sends, ?_⟩
      unfold revokeSending
      rw [if_neg (output ▸ sends)]
  · cases ran
    exact .inl rfl

theorem Sending.revoke (sending : Sending hello before)
    (calm : ∀ entry rest, after.log = entry :: rest → entry.breaks = false)
    (ran : cephMsgRevoke id before = .ok (⟨⟩, after)) : Sending hello after := by
  obtain rfl | ⟨free, rfl⟩ := cephMsgRevoke_calm ran calm
  · exact sending
  · unfold revokeQueued
    split
    · refine sending.keep ⟨rfl, rfl, rfl, rfl, rfl, rfl, fun other some_ => ?_⟩
      have different : other ≠ id := by
        rintro rfl
        exact free some_
      simp [World.note, withMsg, different]
    · exact sending

section

variable (sending : Sending hello before) (stamped : before.Stamped)
variable (calm : ∀ entry rest, after.log = entry :: rest → entry.breaks = false)
include sending stamped calm

theorem Sending.call (ran : request.step before = .ok (⟨⟩, after)) :
    after.con.sock = none ∨ after.con.state = .preopen ∨ Sending hello after := by
  cases request with
  | send id => exact .inr (.inr (sending.send stamped ran))
  | revoke id => exact .inr (.inr (sending.revoke calm ran))
  | revokeIncoming id =>
    obtain rfl | ⟨_, _, _, rfl⟩ := cephMsgRevokeIncoming_ok ran
    · exact .inr (.inr sending)
    · exact .inr (.inr (sending.keep (.of_rfl ⟨rfl, rfl, rfl⟩ rfl rfl rfl rfl)))
  | keepalive =>
    obtain ⟨state, _, _, _, step, rfl⟩ := cephConKeepalive_ok ran
    rcases step with rfl | ⟨standby, _⟩
    · exact .inr (.inr (sending.keep (.of_rfl ⟨rfl, rfl, rfl⟩ rfl rfl rfl rfl)))
    · rw [sending.state] at standby
      cases standby
  | close =>
    obtain ⟨_, rfl⟩ := cephConClose_ok ran
    exact .inl rfl
  | reopen type num addr =>
    cases ran
    exact .inr (.inl rfl)
  | sockClosed =>
    cases ran
    exact .inr (.inr (sending.keep (.of_rfl ⟨rfl, rfl, rfl⟩ rfl rfl rfl rfl)))
  | write id contents =>
    obtain rfl | ⟨_, free, rfl⟩ := fillMessage_ok ran
    · exact .inr (.inr sending)
    · refine .inr (.inr (sending.keep ⟨rfl, rfl, rfl, rfl, rfl, rfl, fun other some_ => ?_⟩))
      have different : other ≠ id := by
        rintro rfl
        exact free some_
      simp [withMsg, different]

/-- A step of an open connection: the socket is closed, the connection is to
be opened again, or frames are still being written. -/
theorem Sending.step (act : Act before after) :
    after.con.sock = none ∨ after.con.state = .preopen ∨ Sending hello after := by
  have opened := sending.state
  cases act with
  | call request ran => exact sending.call stamped calm ran
  | fault ran =>
    obtain ⟨_, rfl⟩ | ⟨_, _, _, _, _, _, rfl⟩ := conFault_ok ran <;> exact .inl rfl
  | openSocket state => exact absurd (state.symm.trans opened) nofun
  | writeSkip _ _ _ _ skips =>
    rw [sending.skip] at skips
    cases skips
  | writeKvec _ _ _ _ _ _ pending ran => exact .inr (.inr (sending.writeKvec pending ran))
  | finishKvecs _ _ empty => exact .inr (.inr (sending.finishKvecs empty))
  | writeData _ _ _ drained some_ _ unfinished _ ran =>
    exact .inr (.inr (sending.writeData drained some_ unfinished ran))
  | queueFooter _ drained some_ unfinished sent ran =>
    exact .inr (.inr (sending.queueFooter drained some_ unfinished sent ran))
  | finishMessage drained done => exact .inr (.inr (sending.finishMessage drained done))
  | prepareMessage idle _ ran =>
    refine .inr (.inr (sending.prepareMessage idle ran fun id seq rest equal => ?_))
    have := calm _ _ equal
    cases this
  | prepareAck idle _ ran => exact .inr (.inr (sending.prepareAck idle ran))
  | prepareKeepalive idle _ ran => exact .inr (.inr (sending.prepareKeepalive idle ran))
  | readHello _ _ _ _ _ state => rcases state with state | state <;> exact absurd (state.symm.trans opened) nofun
  | greet state => exact absurd (state.symm.trans opened) nofun
  | negotiate _ _ asking => exact absurd (asking.1.symm.trans opened) nofun
  | queueConnect asking => exact absurd (asking.1.symm.trans opened) nofun
  | adopt _ _ state => exact absurd (state.symm.trans opened) nofun
  | prepareRead state => exact absurd (state.symm.trans opened) nofun
  | reply state => exact absurd (state.symm.trans opened) nofun
  | reset state => exact absurd (state.symm.trans opened) nofun
  | resetKvecs state => exact absurd (state.symm.trans opened) nofun
  | accept _ _ _ _ _ _ state => exact absurd (state.symm.trans opened) nofun
  | tagClose => exact .inl rfl
  | setCrc section_ =>
    cases section_ <;> exact .inr (.inr (sending.keep (.of_rfl ⟨rfl, rfl, rfl⟩ rfl rfl rfl rfl)))
  | dispatch _ ran =>
    obtain ⟨_, _, _, _, rfl⟩ := takeInMsg_cases ran
    exact .inr (.inr (sending.keep (.of_rfl ⟨rfl, rfl, rfl⟩ rfl rfl rfl rfl)))
  | processAck _ ran =>
    obtain ⟨_, rfl⟩ := processAck_ok ran
    exact .inr (.inr (sending.keep ⟨rfl, rfl, rfl, rfl, rfl, rfl, fun _ _ => rfl⟩))
  | _ => exact .inr (.inr (sending.keep (.of_rfl ⟨rfl, rfl, rfl⟩ rfl rfl rfl rfl)))

end

theorem World.Stamped.of_same (stamped : before.Stamped) (instName : after.msgr.instName = before.msgr.instName)
    (msgs : ∀ id, (after.msgs id).con = true ∨ after.con.output.outMsg = some id →
      ((before.msgs id).con = true ∨ before.con.output.outMsg = some id) ∧
        (after.msgs id).hdr.src = (before.msgs id).hdr.src) : after.Stamped := by
  intro id held
  obtain ⟨held, src⟩ := msgs id held
  rw [src, instName]
  exact stamped id held

theorem conOutKvecAdd_outMsg {next : Output} {size : Nat} {data : Ref}
    (ran : conOutKvecAdd output size data = .ok next) : next.outMsg = output.outMsg := by
  unfold conOutKvecAdd at ran
  split at ran <;> cases ran
  rfl

section

variable (stamped : before.Stamped)
include stamped

theorem World.Stamped.prepareMessage (ran : prepareWriteMessage before = .ok (⟨⟩, after)) : after.Stamped := by
  obtain ⟨id, rest, con, kvecs, final, output, _, owned, _, sneaked, added, payload, rfl⟩ :=
    prepareWriteMessage_ok ran
  have number : (before.numbered id).hdr.src = (before.msgs id).hdr.src := by
    unfold World.numbered
    split <;> rfl
  have src : final.hdr.src = (before.msgs id).hdr.src := by
    obtain ⟨_, rfl, _⟩ | ⟨_, _, _, rfl, _⟩ := payload <;> exact number
  have instName : ∀ other, other = id ∨ (before.msgs other).con = true →
      (update before.msgs id final other).hdr.src = before.msgr.instName := by
    intro other held
    by_cases same : other = id
    · rw [same, update_self, src]
      exact stamped id (.inl owned)
    · rw [update_of_ne same]
      exact stamped other (.inl (held.resolve_left same))
  have outMsg : output.outMsg = some id := by
    have kept : kvecs.outMsg = some id := by
      obtain ⟨_, first, added⟩ := ok_of_bind added
      obtain ⟨_, second, added⟩ := ok_of_bind added
      obtain ⟨_, third, added⟩ := ok_of_bind added
      split at added
      · cases added
        rw [conOutKvecAdd_outMsg third, conOutKvecAdd_outMsg second, conOutKvecAdd_outMsg first]
      · rw [conOutKvecAdd_outMsg added, conOutKvecAdd_outMsg third, conOutKvecAdd_outMsg second,
          conOutKvecAdd_outMsg first]
    obtain ⟨_, _, _, rfl⟩ | ⟨_, _, _, _, rfl⟩ := payload <;> exact kept
  intro other held
  refine instName other ?_
  by_cases same : other = id
  · exact .inl same
  · refine .inr ?_
    rcases held with con | some_
    · simpa [update_of_ne same] using con
    · exact absurd (Option.some.inj (outMsg.symm.trans some_)).symm same

theorem World.Stamped.update
    (instName : after.msgr.instName = before.msgr.instName) (msgs : after.msgs = update before.msgs id msg)
    (con : msg.con = true → (before.msgs id).con = true) (src : msg.hdr.src = (before.msgs id).hdr.src)
    (outMsg : ∀ other, after.con.output.outMsg = some other → before.con.output.outMsg = some other) :
    after.Stamped := by
  refine stamped.of_same instName fun other held => ?_
  rw [msgs] at held ⊢
  by_cases same : other = id
  · subst same
    simp only [update_self] at held ⊢
    exact ⟨held.imp con (outMsg other), src⟩
  · simp only [update_of_ne same] at held ⊢
    exact ⟨held.imp_right (outMsg other), trivial⟩

theorem World.Stamped.send (ran : cephConSend id before = .ok (⟨⟩, after)) : after.Stamped := by
  intro other held
  obtain ⟨_, rfl⟩ | ⟨_, _, _, _, _, _, rfl⟩ := cephConSend_ok ran <;>
    by_cases same : other = id <;>
    simp only [World.note, withMsg, same, update_self, ne_eq, not_false_eq_true,
      update_of_ne] at held ⊢
  · rfl
  · exact stamped other held
  · rfl
  · exact stamped other held

theorem World.Stamped.revoke (ran : cephMsgRevoke id before = .ok (⟨⟩, after)) : after.Stamped := by
  have queued (world : World) (stamped : world.Stamped) : (revokeQueued id world).Stamped := by
    unfold revokeQueued
    split
    · refine stamped.update rfl rfl (by simp) ?_ fun _ some_ => some_
      rfl
    · exact stamped
  have sending (world : World) (stamped : world.Stamped) : (revokeSending id world).Stamped := by
    unfold revokeSending
    split
    · have none_ : ∀ other, (revokeSending id world).con.output.outMsg ≠ some other := by
        intro other
        unfold revokeSending
        rw [if_pos ‹_›]
        simp only [World.note, withMsg, withOutput]
        split <;> simp
      refine stamped.update rfl rfl (fun con => con) ?_ fun other some_ => absurd some_ ?_
      · rfl
      · have := none_ other
        unfold revokeSending at this
        rwa [if_pos ‹_›] at this
    · exact stamped
  unfold cephMsgRevoke at ran
  split at ran <;> cases ran
  · exact sending _ (queued _ stamped)
  · exact stamped

theorem World.Stamped.release {ids : List Nat} (instName : after.msgr.instName = before.msgr.instName)
    (msgs : after.msgs = fun id => { before.msgs id with con := (before.msgs id).con && id ∉ ids })
    (outMsg : ∀ other, after.con.output.outMsg = some other → before.con.output.outMsg = some other) :
    after.Stamped := by
  refine stamped.of_same instName fun other held => ?_
  rw [msgs] at held ⊢
  refine ⟨held.imp (fun con => ?_) (outMsg other), rfl⟩
  simp only [Bool.and_eq_true] at con
  exact con.1

theorem World.Stamped.call (ran : request.step before = .ok (⟨⟩, after)) : after.Stamped := by
  cases request with
  | send id => exact stamped.send ran
  | revoke id => exact stamped.revoke ran
  | revokeIncoming id =>
    obtain rfl | ⟨_, _, _, rfl⟩ := cephMsgRevokeIncoming_ok ran <;> exact stamped
  | keepalive =>
    obtain ⟨_, _, _, _, _, rfl⟩ := cephConKeepalive_ok ran
    exact stamped
  | close =>
    obtain ⟨_, rfl⟩ := cephConClose_ok ran
    exact stamped.release rfl rfl nofun
  | reopen type num addr =>
    cases ran
    exact stamped
  | sockClosed =>
    cases ran
    exact stamped
  | write id contents =>
    obtain rfl | ⟨_, free, rfl⟩ := fillMessage_ok ran
    · exact stamped
    · refine stamped.of_same rfl fun other held => ?_
      by_cases same : other = id
      · subst same
        simp only [withMsg, update_self, Bool.false_eq_true, false_or] at held
        exact absurd held free
      · simp only [withMsg, update_of_ne same] at held ⊢
        exact ⟨held, trivial⟩

theorem World.Stamped.outputs (instName : after.msgr.instName = before.msgr.instName)
    (msgs : after.msgs = before.msgs)
    (outMsg : ∀ other, after.con.output.outMsg = some other → before.con.output.outMsg = some other) :
    after.Stamped := by
  refine stamped.of_same instName fun other held => ?_
  rw [msgs] at held ⊢
  exact ⟨held.imp_right (outMsg other), rfl⟩

end

theorem World.Stamped.step (act : Act before after) (stamped : before.Stamped) : after.Stamped := by
  cases act with
  | call request ran => exact stamped.call ran
  | fault ran =>
    obtain ⟨_, rfl⟩ | ⟨_, _, _, _, _, _, rfl⟩ := conFault_ok ran <;> exact stamped
  | openSocket _ ran =>
    obtain ⟨_, _, ⟨_, _, rfl⟩ | ⟨_, _, _, rfl⟩⟩ := openSocket_ok ran <;> exact stamped
  | writeKvec _ _ _ _ _ _ _ ran =>
    refine stamped.outputs rfl rfl fun other some_ => ?_
    obtain ⟨_, _, rfl⟩ | ⟨_, _, _, _, _, _, rfl⟩ := advanceKvecs_cases ran <;> exact some_
  | writeData =>
    refine stamped.update rfl rfl (fun con => con) ?_ fun _ some_ => some_
    rfl
  | @queueFooter id _ flags _ _ _ _ ran =>
    obtain ⟨_, rfl⟩ := prepareWriteMessageFooter_ok ran
    have first : (before.withMsg id { before.msgs id with
        footer := { (before.msgs id).footer with flags } }).Stamped := by
      refine stamped.update rfl rfl (fun con => con) ?_ fun _ some_ => some_
      rfl
    refine first.update rfl rfl (fun con => con) ?_ fun _ some_ => some_
    rfl
  | finishMessage => exact stamped.outputs rfl rfl nofun
  | prepareMessage _ _ ran => exact stamped.prepareMessage ran
  | prepareAck _ _ ran =>
    obtain ⟨_, _, first, second, rfl⟩ := prepareWriteAck_ok ran
    have tagged := conOutKvecAdd_outMsg first
    have acked := conOutKvecAdd_outMsg second
    exact stamped.outputs rfl rfl fun other some_ => tagged.symm.trans (acked.symm.trans some_)
  | prepareKeepalive _ _ ran =>
    obtain ⟨_, first, rfl⟩ := prepareWriteKeepalive_ok ran
    refine stamped.outputs rfl rfl fun other some_ => ?_
    rw [← some_]
    exact (conOutKvecAdd_outMsg first).symm
  | greet _ _ ran =>
    obtain ⟨_, _, _, _, rfl⟩ | ⟨_, rfl⟩ := processBanner_ok ran
    · exact stamped
    · refine stamped.outputs ?_ rfl fun _ some_ => some_
      simp only [learnAddr]
      split <;> rfl
  | queueConnect _ ran =>
    obtain ⟨_, _, asked, output, _, first, second, rfl⟩ := queueConnect_ok ran
    refine stamped.outputs rfl rfl fun other some_ => ?_
    rw [← some_, ← conOutKvecAdd_outMsg first]
    unfold addAuthorizer at second
    split at second
    · cases second
      rfl
    · exact (conOutKvecAdd_outMsg second).symm
  | reset _ _ ran =>
    obtain ⟨_, rfl⟩ := resetConnection_ok ran
    exact stamped.release rfl rfl nofun
  | accept _ _ _ _ _ _ _ _ _ _ seq =>
    refine stamped.outputs rfl rfl fun other some_ => ?_
    rcases seq with rfl | added
    · exact some_
    · rw [← some_]
      exact (conOutKvecAdd_outMsg added).symm
  | setCrc section_ => cases section_ <;> exact stamped
  | dispatch _ ran =>
    obtain ⟨_, _, _, _, rfl⟩ := takeInMsg_cases ran
    exact stamped
  | processAck _ ran =>
    obtain ⟨_, rfl⟩ := processAck_ok ran
    exact stamped.release rfl rfl fun _ some_ => some_
  | _ => exact stamped

inductive SocketStep (before after : World) : Prop where
  | still (sock : after.con.sock = none ∨ after.con.sock.isSome = before.con.sock.isSome)
      (sockNo : after.sockNo = before.sockNo) (wire : after.wire = before.wire)
      (preopen : before.con.state = .preopen → after.con.state = .preopen ∨ after.con.sock = none)
  | opened (none_ : before.con.sock = none) (state : before.con.state = .preopen)
      (sockNo : after.sockNo = before.sockNo + 1)
      (wire : after.wire = Function.update before.wire (before.sockNo + 1) [])
      (equal : ∃ env incoming, after = { before with
        env
        con := { before.con.opening with sock := some ⟨incoming, 0⟩ }
        sockNo := before.sockNo + 1
        wire := Function.update before.wire (before.sockNo + 1) []
        log := .opened before.con.output.clean before.msgr.myEncAddr :: before.log })
  | wrote (taken : List UInt8) (open_ : before.con.sock.isSome) (state : before.con.state ≠ .preopen)
      (same : after.con.sock = before.con.sock ∧ after.con.state = before.con.state)
      (sockNo : after.sockNo = before.sockNo)
      (wire : after.wire = Function.update before.wire before.sockNo (before.wire before.sockNo ++ taken))

theorem SocketStep.none (sock : after.con.sock = none) (sockNo : after.sockNo = before.sockNo)
    (wire : after.wire = before.wire) : SocketStep before after :=
  .still (.inl sock) sockNo wire fun _ => .inr sock

theorem SocketStep.same (sock : after.con.sock.isSome = before.con.sock.isSome)
    (sockNo : after.sockNo = before.sockNo) (wire : after.wire = before.wire)
    (state : after.con.state = before.con.state) : SocketStep before after :=
  .still (.inr sock) sockNo wire fun preopen => .inl (state.trans preopen)

theorem SocketStep.read {sock : Sock} (some_ : before.con.sock = some sock)
    (again : after.con.sock.isSome = true) (sockNo : after.sockNo = before.sockNo)
    (wire : after.wire = before.wire) (state : after.con.state = before.con.state) : SocketStep before after :=
  .same (by rw [again, some_]; rfl) sockNo wire state

theorem Call.socketStep (ran : request.step before = .ok (⟨⟩, after)) : SocketStep before after := by
  cases request with
  | send id =>
    obtain ⟨_, rfl⟩ | ⟨_, _, _, state, _, step, rfl⟩ := cephConSend_ok ran
    · exact .same rfl rfl rfl rfl
    · refine .still (.inr rfl) rfl rfl fun preopen => .inl ?_
      rcases step with rfl | ⟨_, rfl⟩
      · exact preopen
      · rfl
  | revoke id =>
    have queued (world : World) : (revokeQueued id world).wire = world.wire ∧
        (revokeQueued id world).sockNo = world.sockNo ∧ (revokeQueued id world).con.sock = world.con.sock ∧
        (revokeQueued id world).con.state = world.con.state := by
      unfold revokeQueued
      split <;> exact ⟨rfl, rfl, rfl, rfl⟩
    have sending (world : World) : (revokeSending id world).wire = world.wire ∧
        (revokeSending id world).sockNo = world.sockNo ∧ (revokeSending id world).con.sock = world.con.sock ∧
        (revokeSending id world).con.state = world.con.state := by
      unfold revokeSending
      split <;> exact ⟨rfl, rfl, rfl, rfl⟩
    change cephMsgRevoke id before = _ at ran
    unfold cephMsgRevoke at ran
    split at ran <;> cases ran
    · obtain ⟨firstWire, firstNo, firstSock, firstState⟩ := queued before
      obtain ⟨wire, sockNo, sock, state⟩ := sending (revokeQueued id before)
      exact .same (by rw [sock, firstSock]) (sockNo.trans firstNo) (wire.trans firstWire) (state.trans firstState)
    · exact .same rfl rfl rfl rfl
  | revokeIncoming id =>
    obtain rfl | ⟨_, _, _, rfl⟩ := cephMsgRevokeIncoming_ok ran <;> exact .same rfl rfl rfl rfl
  | keepalive =>
    obtain ⟨state, _, _, _, step, rfl⟩ := cephConKeepalive_ok ran
    refine .still (.inr rfl) rfl rfl fun preopen => .inl ?_
    rcases step with rfl | ⟨_, rfl⟩
    · exact preopen
    · rfl
  | close =>
    obtain ⟨_, rfl⟩ := cephConClose_ok ran
    exact .none rfl rfl rfl
  | reopen type num addr =>
    cases ran
    exact .still (.inr rfl) rfl rfl fun _ => .inl rfl
  | sockClosed =>
    cases ran
    exact .same rfl rfl rfl rfl
  | write id contents =>
    obtain rfl | ⟨_, _, rfl⟩ := fillMessage_ok ran <;> exact .same rfl rfl rfl rfl

theorem Act.socketStep (act : Act before after) : SocketStep before after := by
  cases act with
  | call request ran => exact Call.socketStep ran
  | fault ran =>
    obtain ⟨_, rfl⟩ | ⟨_, _, _, _, _, _, rfl⟩ := conFault_ok ran <;> exact .none rfl rfl rfl
  | openSocket state ran =>
    obtain ⟨none_, _, ⟨_, _, rfl⟩ | ⟨_, _, _, rfl⟩⟩ := openSocket_ok ran
    · exact .none none_ rfl rfl
    · exact .opened none_ state rfl rfl ⟨_, _, rfl⟩
  | writeSkip _ taken open_ state => exact .wrote taken open_ state ⟨rfl, rfl⟩ rfl rfl
  | writeKvec _ taken open_ state => exact .wrote taken open_ state ⟨rfl, rfl⟩ rfl rfl
  | writeData _ _ taken drained _ open_ => exact .wrote taken open_ drained.1 ⟨rfl, rfl⟩ rfl rfl
  | queueFooter _ _ _ _ _ ran =>
    obtain ⟨_, rfl⟩ := prepareWriteMessageFooter_ok ran
    exact .same rfl rfl rfl rfl
  | prepareMessage _ _ ran =>
    obtain ⟨_, _, con, _, _, _, _, _, _, sneaked, _, _, rfl⟩ := prepareWriteMessage_ok ran
    obtain ⟨rfl, _⟩ | ⟨_, _, _, _, rfl⟩ := sneakAck_ok sneaked <;> exact .same rfl rfl rfl rfl
  | prepareAck _ _ ran =>
    obtain ⟨_, _, _, _, rfl⟩ := prepareWriteAck_ok ran
    exact .same rfl rfl rfl rfl
  | prepareKeepalive _ _ ran =>
    obtain ⟨_, _, rfl⟩ := prepareWriteKeepalive_ok ran
    exact .same rfl rfl rfl rfl
  | greet state _ ran =>
    have not : before.con.state ≠ .preopen := by rw [state]; exact nofun
    obtain ⟨_, _, _, _, rfl⟩ | ⟨_, rfl⟩ := processBanner_ok ran
    · exact .same rfl rfl rfl rfl
    · exact .still (.inr rfl) rfl rfl fun preopen => absurd preopen not
  | queueConnect _ ran =>
    obtain ⟨_, _, _, _, _, _, _, rfl⟩ := queueConnect_ok ran
    exact .same rfl rfl rfl rfl
  | reset _ _ ran =>
    obtain ⟨_, rfl⟩ := resetConnection_ok ran
    exact .same rfl rfl rfl rfl
  | accept _ _ _ _ _ _ state =>
    have not : before.con.state ≠ .preopen := by rw [state]; exact nofun
    exact .still (.inr rfl) rfl rfl fun preopen => absurd preopen not
  | tagClose => exact .none rfl rfl rfl
  | readHello _ _ _ _ some_ => exact .read some_ rfl rfl rfl rfl
  | discard _ _ _ _ some_ => exact .read some_ rfl rfl rfl rfl
  | tagMsg _ _ _ _ some_ => exact .read some_ rfl rfl rfl rfl
  | tagOther _ _ _ _ _ _ some_ => exact .read some_ rfl rfl rfl rfl
  | readHdr _ _ _ _ _ some_ => exact .read some_ rfl rfl rfl rfl
  | readSection _ _ _ _ _ _ some_ => exact .read some_ rfl rfl rfl rfl
  | readData _ _ _ _ _ _ _ some_ => exact .read some_ rfl rfl rfl rfl
  | readFooter _ _ _ _ _ _ some_ => exact .read some_ rfl rfl rfl rfl
  | readAck _ _ _ _ _ some_ => exact .read some_ rfl rfl rfl rfl
  | setCrc section_ => cases section_ <;> exact .same rfl rfl rfl rfl
  | dispatch _ ran =>
    obtain ⟨_, _, _, _, rfl⟩ := takeInMsg_cases ran
    exact .same rfl rfl rfl rfl
  | processAck _ ran =>
    obtain ⟨_, rfl⟩ := processAck_ok ran
    exact .same rfl rfl rfl rfl
  | _ => exact .same rfl rfl rfl rfl

/-- Nothing more is written to a socket: it has been closed, the connection is
to be opened again, or there is a later socket. -/
def World.Done (world : World) (number : Nat) : Prop :=
  number ≤ world.sockNo ∧
    (world.con.sock = none ∨ world.con.state = .preopen ∨ world.sockNo ≠ number)

theorem World.Done.step (done : before.Done number) (act : Act before after) :
    after.Done number ∧ after.wire number = before.wire number := by
  obtain ⟨old, done⟩ := done
  cases act.socketStep with
  | still sock sockNo wire preopen =>
    refine ⟨⟨sockNo ▸ old, ?_⟩, by rw [wire]⟩
    rcases done with none_ | state | later
    · refine .inl (sock.elim id fun same => ?_)
      rw [none_] at same
      exact Option.isSome_eq_false_iff.mp same |> Option.isNone_iff_eq_none.mp
    · exact (preopen state).elim (fun state => .inr (.inl state)) .inl
    · exact .inr (.inr (sockNo ▸ later))
  | opened none_ _ sockNo wire =>
    refine ⟨⟨by omega, .inr (.inr (by omega))⟩, ?_⟩
    rw [wire, update_of_ne (by omega)]
  | wrote taken open_ state _ sockNo wire =>
    have later : before.sockNo ≠ number := by
      rcases done with none_ | preopen | later
      · rw [none_] at open_
        cases open_
      · exact absurd preopen state
      · exact later
    exact ⟨⟨sockNo ▸ old, .inr (.inr (sockNo ▸ later))⟩, by rw [wire, update_of_ne later.symm]⟩

theorem Act.grows (act : Act before after) (old : number ≤ before.sockNo) :
    before.wire number <+: after.wire number := by
  cases act.socketStep with
  | still sock sockNo wire => rw [wire]
  | opened none_ _ sockNo wire => rw [wire, update_of_ne (by omega)]
  | wrote taken open_ state _ sockNo wire =>
    rw [wire]
    by_cases same : number = before.sockNo
    · rw [same, update_self]
      exact prefix_append _ _
    · rw [update_of_ne same]

/-- A socket on which frames have been written after some first bytes. -/
structure Wired (number : Nat) (hello : List UInt8) (world : World) : Prop where
  stamped : world.Stamped
  grown : hello <+: world.wire number
  old : number ≤ world.sockNo
  framed : (∀ entry ∈ world.log, entry.breaks = false) →
    ∃ session, world.wire number = hello ++ session ∧ Framed session
  going : (∀ entry ∈ world.log, entry.breaks = false) →
    world.Done number ∨ world.sockNo = number ∧ Sending hello world

theorem Sending.framed (sending : Sending hello before) (grown : hello <+: before.wire before.sockNo) :
    ∃ session, before.wire before.sockNo = hello ++ session ∧ Framed session := by
  obtain ⟨session, written⟩ := grown
  obtain ⟨body, whole, equal⟩ := sending.whole (replicate before.owed 0) length_replicate
  rw [World.said, ← written, append_assoc, append_assoc, append_cancel_left_eq] at equal
  rw [← equal] at whole
  exact ⟨session, written.symm, .of_whole whole⟩

def Entry.shakes : Entry → Bool
  | .opened .. | .greeted .. | .asked _ | .replied => true
  | _ => false

/-- What a step adds to the log: what is not of the handshake, a socket, or a
part of the handshake. -/
inductive LogStep (before after : World) : Prop where
  | quiet (added : List Entry) (log : after.log = added ++ before.log) (none_ : ∀ entry ∈ added, entry.shakes = false)
  | opened (log : after.log = .opened before.con.output.clean before.msgr.myEncAddr :: before.log)
      (none_ : before.con.sock = none) (sockNo : after.sockNo = before.sockNo + 1)
  | shaking (entry : Entry) (log : after.log = entry :: before.log)
      (state : before.con.state = .connecting ∧ before.con.sock.isSome ∨ before.con.state = .negotiating)
      (still : after.con.sock = before.con.sock ∧ after.con.state = .negotiating)

theorem LogStep.same (log : after.log = before.log) : LogStep before after :=
  .quiet [] log (forall_mem_nil _)

theorem LogStep.note {entry : Entry} (log : after.log = entry :: before.log) (none_ : entry.shakes = false) :
    LogStep before after :=
  .quiet [entry] log (by simpa using none_)

theorem LogStep.suffix (step : LogStep before after) : before.log <:+ after.log := by
  cases step with
  | quiet added log => exact log ▸ suffix_append _ _
  | opened log => exact log ▸ suffix_cons _ _
  | shaking entry log => exact log ▸ suffix_cons _ _

theorem Call.logStep (ran : request.step before = .ok (⟨⟩, after)) : LogStep before after := by
  cases request with
  | send id =>
    obtain ⟨_, rfl⟩ | ⟨_, _, _, _, _, _, rfl⟩ := cephConSend_ok ran <;> exact .note rfl rfl
  | revoke id =>
    have queued (world : World) : ∃ added, (revokeQueued id world).log = added ++ world.log ∧
        ∀ entry ∈ added, entry.shakes = false := by
      unfold revokeQueued
      split
      · exact ⟨[.revoked id], rfl, by simp [Entry.shakes]⟩
      · exact ⟨[], rfl, forall_mem_nil _⟩
    have sending (world : World) : ∃ added, (revokeSending id world).log = added ++ world.log ∧
        ∀ entry ∈ added, entry.shakes = false := by
      unfold revokeSending
      split
      · exact ⟨[.interrupted id], rfl, by simp [Entry.shakes]⟩
      · exact ⟨[], rfl, forall_mem_nil _⟩
    change cephMsgRevoke id before = _ at ran
    unfold cephMsgRevoke at ran
    split at ran <;> cases ran
    · obtain ⟨first, firstLog, firstNone⟩ := queued before
      obtain ⟨second, secondLog, secondNone⟩ := sending (revokeQueued id before)
      refine .quiet (second ++ first) (by rw [secondLog, firstLog, append_assoc]) fun entry member => ?_
      exact (List.mem_append.mp member).elim (secondNone entry) (firstNone entry)
    · exact .same rfl
  | revokeIncoming id =>
    obtain rfl | ⟨_, _, _, rfl⟩ := cephMsgRevokeIncoming_ok ran
    · exact .same rfl
    · exact .note rfl rfl
  | keepalive =>
    obtain ⟨_, _, _, _, _, rfl⟩ := cephConKeepalive_ok ran
    exact .same rfl
  | close =>
    obtain ⟨_, rfl⟩ := cephConClose_ok ran
    exact .note rfl rfl
  | reopen type num addr =>
    cases ran
    exact .same rfl
  | sockClosed =>
    cases ran
    exact .same rfl
  | write id contents =>
    obtain rfl | ⟨_, _, rfl⟩ := fillMessage_ok ran <;> exact .same rfl

theorem Act.logStep (act : Act before after) : LogStep before after := by
  cases act with
  | call request ran => exact Call.logStep ran
  | fault ran =>
    obtain ⟨_, rfl⟩ | ⟨_, _, _, _, _, _, rfl⟩ := conFault_ok ran <;> exact .same rfl
  | openSocket _ ran =>
    obtain ⟨none_, _, ⟨_, _, rfl⟩ | ⟨_, _, _, rfl⟩⟩ := openSocket_ok ran
    · exact .same rfl
    · exact .opened rfl none_ rfl
  | queueFooter _ _ _ _ _ ran =>
    obtain ⟨_, rfl⟩ := prepareWriteMessageFooter_ok ran
    exact .same rfl
  | prepareMessage _ _ ran =>
    obtain ⟨id, _, _, transmits⟩ := transmits_of_prepare ran
    refine .quiet _ transmits.log fun entry member => ?_
    unfold transmitEntries at member
    split at member <;> simp only [mem_cons, not_mem_nil, or_false] at member
    · rcases member with rfl | rfl <;> rfl
    · rw [member]
      rfl
  | prepareAck _ _ ran =>
    obtain ⟨_, _, _, _, rfl⟩ := prepareWriteAck_ok ran
    exact .same rfl
  | prepareKeepalive _ _ ran =>
    obtain ⟨_, _, rfl⟩ := prepareWriteKeepalive_ok ran
    exact .same rfl
  | greet state open_ ran =>
    obtain ⟨_, _, _, _, rfl⟩ | ⟨_, rfl⟩ := processBanner_ok ran
    · exact .same rfl
    · exact .shaking _ rfl (.inl ⟨state, open_⟩) ⟨rfl, rfl⟩
  | queueConnect asking ran =>
    obtain ⟨_, _, _, _, _, _, _, rfl⟩ := queueConnect_ok ran
    exact .shaking _ rfl (.inr asking.1) ⟨rfl, asking.1⟩
  | reply state => exact .shaking _ rfl (.inr state) ⟨rfl, state⟩
  | reset _ _ ran =>
    obtain ⟨_, rfl⟩ := resetConnection_ok ran
    exact .note rfl rfl
  | tagMsg => exact .note rfl rfl
  | tagOther => exact .note rfl rfl
  | tagClose => exact .note rfl rfl
  | leak => exact .note rfl rfl
  | skipMessage => exact .note rfl rfl
  | setCrc section_ => cases section_ <;> exact .same rfl
  | dispatch _ ran =>
    obtain ⟨_, _, _, _, rfl⟩ := takeInMsg_cases ran
    exact .note rfl rfl
  | processAck _ ran =>
    have acks := acks_of_processAck ran
    refine .quiet _ acks.log fun entry member => ?_
    simp only [ackEntries, mem_cons, mem_reverse, mem_map] at member
    rcases member with rfl | ⟨_, _, rfl⟩ <;> rfl
  | _ => exact .same rfl

theorem Act.log_suffix (act : Act before after) : before.log <:+ after.log :=
  act.logStep.suffix

theorem Wired.step (act : Act before after) (wired : Wired number hello before) : Wired number hello after := by
  have grown := wired.grown.trans (act.grows wired.old)
  have earlier := wired.old
  have going : (∀ entry ∈ after.log, entry.breaks = false) →
      after.Done number ∧ after.wire number = before.wire number ∨ after.sockNo = number ∧ Sending hello after := by
    intro calm
    rcases wired.going fun entry member => calm entry (act.log_suffix.subset member) with done | ⟨rfl, sending⟩
    · exact .inl (done.step act)
    · have next := sending.step wired.stamped (fun entry rest equal => calm entry (by simp [equal])) act
      cases act.socketStep with
      | still sock sockNo wire =>
        rcases next with none_ | preopen | sending
        · exact .inl ⟨⟨by omega, .inl none_⟩, by rw [wire]⟩
        · exact .inl ⟨⟨by omega, .inr (.inl preopen)⟩, by rw [wire]⟩
        · exact .inr ⟨sockNo, sending⟩
      | opened none_ preopen =>
        rw [sending.state] at preopen
        cases preopen
      | wrote taken open_ state same sockNo =>
        rcases next with none_ | preopen | sending
        · rw [same.1.symm.trans none_] at open_
          cases open_
        · exact absurd (same.2.symm.trans preopen) state
        · exact .inr ⟨sockNo, sending⟩
  refine ⟨wired.stamped.step act, grown, ?_, fun calm => ?_, fun calm => (going calm).imp_left And.left⟩
  · cases act.socketStep with
    | still sock sockNo => omega
    | opened none_ _ sockNo => omega
    | wrote taken open_ state _ sockNo => omega
  · rcases going calm with ⟨_, wire⟩ | ⟨rfl, sending⟩
    · rw [wire]
      exact wired.framed fun entry member => calm entry (act.log_suffix.subset member)
    · exact sending.framed grown

end

/-- An open connection on which nothing is being sent. -/
structure World.Quiet (world : World) : Prop where
  state : world.con.state = .opened
  output : world.con.output.Holds []
  outMsg : world.con.output.outMsg = none
  outSkip : world.con.output.outSkip = 0
  msgs : ∀ id, (world.msgs id).con = false
  log : world.log = []

theorem World.Quiet.wired {world : World} (quiet : world.Quiet) :
    Wired world.sockNo (world.wire world.sockNo) world := by
  have none_ := quiet.output.pending
  refine ⟨fun id held => ?_, prefix_refl _, le_rfl, fun _ => ⟨[], by simp, .nil⟩,
    fun _ => .inr ⟨rfl, quiet.state, quiet.outSkip, ?_, ?_, ?_, ?_, fun tail length => ⟨[], .nil, ?_⟩⟩⟩
  · simp [quiet.msgs, quiet.outMsg] at held
  · rw [none_]
    exact quiet.output
  · rw [none_]
    exact nofun
  · rw [none_]
    exact nofun
  · intro id some_
    rw [quiet.outMsg] at some_
    cases some_
  · rw [owed_of_done (.inl quiet.outMsg)] at length
    rw [eq_nil_of_length_eq_zero length, World.said, pendingBytes_eq, none_, gather_nil,
      List.append_nil, List.append_nil]

/-- In every run that starts on an open connection, the bytes written to its
socket are complete frames and perhaps a part of one more, as long as
`ceph_msg_revoke` is not called on the message that is being sent and every
message holds what its header announces. -/
theorem frames_intact (bound : Nat) (events : List Event) (start : World) (quiet : start.Quiet)
    (calm : ∀ entry ∈ (outcome (runEvents bound events) start).log, entry.breaks = false) :
    ∃ session, (outcome (runEvents bound events) start).wire start.sockNo = start.wire start.sockNo ++ session ∧
      Framed session :=
  (runEvents_preserves (fun _ _ act wired => wired.step act) bound events quiet.wired).framed calm

theorem openWorld_quiet (incoming : List UInt8) : (openWorld incoming).Quiet where
  state := rfl
  output := .of_left rfl rfl rfl
  outMsg := rfl
  outSkip := rfl
  msgs _ := rfl
  log := rfl

theorem openWorld_sockNo (incoming : List UInt8) : (openWorld incoming).sockNo = 0 := rfl

theorem openWorld_wire (incoming : List UInt8) (number : Nat) : (openWorld incoming).wire number = [] := rfl

theorem faultyEvents_breaks :
    ∀ entry ∈ (outcome (runEvents 20 faultyEvents) (openWorld [])).log, entry.breaks = false := by
  rw [faultyEvents_log]
  decide

theorem frames_intact_faulty :
    ((outcome (runEvents 20 faultyEvents) (openWorld [])).wire 0).length = 136 ∧
    Framed ((outcome (runEvents 20 faultyEvents) (openWorld [])).wire 0) := by
  refine ⟨by decide +kernel, ?_⟩
  obtain ⟨session, written, framed⟩ :=
    frames_intact 20 faultyEvents (openWorld []) (openWorld_quiet []) faultyEvents_breaks
  rw [openWorld_sockNo, openWorld_wire, nil_append] at written
  rwa [written]

def frameLen (bytes : List UInt8) : Nat :=
  if bytes.head? = some cephMsgrTagKeepalive then 1
  else if bytes.head? = some cephMsgrTagAck then 9
  else if bytes.head? = some cephMsgrTagMsg then
    let hdr := MsgHeader.decode ((bytes.drop 1).take sizeofMsgHeader)
    1 + sizeofMsgHeader + hdr.frontLen.toNat + hdr.middleLen.toNat + hdr.dataLen.toNat + sizeofMsgFooter
  else 0

theorem Frame.length_eq {frame : List UInt8} (complete : Frame frame) (rest : List UInt8) :
    frameLen (frame ++ rest) = frame.length := by
  cases complete with
  | keepalive => rfl
  | ack seq length => simp [frameLen, cephMsgrTagAck, cephMsgrTagKeepalive, length]
  | message hdr front middle data footer hdrLen frontLen middleLen dataLen footerLen =>
    have header : (hdr ++ front ++ middle ++ data ++ footer ++ rest).take sizeofMsgHeader = hdr := by
      simp only [append_assoc]
      exact take_left' hdrLen
    simp only [frameLen, cons_append, drop_succ_cons, drop_zero, header, head?_cons,
      Option.some.injEq, cephMsgrTagMsg, cephMsgrTagAck, cephMsgrTagKeepalive, length_cons, length_append]
    rw [if_neg (by decide), if_neg (by decide), if_pos trivial]
    lia

theorem frameLen_append (header : 1 + sizeofMsgHeader ≤ bytes.length) :
    frameLen (bytes ++ rest) = frameLen bytes := by
  cases bytes with
  | nil => simp [sizeofMsgHeader] at header
  | cons tag bytes =>
    have fits : sizeofMsgHeader ≤ bytes.length := by
      rw [length_cons] at header
      omega
    have same : (bytes ++ rest).take sizeofMsgHeader = bytes.take sizeofMsgHeader := take_append_of_le_length fits
    simp only [frameLen, cons_append, head?_cons, drop_succ_cons, drop_zero, same]

theorem Framed.drop (framed : Framed bytes) (header : 1 + sizeofMsgHeader ≤ bytes.length)
    (fits : frameLen bytes ≤ bytes.length) : Framed (bytes.drop (frameLen bytes)) := by
  obtain ⟨_, part, ⟨frames, all, rfl⟩, rfl, proper⟩ := framed
  cases frames with
  | nil =>
    rw [flatten_nil, nil_append] at header fits ⊢
    obtain rfl | ⟨rest, nonempty, frame⟩ := proper
    · simp [sizeofMsgHeader] at header
    · have length := frame.length_eq []
      rw [List.append_nil, frameLen_append header, length_append] at length
      have positive := length_pos_of_ne_nil nonempty
      omega
  | cons frame frames =>
    have length := (all frame (by simp)).length_eq (frames.flatten ++ part)
    rw [flatten_cons, append_assoc, length, drop_left]
    exact ⟨frames.flatten, part, ⟨frames, fun other member => all other (by simp [member]), rfl⟩, rfl, proper⟩

theorem Framed.frameLen_ne_zero (framed : Framed bytes)
    (header : 1 + sizeofMsgHeader ≤ bytes.length) : frameLen bytes ≠ 0 := by
  have positive {frame : List UInt8} (complete : Frame frame) : frame.length ≠ 0 := by
    cases complete <;> simp
  obtain ⟨_, part, ⟨frames, all, rfl⟩, rfl, proper⟩ := framed
  cases frames with
  | nil =>
    rw [flatten_nil, nil_append] at header ⊢
    obtain rfl | ⟨rest, _, frame⟩ := proper
    · simp [sizeofMsgHeader] at header
    · rw [← frameLen_append header, ← List.append_nil (part ++ rest), frame.length_eq]
      exact positive frame
  | cons frame frames =>
    rw [flatten_cons, append_assoc, (all frame (by simp)).length_eq]
    exact positive (all frame (by simp))

def revokedEvents : List Event :=
  [.call (.send 3), .work { Env.silent with sends := [10, 0] }, .call (.revoke 3),
    .work { Env.silent with sends := [500, 500] }]

/-- `ceph_msg_revoke` has the rest of the kvecs skipped and leaves them pending. -/
theorem frames_broken : ¬ ∀ (bound : Nat) (events : List Event) (start : World), start.Quiet →
    ∃ session, (outcome (runEvents bound events) start).wire start.sockNo = start.wire start.sockNo ++ session ∧
      Framed session := by
  intro intact
  obtain ⟨session, written, framed⟩ := intact 20 revokedEvents (openWorld []) (openWorld_quiet [])
  rw [openWorld_sockNo, openWorld_wire, nil_append] at written
  subst written
  have length : ((outcome (runEvents 20 revokedEvents) (openWorld [])).wire 0).length = 126 := by decide +kernel
  have first : frameLen ((outcome (runEvents 20 revokedEvents) (openWorld [])).wire 0) = 67 := by decide +kernel
  have second : frameLen (((outcome (runEvents 20 revokedEvents) (openWorld [])).wire 0).drop 67) = 0 := by
    decide +kernel
  have rest := framed.drop (by rw [length]; decide) (by rw [length, first]; decide)
  rw [first] at rest
  exact rest.frameLen_ne_zero (by rw [length_drop, length]; decide) second

end KmodCeph.Messenger
