import KmodCeph.Messenger.Runs

namespace KmodCeph.Messenger

open Lib List MsgHeader

/-- A consumed message: how, its number, and `in_seq` before and after. -/
structure Consumption where
  how : Consumed
  seq : UInt64
  before : UInt64
  after : UInt64

def Entry.consumption : Entry → Option Consumption
  | .consumed how seq before after => some ⟨how, seq, before, after⟩
  | _ => none

def consumptions (log : List Entry) : List Consumption :=
  ((log.takeWhile (· ≠ .reset)).filterMap Entry.consumption).reverse

def dispatchedSeqs (log : List Entry) : List UInt64 :=
  ((consumptions log).filter (·.how = .dispatched)).map (·.seq)

def Consumption.At (consumption : Consumption) (index : Nat) : Prop :=
  consumption.before = UInt64.ofNat index ∧ consumption.seq = UInt64.ofNat (index + 1) ∧
    consumption.after = UInt64.ofNat (index + 1)

def Ordered : List Entry → Prop
  | [] => True
  | .consumed how seq before after :: rest =>
    Consumption.At ⟨how, seq, before, after⟩ (consumptions rest).length ∧ Ordered rest
  | _ :: rest => Ordered rest

variable {rest log : List Entry}

theorem consumptions_consumed {how : Consumed} {seq before after : UInt64} :
    consumptions (.consumed how seq before after :: rest) = consumptions rest ++ [⟨how, seq, before, after⟩] := by
  simp [consumptions, Entry.consumption]

theorem consumptions_other {entry : Entry} (open_ : entry ≠ .reset)
    (other : entry.consumption = none) : consumptions (entry :: rest) = consumptions rest := by
  simp [consumptions, open_, other]

theorem Ordered.of_suffix {past : List Entry} (ordered : Ordered log) (suffix : past <:+ log) : Ordered past := by
  induction log with
  | nil =>
    rw [List.suffix_nil.mp suffix]
    trivial
  | cons entry rest ih =>
    rcases List.suffix_cons_iff.mp suffix with rfl | suffix
    · exact ordered
    · refine ih ?_ suffix
      cases entry with
      | consumed how seq before after => exact ordered.2
      | _ => exact ordered

theorem Ordered.at (ordered : Ordered log) {index : Nat} {consumption : Consumption}
    (found : (consumptions log)[index]? = some consumption) : consumption.At index := by
  induction log with
  | nil => simp [consumptions] at found
  | cons entry rest ih =>
    cases entry with
    | consumed how seq before after =>
      rw [consumptions_consumed, getElem?_append] at found
      split at found
      · exact ih ordered.2 found
      · rename_i behind
        rw [getElem?_singleton] at found
        split at found
        · have position : index = (consumptions rest).length := by omega
          cases found
          rw [position]
          exact ordered.1
        · cases found
    | reset => simp [consumptions] at found
    | _ =>
      rw [consumptions_other (by simp) rfl] at found
      exact ih ordered found

theorem Ordered.pairwise (ordered : Ordered log)
    (few : (consumptions log).length < 2 ^ 64) : (dispatchedSeqs log).Pairwise (· < ·) := by
  unfold dispatchedSeqs
  rw [pairwise_map]
  refine List.Pairwise.filter _ ?_
  rw [pairwise_iff_getElem]
  intro first second inFirst inSecond less
  have one := (ordered.at (getElem?_eq_getElem inFirst)).2.1
  have two := (ordered.at (getElem?_eq_getElem inSecond)).2.1
  rw [one, two, UInt64.lt_iff_toNat_lt, UInt64.toNat_ofNat', UInt64.toNat_ofNat']
  lia

/-- What is known of the message in hand: its number is the next one, and its
header has been read. -/
structure Con.Holds (con : Con) (msg : InMsg) : Prop where
  seq : msg.hdr.seq = con.input.inSeq + 1
  hdr : (MsgHeader.decode con.input.inHdr).seq = con.input.inSeq + 1
  position : 53 ≤ con.input.inBasePos
  tag : con.state = .opened → con.input.inTag = cephMsgrTagMsg
  connecting : con.state ≠ .connecting
  negotiating : con.state ≠ .negotiating

/-- Incoming messages are consumed one by one in the order of their numbers. -/
structure Inbound (world : World) : Prop where
  ordered : Ordered world.log
  count : world.con.input.inSeq = UInt64.ofNat (consumptions world.log).length
  inMsg : ∀ msg, world.con.input.inMsg = some msg → world.con.Holds msg

section

variable {before after : World}

def Input.position (input : Input) : UInt64 × List UInt8 × Option InMsg × Int × UInt8 :=
  (input.inSeq, input.inHdr, input.inMsg, input.inBasePos, input.inTag)

theorem Inbound.of_same (inbound : Inbound before)
    (input : after.con.input.position = before.con.input.position)
    (state : after.con.state = before.con.state ∨ after.con.state = .closed ∨ after.con.state = .preopen)
    (ordered : Ordered after.log)
    (same : consumptions after.log = consumptions before.log) : Inbound after where
  ordered := ordered
  count := by
    simp only [Input.position, Prod.mk.injEq] at input
    rw [input.1, same, inbound.count]
  inMsg msg some_ := by
    simp only [Input.position, Prod.mk.injEq] at input
    obtain ⟨sameSeq, sameHdr, sameMsg, samePos, sameTag⟩ := input
    obtain ⟨seq, hdr, position, tag, connecting, negotiating⟩ := inbound.inMsg msg (sameMsg ▸ some_)
    rw [← sameSeq] at seq
    rw [← sameSeq, ← sameHdr] at hdr
    rw [← samePos] at position
    rw [← sameTag] at tag
    rcases state with same | closed | preopen
    · rw [← same] at tag connecting negotiating
      exact ⟨seq, hdr, position, tag, connecting, negotiating⟩
    · exact ⟨seq, hdr, position, by simp [closed], by simp [closed], by simp [closed]⟩
    · exact ⟨seq, hdr, position, by simp [preopen], by simp [preopen], by simp [preopen]⟩

theorem Inbound.consume (inbound : Inbound before) {how : Consumed} {seq : UInt64}
    (next : seq = before.con.input.inSeq + 1)
    (log : after.log = .consumed how seq before.con.input.inSeq (before.con.input.inSeq + 1) :: before.log)
    (inSeq : after.con.input.inSeq = before.con.input.inSeq + 1) (none_ : after.con.input.inMsg = none) :
    Inbound after where
  ordered := by
    have counted : before.con.input.inSeq + 1 = UInt64.ofNat ((consumptions before.log).length + 1) := by
      rw [inbound.count, UInt64.ofNat_add]
      rfl
    rw [log]
    exact ⟨⟨inbound.count, next.trans counted, counted⟩, inbound.ordered⟩
  count := by
    rw [inSeq, log, consumptions_consumed, inbound.count]
    simp [UInt64.ofNat_add]
  inMsg msg some_ := by
    rw [none_] at some_
    cases some_

theorem Inbound.of_none (inbound : Inbound before) (inSeq : after.con.input.inSeq = before.con.input.inSeq)
    (none_ : after.con.input.inMsg = none) (ordered : Ordered after.log)
    (same : consumptions after.log = consumptions before.log) : Inbound after where
  ordered := ordered
  count := by rw [inSeq, same, inbound.count]
  inMsg msg some_ := by
    rw [none_] at some_
    cases some_

theorem Inbound.reset (inbound : Inbound before) (inSeq : after.con.input.inSeq = 0)
    (none_ : after.con.input.inMsg = none) (log : after.log = .reset :: before.log) : Inbound after where
  ordered := log ▸ inbound.ordered
  count := by
    rw [inSeq, log]
    simp [consumptions]
  inMsg msg some_ := by
    rw [none_] at some_
    cases some_

theorem Inbound.none_of_negotiating (inbound : Inbound before) (state : before.con.state = .negotiating) :
    before.con.input.inMsg = none := by
  cases inMsg : before.con.input.inMsg with
  | none => rfl
  | some msg => exact absurd state (inbound.inMsg msg inMsg).negotiating

theorem Inbound.none_of_tag (inbound : Inbound before) {tag : UInt8} (reads : before.Reads tag)
    (other : tag ≠ cephMsgrTagMsg) : before.con.input.inMsg = none := by
  cases inMsg : before.con.input.inMsg with
  | none => rfl
  | some msg => exact absurd (reads.2.symm.trans ((inbound.inMsg msg inMsg).tag reads.1)) other

theorem seqDelta_one {seq inSeq : UInt64} (next : seqDelta seq inSeq = 1) : seq = inSeq + 1 := by
  have delta : seq.toInt64 - inSeq.toInt64 = 1 := Int64.toInt_inj.mp next
  have moved : seq.toInt64 = inSeq.toInt64 + 1 := by
    rw [← delta, Int64.add_comm, Int64.sub_add_cancel]
  calc seq = seq.toInt64.toUInt64 := rfl
    _ = inSeq + 1 := by
      rw [moved]
      rfl

theorem seqDelta_succ (inSeq : UInt64) : seqDelta (inSeq + 1) inSeq = 1 := by
  unfold seqDelta
  have delta : (inSeq + 1).toInt64 - inSeq.toInt64 = 1 := by
    rw [UInt64.toInt64_add, Int64.add_comm, Int64.add_sub_cancel]
    rfl
  rw [delta]
  rfl

variable {input : Input} {entries rest : List Entry}

theorem seq_of_checkHeader (check : checkHeader input = .next) :
    (MsgHeader.decode input.inHdr).seq = input.inSeq + 1 := by
  unfold checkHeader at check
  simp only at check
  split_ifs at check with _ _ _ _ _ _
  exact seqDelta_one (by omega)

theorem seqDelta_of_stale (check : checkHeader input = .stale) :
    (MsgHeader.decode input.inHdr).seq ≠ input.inSeq + 1 := by
  intro next
  unfold checkHeader at check
  simp only [next, seqDelta_succ] at check
  split_ifs at check
  omega

theorem Inbound.of_read (inbound : Inbound before) {msg read : InMsg}
    (inMsg : before.con.input.inMsg = some msg) (number : read.hdr = msg.hdr)
    (now : after.con.input.inMsg = some read) (seq : after.con.input.inSeq = before.con.input.inSeq)
    (hdr : after.con.input.inHdr = before.con.input.inHdr) (tag : after.con.input.inTag = before.con.input.inTag)
    (position : before.con.input.inBasePos ≤ after.con.input.inBasePos)
    (state : after.con.state = before.con.state) (log : after.log = before.log) : Inbound after where
  ordered := log ▸ inbound.ordered
  count := by rw [seq, log, inbound.count]
  inMsg other some_ := by
    obtain rfl : read = other := by
      rw [now] at some_
      exact Option.some.inj some_
    have holds := inbound.inMsg msg inMsg
    exact ⟨by rw [number, seq, holds.seq], by rw [hdr, seq, holds.hdr], holds.position.trans position,
      fun opened => by rw [tag, holds.tag (state ▸ opened)],
      state ▸ holds.connecting, state ▸ holds.negotiating⟩

theorem Inbound.call (inbound : Inbound before) {request : Call}
    (ran : request.step before = .ok (⟨⟩, after)) : Inbound after := by
  cases request with
  | send msg =>
    obtain ⟨_, rfl⟩ | ⟨_, _, _, state, _, same, rfl⟩ := cephConSend_ok ran
    · exact inbound.of_same rfl (.inl rfl) inbound.ordered rfl
    · exact inbound.of_same rfl (same.imp id fun standby => .inr standby.2) inbound.ordered rfl
  | revoke msg =>
    have queued {world : World} (inbound : Inbound world) : Inbound (revokeQueued msg world) := by
      unfold revokeQueued
      split
      · exact inbound.of_same rfl (.inl rfl) inbound.ordered rfl
      · exact inbound
    have sending {world : World} (inbound : Inbound world) : Inbound (revokeSending msg world) := by
      unfold revokeSending
      split
      · exact inbound.of_same rfl (.inl rfl) inbound.ordered rfl
      · exact inbound
    simp only [Call.step, cephMsgRevoke] at ran
    split at ran <;> cases ran
    · exact sending (queued inbound)
    · exact inbound
  | revokeIncoming _ =>
    obtain rfl | ⟨msg, inMsg, _, rfl⟩ := cephMsgRevokeIncoming_ok ran
    · exact inbound
    · exact inbound.consume (inbound.inMsg msg inMsg).seq rfl rfl rfl
  | keepalive =>
    obtain ⟨state, _, _, _, same, rfl⟩ := cephConKeepalive_ok ran
    exact inbound.of_same rfl (same.imp id fun standby => .inr standby.2) inbound.ordered rfl
  | close =>
    obtain ⟨refs, rfl⟩ := cephConClose_ok ran
    exact inbound.reset rfl rfl rfl
  | reopen type num addr =>
    cases ran
    exact inbound.of_same rfl (.inr (.inr rfl)) inbound.ordered rfl
  | sockClosed =>
    cases ran
    exact inbound.of_same rfl (.inl rfl) inbound.ordered rfl
  | write msg contents =>
    obtain rfl | ⟨_, _, rfl⟩ := fillMessage_ok ran
    · exact inbound
    · exact inbound.of_same rfl (.inl rfl) inbound.ordered rfl

theorem consumptions_append_other (open_ : ∀ entry ∈ entries, entry ≠ .reset ∧ entry.consumption = none) :
    consumptions (entries ++ rest) = consumptions rest := by
  induction entries with
  | nil => rfl
  | cons entry entries ih =>
    have known := open_ entry (by simp)
    rw [cons_append, consumptions_other known.1 known.2]
    exact ih fun other member => open_ other (by simp [member])

theorem Ordered.append_other
    (others : ∀ entry ∈ entries, entry ≠ .reset ∧ entry.consumption = none) (ordered : Ordered rest) :
    Ordered (entries ++ rest) := by
  induction entries with
  | nil => exact ordered
  | cons entry entries ih =>
    have tail := ih fun other member => others other (by simp [member])
    cases entry with
    | consumed how seq before after =>
      have known := (others _ mem_cons_self).2
      cases known
    | _ => exact tail

theorem transmitEntries_others {world : World} {msg : Nat} :
    ∀ entry ∈ world.transmitEntries msg, entry ≠ .reset ∧ entry.consumption = none := by
  intro entry member
  simp only [World.transmitEntries, mem_cons] at member
  rcases member with rfl | member
  · exact ⟨by simp, rfl⟩
  · split at member
    · rw [List.mem_singleton.mp member]
      exact ⟨by simp, rfl⟩
    · cases member

theorem ackEntries_others {msgs : Nat → Msg} {ack : UInt64} {settled : Bool} {ids : List Nat} :
    ∀ entry ∈ .acknowledged ack settled :: ackEntries msgs ack ids,
      entry ≠ .reset ∧ entry.consumption = none := by
  intro entry member
  simp only [ackEntries, mem_cons, mem_reverse, mem_map] at member
  obtain rfl | ⟨msg, _, rfl⟩ := member <;> exact ⟨by simp, rfl⟩

theorem Inbound.step (act : Act before after) (inbound : Inbound before) : Inbound after := by
  cases act with
  | call request ran => exact inbound.call ran
  | fault ran =>
    obtain ⟨_, rfl⟩ | ⟨_, _, _, _, _, _, rfl⟩ := conFault_ok ran
    · exact inbound.of_same rfl (.inr (.inl rfl)) inbound.ordered rfl
    · exact inbound.of_none rfl rfl inbound.ordered rfl
  | openSocket _ ran =>
    obtain ⟨_, none_, ⟨_, _, rfl⟩ | ⟨_, _, _, rfl⟩⟩ := openSocket_ok ran
    · exact inbound.of_none rfl none_ inbound.ordered rfl
    · exact inbound.of_none rfl none_ inbound.ordered rfl
  | queueFooter _ _ _ _ _ ran =>
    obtain ⟨_, rfl⟩ := prepareWriteMessageFooter_ok ran
    exact inbound.of_same rfl (.inl rfl) inbound.ordered rfl
  | prepareMessage _ _ ran =>
    obtain ⟨_, _, con, _, _, _, _, _, _, sneaked, _, _, rfl⟩ := prepareWriteMessage_ok ran
    have same : con.input.position = before.con.input.position ∧ con.state = before.con.state := by
      obtain ⟨rfl, _⟩ | ⟨_, _, _, _, rfl⟩ := sneakAck_ok sneaked <;> exact ⟨rfl, rfl⟩
    exact inbound.of_same same.1 (.inl same.2) (inbound.ordered.append_other transmitEntries_others)
      (consumptions_append_other transmitEntries_others)
  | prepareAck _ _ ran =>
    obtain ⟨_, _, _, _, rfl⟩ := prepareWriteAck_ok ran
    exact inbound.of_same rfl (.inl rfl) inbound.ordered rfl
  | prepareKeepalive _ _ ran =>
    obtain ⟨_, _, rfl⟩ := prepareWriteKeepalive_ok ran
    exact inbound.of_same rfl (.inl rfl) inbound.ordered rfl
  | readHello env sock count hello some_ state =>
    refine inbound.of_none rfl ?_ inbound.ordered rfl
    cases inMsg : before.con.input.inMsg with
    | none => exact inMsg
    | some msg =>
      have holds := inbound.inMsg msg inMsg
      exact absurd state (by simp [holds.connecting, holds.negotiating])
  | greet state _ ran =>
    have none_ : before.con.input.inMsg = none := by
      cases inMsg : before.con.input.inMsg with
      | none => rfl
      | some msg => exact absurd state (inbound.inMsg msg inMsg).connecting
    obtain ⟨_, _, _, _, rfl⟩ | ⟨_, rfl⟩ := processBanner_ok ran
    · exact inbound.of_same rfl (.inl rfl) inbound.ordered rfl
    · exact inbound.of_none rfl none_ inbound.ordered rfl
  | queueConnect _ ran =>
    obtain ⟨_, _, _, _, _, _, _, rfl⟩ := queueConnect_ok ran
    exact inbound.of_same rfl (.inl rfl) inbound.ordered rfl
  | prepareRead state => exact inbound.of_none rfl (inbound.none_of_negotiating state) inbound.ordered rfl
  | reset _ _ ran =>
    obtain ⟨_, rfl⟩ := resetConnection_ok ran
    exact inbound.reset rfl rfl rfl
  | accept _ _ _ _ _ _ state => exact inbound.of_none rfl (inbound.none_of_negotiating state) inbound.ordered rfl
  | discard env sock count _ _ fits =>
    refine inbound.of_none rfl ?_ inbound.ordered rfl
    cases inMsg : before.con.input.inMsg with
    | none => exact inMsg
    | some msg =>
      have position := (inbound.inMsg msg inMsg).position
      omega
  | tagMsg env sock reads _ _ none_ =>
    exact inbound.of_none rfl none_ inbound.ordered rfl
  | tagOther env sock tag position reads =>
    have none_ := inbound.none_of_tag reads (by decide)
    exact inbound.of_none rfl none_ inbound.ordered rfl
  | tagClose env sock reads =>
    have none_ := inbound.none_of_tag reads (by decide)
    exact inbound.of_none rfl none_ inbound.ordered rfl
  | readHdr env sock count hdr _ _ position =>
    refine inbound.of_none rfl ?_ inbound.ordered rfl
    cases inMsg : before.con.input.inMsg with
    | none => exact inMsg
    | some msg =>
      have far := (inbound.inMsg msg inMsg).position
      omega
  | stale reads check =>
    refine inbound.of_none rfl ?_ inbound.ordered rfl
    cases inMsg : before.con.input.inMsg with
    | none => exact inMsg
    | some msg => exact absurd (inbound.inMsg msg inMsg).hdr (seqDelta_of_stale check)
  | skipMessage next =>
    exact inbound.consume (seq_of_checkHeader next.2.2.1) rfl rfl next.2.2.2
  | install msg next hdr =>
    have seq := seq_of_checkHeader next.2.2.1
    refine ⟨inbound.ordered, inbound.count, fun other some_ => ?_⟩
    obtain rfl : msg = other := Option.some.inj some_
    have state := next.1.1
    exact ⟨by rw [hdr]; exact seq, seq, next.2.1, fun _ => next.1.2, by simp [state], by simp [state]⟩
  | readSection env sock bytes section_ msg reads =>
    refine inbound.of_read reads.2 ?_ rfl rfl rfl rfl le_rfl rfl rfl
    cases section_ <;> rfl
  | setCrc section_ crc =>
    cases section_ <;> exact inbound.of_same rfl (.inl rfl) inbound.ordered rfl
  | readData env sock count msg data crc reads =>
    refine inbound.of_read reads.2 ?_ rfl rfl rfl rfl le_rfl rfl rfl
    rfl
  | readFooter env sock count footer msg reads =>
    refine inbound.of_read reads.2 ?_ rfl rfl rfl rfl ?_ rfl rfl
    · rfl
    · simp only [World.advance, World.withInput, World.took]
      omega
  | dispatch _ ran =>
    obtain ⟨msg, _, _, inMsg, rfl⟩ := takeInMsg_cases ran
    exact inbound.consume (inbound.inMsg msg inMsg).seq rfl rfl rfl
  | finishRead reads none_ => exact inbound.of_none rfl none_ inbound.ordered rfl
  | readAck env sock count ack reads =>
    refine inbound.of_none rfl ?_ inbound.ordered rfl
    rcases reads with reads | reads <;> exact inbound.none_of_tag reads (by decide)
  | processAck reads ran =>
    have none_ : before.con.input.inMsg = none := by
      rcases reads with reads | reads <;> exact inbound.none_of_tag reads (by decide)
    obtain ⟨_, rfl⟩ := processAck_ok ran
    exact inbound.of_none rfl none_ (inbound.ordered.append_other ackEntries_others)
      (consumptions_append_other ackEntries_others)
  | _ => exact inbound.of_same rfl (.inl rfl) inbound.ordered rfl

end

structure World.Begins (world : World) : Prop where
  inSeq : world.con.input.inSeq = 0
  inMsg : world.con.input.inMsg = none
  log : world.log = []

theorem World.Begins.inbound {world : World} (begins : world.Begins) : Inbound world where
  ordered := begins.log ▸ trivial
  count := by
    rw [begins.inSeq, begins.log]
    rfl
  inMsg msg some_ := absurd (begins.inMsg.symm.trans some_) nofun

/-- In every session of every run the message at position `k` is consumed when
`in_seq` is `k`, has number `k + 1`, and leaves `in_seq` at `k + 1`, all modulo
`2 ^ 64`; unless `2 ^ 64` messages are consumed, the numbers dispatched increase
strictly. -/
theorem inbound_exactly_once (bound : Nat) (events : List Event) (start : World) (begins : start.Begins) :
    let world := outcome (runEvents bound events) start
    world.con.input.inSeq = UInt64.ofNat (consumptions world.log).length ∧
    ∀ past, past <:+ world.log →
      (∀ index (consumption : Consumption), (consumptions past)[index]? = some consumption → consumption.At index) ∧
      ((consumptions past).length < 2 ^ 64 → (dispatchedSeqs past).Pairwise (· < ·)) := by
  intro world
  have inbound : Inbound world :=
    runEvents_preserves (fun _ _ => Inbound.step) bound events begins.inbound
  refine ⟨inbound.count, fun past suffix => ?_⟩
  have ordered := inbound.ordered.of_suffix suffix
  exact ⟨fun index consumption found => ordered.at found, ordered.pairwise⟩

def reader (input : Input) (sock : Sock) (recvs : List Int) (allocs : List Alloc) (refs : Int)
    (log : List Entry) : World :=
  { World.init (cephMessengerInit ⟨8, 0⟩ (replicate 136 0) (replicate 4 0) 0 0 false)
      (fun _ => cephMsgNew 0 []) with
    con := { cephConInit with state := .opened, sock := some sock, peerName := ⟨1, 0⟩, input, refs }
    env := { Env.silent with recvs, allocs }
    log }

def emptyHdr (index : Nat) : MsgHeader :=
  { MsgHeader.zero with
    seq := UInt64.ofNat index
    crc := crc32c 0 { MsgHeader.zero with seq := UInt64.ofNat index }.encodeChecked }

def emptyFrame (index : Nat) : List UInt8 :=
  cephMsgrTagMsg :: ((emptyHdr index).encode ++ replicate 13 0)

def awaiting (index : Nat) (inHdr : List UInt8) : Input :=
  { cephConInit.input with inSeq := UInt64.ofNat index, inTag := cephMsgrTagReady, inHdr }

def emptyMsg (hdr : MsgHeader) : InMsg :=
  { id := 0, hdr, footer := replicate 13 0, front := [], middle := none, data := []
    dataLength := 0, cursor := Cursor.blank }

theorem recv_reader {input : Input} {bytes rest : List UInt8} {received len : Nat} {recvs : List Int}
    {allocs : List Alloc} {refs : Int} {log : List Entry} (fits : bytes.length ≤ len) :
    (reader input ⟨bytes ++ rest, received⟩ (bytes.length :: recvs) allocs refs log).recv len =
      .ok ((bytes.length, bytes),
        reader input ⟨rest, received + bytes.length⟩ recvs allocs refs log) := by
  have short : min bytes.length len = bytes.length := by omega
  simp [reader, World.recv, short]

section

variable {index received bound : Nat} {hdr rest : List UInt8} {recvs : List Int} {allocs : List Alloc}
  {refs : Int} {log : List Entry}

def readingAt (index : Nat) (inHdr : List UInt8) (inMsg : Option InMsg) (inBasePos : Int) : Input :=
  { awaiting index inHdr with inTag := cephMsgrTagMsg, inMsg, inBasePos }

theorem readTag_reader :
    atomically readTag (reader (awaiting index hdr) ⟨cephMsgrTagMsg :: rest, received⟩ (1 :: recvs) allocs
      refs log) =
    .ok (.again ⟨⟩) (reader (readingAt index hdr none 0) ⟨rest, received + 1⟩ recvs allocs refs
      (.tag received :: log)) := by
  have got := @recv_reader (awaiting index hdr) [cephMsgrTagMsg] rest received 1 recvs allocs refs log (by simp)
  rfl

theorem readPartial_whole {target : Target} {endPos size : Int} {before received stored : World}
    {bytes : List UInt8} (nonempty : bytes ≠ []) (missing : before.con.input.inBasePos + bytes.length = endPos)
    (got : before.recv bytes.length = .ok ((bytes.length, bytes), received))
    (stores : received.store (size - bytes.length).toNat bytes target = .ok stored)
    (position : stored.con.input.inBasePos = before.con.input.inBasePos) :
    readPartial (bound + 2) target endPos size before = .ok 1 (stored.advance bytes.length) := by
  have positive := length_pos_of_ne_nil nonempty
  have left : endPos - before.con.input.inBasePos = bytes.length := by omega
  have pass : atomically (readPartialOnce target endPos size) before =
      .ok (.again ⟨⟩) (stored.advance bytes.length) := by
    simp only [atomically, readPartialOnce, left, Int.toNat_natCast, got, bind, Except.bind, stores]
    rw [if_pos (by omega), if_neg (by omega)]
    rfl
  refine (iterate_of_again pass).trans (iterate_of_done ?_)
  simp only [atomically, readPartialOnce]
  rw [if_neg]
  simp only [World.advance, World.withInput, position]
  omega

theorem readHdr_reader (old : hdr.length = 53) :
    readPartial (bound + 2) .inHdr sizeofMsgHeader sizeofMsgHeader
      (reader (readingAt index hdr none 0) ⟨(emptyHdr (index + 1)).encode ++ rest, received⟩ (53 :: recvs) allocs
        refs log) =
    .ok 1 (reader (readingAt index (emptyHdr (index + 1)).encode none 53) ⟨rest, received + 53⟩ recvs allocs
      refs log) := by
  generalize encoded : (emptyHdr (index + 1)).encode = bytes
  have length : bytes.length = 53 := encoded ▸ MsgHeader.length_encode _
  have got := @recv_reader (readingAt index hdr none 0) bytes rest received bytes.length recvs
    allocs refs log le_rfl
  have stores : (reader (readingAt index hdr none 0) ⟨rest, received + bytes.length⟩ recvs allocs refs log).store
      ((sizeofMsgHeader : Int) - bytes.length).toNat bytes .inHdr =
      .ok (reader (readingAt index bytes none 0) ⟨rest, received + bytes.length⟩ recvs allocs refs log) := by
    have whole : overwrite hdr 0 bytes = bytes := by
      simp [overwrite, length, drop_of_length_le old.le]
    rw [length]
    exact congrArg (fun inHdr => Except.ok (reader (readingAt index inHdr none 0) ⟨rest, received + 53⟩ recvs
      allocs refs log)) whole
  have ran := @readPartial_whole bound .inHdr sizeofMsgHeader sizeofMsgHeader _ _ _ bytes
    (ne_nil_of_length_pos (by omega)) (by rw [length]; rfl) got stores rfl
  rw [length] at ran
  exact ran

theorem checkHeader_reader :
    checkHeader (readingAt index (emptyHdr (index + 1)).encode none 53) = .next := by
  have seq : (emptyHdr (index + 1)).seq = UInt64.ofNat index + 1 := by
    simp [emptyHdr, UInt64.ofNat_add]
  have crc : crc32c 0 (emptyHdr (index + 1)).encodeChecked = (emptyHdr (index + 1)).crc := rfl
  unfold checkHeader
  simp only [readingAt, awaiting, decode_encode, take_encode, crc, seq, seqDelta_succ,
    ne_eq, not_true_eq_false, if_false]
  rfl

theorem installInMsg_empty {world : World} (hdr : MsgHeader.decode world.con.input.inHdr = emptyHdr index) :
    installInMsg (.msg (emptyMsg MsgHeader.zero) true) world = .ok (1, { world with con := { world.con with
      refs := world.con.refs + 1
      input := { world.con.input with inMsg := some (emptyMsg (emptyHdr index)) } } }) := by
  simp only [installInMsg, hdr, middleLen, dataLen, prepareInData, emptyMsg, ne_eq, not_true_eq_false, false_and,
    if_false, gt_iff_lt, lt_self_iff_false, Option.isSome_none, Bool.false_eq_true, or_self, bind, Except.bind]
  rfl

theorem inMsgAlloc_reader :
    cephConInMsgAlloc (reader (readingAt index (emptyHdr (index + 1)).encode none 53) ⟨rest, received⟩ recvs
      (.msg (emptyMsg MsgHeader.zero) true :: allocs) refs log) =
    .ok 1 (reader (readingAt index (emptyHdr (index + 1)).encode (some (emptyMsg (emptyHdr (index + 1)))) 53)
      ⟨rest, received⟩ recvs allocs (refs + 1) log) := by
  have popped : atomically popAlloc (reader (readingAt index (emptyHdr (index + 1)).encode none 53)
      ⟨rest, received⟩ recvs (.msg (emptyMsg MsgHeader.zero) true :: allocs) refs log) =
      .ok (.msg (emptyMsg MsgHeader.zero) true) (reader (readingAt index (emptyHdr (index + 1)).encode none 53)
        ⟨rest, received⟩ recvs allocs refs log) := rfl
  have dropped : dropMutex (reader (readingAt index (emptyHdr (index + 1)).encode none 53)
      ⟨rest, received⟩ recvs allocs refs log) = .ok ⟨⟩ (reader
        (readingAt index (emptyHdr (index + 1)).encode none 53) ⟨rest, received⟩ recvs allocs refs log) := rfl
  refine (bind_of_ok popped).trans ((bind_of_ok dropped).trans (read_eq.trans ((run_of_not ?_).trans ?_)))
  · exact not_not.mpr rfl
  · have installed := @installInMsg_empty (index + 1) (reader (readingAt index (emptyHdr (index + 1)).encode none 53)
      ⟨rest, received⟩ recvs allocs refs log) (decode_encode _)
    simp only [atomically, installed]
    rfl

theorem readSection_reader {inMsg : InMsg} (front : inMsg.front = []) :
    readPartialMessageSection (bound + 1) .front 0 (reader (readingAt index hdr (some inMsg) 53)
      ⟨rest, received⟩ recvs allocs refs log) =
    .ok 1 (reader (readingAt index hdr (some inMsg) 53) ⟨rest, received⟩ recvs allocs refs log) := by
  refine iterate_of_done ?_
  simp only [atomically, readSectionOnce, reader, readingAt, Section.read, front, length_nil,
    lt_self_iff_false, if_false, if_true, Section.setCrc, World.withInput, crc32c, foldl_nil]
  rfl

theorem readFooter_reader :
    readPartial (bound + 2) .footer (sizeofMsgHeader + sizeofMsgFooter) sizeofMsgFooter
      (reader (readingAt index hdr (some (emptyMsg (emptyHdr (index + 1)))) 53)
        ⟨replicate 13 0 ++ rest, received⟩ (13 :: recvs) allocs refs log) =
    .ok 1 (reader (readingAt index hdr (some (emptyMsg (emptyHdr (index + 1)))) 66)
      ⟨rest, received + 13⟩ recvs allocs refs log) := by
  have got := @recv_reader (readingAt index hdr (some (emptyMsg (emptyHdr (index + 1)))) 53)
    (replicate 13 0) rest received 13 recvs allocs refs log (by simp)
  have nonempty : replicate 13 (0 : UInt8) ≠ [] := by simp
  have stores : (reader (readingAt index hdr (some (emptyMsg (emptyHdr (index + 1)))) 53) ⟨rest, received + 13⟩
      recvs allocs refs log).store ((sizeofMsgFooter : Int) - 13).toNat (replicate 13 0) .footer =
      .ok (reader (readingAt index hdr (some (emptyMsg (emptyHdr (index + 1)))) 53) ⟨rest, received + 13⟩
        recvs allocs refs log) := rfl
  exact readPartial_whole nonempty rfl got stores rfl

theorem crcOk_reader {msgHdr : MsgHeader} {inMsg : Option InMsg} :
    (emptyMsg msgHdr).crcOk (readingAt index hdr inMsg 66) false = true := by
  have footer : MsgFooter.decode (emptyMsg msgHdr).footer = ⟨0, 0, 0, 0⟩ := by
    simp only [emptyMsg]
    decide
  simp only [InMsg.crcOk, footer]
  rfl

theorem readBody_reader :
    readPartialBody (bound + 2) (reader (readingAt index (emptyHdr (index + 1)).encode
      (some (emptyMsg (emptyHdr (index + 1)))) 53) ⟨replicate 13 0 ++ rest, received⟩ (13 :: recvs) allocs
        refs log) =
    .ok 1 (reader (readingAt index (emptyHdr (index + 1)).encode (some (emptyMsg (emptyHdr (index + 1)))) 66)
      ⟨rest, received + 13⟩ recvs allocs refs log) := by
  generalize encoded : (emptyHdr (index + 1)).encode = bytes
  have decoded : MsgHeader.decode bytes = emptyHdr (index + 1) := by
    rw [← encoded, decode_encode]
  refine read_eq.trans ?_
  change ((readPartialMessageSection (bound + 2) .front (MsgHeader.decode bytes).frontLen.toNat) >>= _) _ = _
  rw [decoded]
  refine (bind_of_ok (readSection_reader rfl)).trans ((run_of_not (by decide)).trans (read_eq.trans ?_))
  change readPartialTail (bound + 2) (MsgHeader.decode bytes) false _ = _
  rw [decoded]
  have none_ (before : World) (program : Prog Int) (condition : Prop) [Decidable condition] (fails : ¬ condition) :
      onlyIf condition program before = .ok 1 before := by
    exact run_of_not fails
  refine (bind_of_ok (none_ _ _ _ (by decide))).trans ((run_of_not (by decide)).trans ?_)
  refine (bind_of_ok (none_ _ _ _ (not_not.mpr rfl))).trans ((run_of_not (by decide)).trans ?_)
  refine (bind_of_ok readFooter_reader).trans ((run_of_not (by decide)).trans (read_eq.trans ?_))
  have crc := @crcOk_reader index bytes (emptyHdr (index + 1)) (some (emptyMsg (emptyHdr (index + 1))))
  exact congrArg (fun ok : Bool => EStateM.Result.ok (if ok = true then (1 : Int) else -ebadmsg) _) crc

theorem check_next {check : HeaderCheck} (next : check = .next) {onBad : Int → Prog Int} {onStale onNext : Prog Int}
    (world : World) : (match check with
      | .bad code => onBad code
      | .stale => onStale
      | .next => onNext) world = onNext world := by
  subst next
  rfl

/-- One message is read and dispatched. -/
theorem tryReadFrom_reader {ret : Int} (old : hdr.length = 53) :
    tryReadFrom (bound + 2) ret (reader (awaiting index hdr) ⟨emptyFrame (index + 1) ++ rest, received⟩
      (1 :: 53 :: 13 :: recvs) (.msg (emptyMsg MsgHeader.zero) true :: allocs) refs log) =
    .ok (.again 1) (reader (awaiting (index + 1) (emptyHdr (index + 1)).encode) ⟨rest, received + 1 + 53 + 13⟩
      recvs allocs (refs + 1 - 1) (.consumed .dispatched (UInt64.ofNat (index + 1)) (UInt64.ofNat index)
        (UInt64.ofNat index + 1) :: .tag received :: log)) := by
  have frame : emptyFrame (index + 1) ++ rest =
      cephMsgrTagMsg :: ((emptyHdr (index + 1)).encode ++ (replicate 13 0 ++ rest)) := by
    simp [emptyFrame]
  have message : readPartialMessage (bound + 2) (reader (readingAt index hdr none 0)
      ⟨(emptyHdr (index + 1)).encode ++ (replicate 13 0 ++ rest), received + 1⟩ (53 :: 13 :: recvs)
      (.msg (emptyMsg MsgHeader.zero) true :: allocs) refs (.tag received :: log)) =
      .ok 1 (reader (readingAt index (emptyHdr (index + 1)).encode (some (emptyMsg (emptyHdr (index + 1)))) 66)
        ⟨rest, received + 1 + 53 + 13⟩ recvs allocs (refs + 1) (.tag received :: log)) := by
    refine (bind_of_ok (readHdr_reader old)).trans ((run_of_not (by decide)).trans (read_eq.trans ?_))
    have check := @checkHeader_reader index
    refine (check_next check _).trans ?_
    have alloc : onlyIf (readingAt index (emptyHdr (index + 1)).encode none 53).inMsg.isNone cephConInMsgAlloc
        (reader (readingAt index (emptyHdr (index + 1)).encode none 53)
          ⟨replicate 13 0 ++ rest, received + 1 + 53⟩ (13 :: recvs)
          (.msg (emptyMsg MsgHeader.zero) true :: allocs) refs (.tag received :: log)) = _ :=
      (run_of rfl).trans inMsgAlloc_reader
    exact (bind_of_ok alloc).trans ((run_of_not (by decide)).trans readBody_reader)
  rw [frame]
  have same : awaiting (index + 1) (emptyHdr (index + 1)).encode =
      { awaiting index (emptyHdr (index + 1)).encode with inSeq := UInt64.ofNat index + 1 } := by
    simp [awaiting, UInt64.ofNat_add]
  have checked : atomically checkSock (reader (awaiting index hdr)
      ⟨cephMsgrTagMsg :: ((emptyHdr (index + 1)).encode ++ (replicate 13 0 ++ rest)), received⟩
      (1 :: 53 :: 13 :: recvs) (.msg (emptyMsg MsgHeader.zero) true :: allocs) refs log) = .ok ⟨⟩ _ := rfl
  refine read_eq.trans ((bind_of_ok checked).trans ?_)
  refine read_eq.trans ((run_of_not (show ¬ (0 : Int) < 0 by decide)).trans ?_)
  refine read_eq.trans ((run_of rfl).trans ?_)
  refine (bind_of_ok readTag_reader).trans ?_
  refine read_eq.trans ((run_of rfl).trans ?_)
  refine (bind_of_ok message).trans ((run_of_not (by decide)).trans ?_)
  refine read_eq.trans ((run_of_not (show ¬ cephMsgrTagMsg = cephMsgrTagReady by decide)).trans ?_)
  rw [same]
  rfl

def emptyFrames : Nat → Nat → List UInt8
  | _, 0 => []
  | index, count + 1 => emptyFrame (index + 1) ++ emptyFrames (index + 1) count

def wholeReads : Nat → List Int
  | 0 => []
  | count + 1 => 1 :: 53 :: 13 :: wholeReads count

theorem dispatchedSeqs_dispatched {seq before after : UInt64} :
    dispatchedSeqs (.consumed .dispatched seq before after :: log) = dispatchedSeqs log ++ [seq] := by
  simp [dispatchedSeqs, consumptions_consumed]

theorem tryRead_reader {count : Nat} {ret : Int} (old : hdr.length = 53) :
    ∃ world, iterate .exhausted (tryReadFrom (bound + 2)) count ret (reader (awaiting index hdr)
        ⟨emptyFrames index count, received⟩ (wholeReads count)
        (replicate count (.msg (emptyMsg MsgHeader.zero) true)) refs log) = .error .exhausted world ∧
      dispatchedSeqs world.log =
        dispatchedSeqs log ++ (List.range count).map fun step => UInt64.ofNat (index + step + 1) := by
  induction count generalizing index hdr received ret refs log with
  | zero => exact ⟨_, rfl, by simp [reader]⟩
  | succ count ih =>
    have pass := @tryReadFrom_reader index received bound hdr (emptyFrames (index + 1) count)
      (wholeReads count) (replicate count (.msg (emptyMsg MsgHeader.zero) true)) refs log ret old
    obtain ⟨world, ran, seqs⟩ := @ih (index + 1) (received + 1 + 53 + 13) _ (refs + 1 - 1)
      (.consumed .dispatched (UInt64.ofNat (index + 1)) (UInt64.ofNat index) (UInt64.ofNat index + 1) ::
        .tag received :: log) 1 (MsgHeader.length_encode (emptyHdr (index + 1)))
    refine ⟨world, (iterate_of_again pass).trans ran, seqs.trans ?_⟩
    rw [dispatchedSeqs_dispatched, range_succ_eq_map]
    have tagged : dispatchedSeqs (.tag received :: log) = dispatchedSeqs log := rfl
    have shifted : (fun step => UInt64.ofNat (index + step + 1)) ∘ Nat.succ =
        fun step => UInt64.ofNat (index + 1 + step + 1) := by
      funext step
      rw [Function.comp, show index + step.succ + 1 = index + 1 + step + 1 by omega]
    rw [tagged, map_cons, map_map, shifted, append_assoc, singleton_append, Nat.add_zero]

/-- A worker that meets as many messages as it makes passes. -/
theorem runEvents_reader :
    ∃ world, runEvents (bound + 2) [.work { Env.silent with
        recvs := wholeReads (bound + 2)
        allocs := replicate (bound + 2) (.msg (emptyMsg MsgHeader.zero) true) }]
        (reader (awaiting 0 (replicate 53 0)) ⟨emptyFrames 0 (bound + 2), 0⟩ [] [] 0 []) =
          .error .exhausted world ∧
      dispatchedSeqs world.log = (List.range (bound + 2)).map fun step => UInt64.ofNat (step + 1) := by
  obtain ⟨world, ran, seqs⟩ := @tryRead_reader 0 0 bound (replicate 53 0) 0 [] (bound + 2) (-1)
    length_replicate
  refine ⟨world, ?_, by simpa [dispatchedSeqs, consumptions] using seqs⟩
  let ready := reader (awaiting 0 (replicate 53 0)) ⟨emptyFrames 0 (bound + 2), 0⟩ (wholeReads (bound + 2))
    (replicate (bound + 2) (.msg (emptyMsg MsgHeader.zero) true)) 0 []
  have set : atomically (setEnv { Env.silent with
      recvs := wholeReads (bound + 2)
      allocs := replicate (bound + 2) (.msg (emptyMsg MsgHeader.zero) true) })
      (reader (awaiting 0 (replicate 53 0)) ⟨emptyFrames 0 (bound + 2), 0⟩ [] [] 0 []) = .ok ⟨⟩ ready := rfl
  have closed : atomically conSockClosed ready = .ok false ready := rfl
  have backoff : atomically conBackoff ready = .ok false ready := rfl
  have checked : atomically checkNoSock ready = .ok ⟨⟩ ready := rfl
  have state : ready.con.state = .opened := rfl
  refine bind_of_error ((bind_of_ok set).trans (bind_of_error (bind_of_error ?_)))
  refine (bind_of_ok closed).trans ((bind_of_ok backoff).trans (read_eq.trans ?_))
  refine (run_of_not (by simp [state])).trans ((bind_of_ok checked).trans ?_)
  exact (run_of_not (by simp [state])).trans (bind_of_error ran)

end

/-- The numbers start over after `2 ^ 64` messages. -/
theorem not_pairwise_seqs {count : Nat} (many : 2 ^ 64 ≤ count) :
    ¬ ((List.range count).map fun step => UInt64.ofNat (step + 1)).Pairwise (· < ·) := by
  intro increasing
  have last := List.pairwise_iff_getElem.mp increasing (2 ^ 64 - 2) (2 ^ 64 - 1) (by simp; omega) (by simp; omega)
    (by omega)
  simp only [getElem_map, getElem_range, UInt64.lt_iff_toNat_lt, UInt64.toNat_ofNat'] at last
  omega

theorem not_always_increasing : ¬ ∀ (bound : Nat) (events : List Event) (start : World), start.Begins →
    (dispatchedSeqs (outcome (runEvents bound events) start).log).Pairwise (· < ·) := by
  intro increasing
  obtain ⟨world, ran, seqs⟩ := @runEvents_reader (2 ^ 64)
  have begins (sock : Sock) : (reader (awaiting 0 (replicate 53 0)) sock [] [] 0 []).Begins :=
    ⟨rfl, rfl, rfl⟩
  refine not_pairwise_seqs (show 2 ^ 64 ≤ 2 ^ 64 + 2 by omega) ?_
  rw [← seqs, ← outcome_of_error ran]
  exact increasing _ _ _ (begins _)

theorem inbound_exactly_once_oneMessage :
    let world := outcome (runEvents 4 [.work { Env.silent with
      recvs := [1, 53, 13], allocs := [.msg (emptyMsg MsgHeader.zero) true] }])
      (reader (awaiting 0 (replicate 53 0)) ⟨emptyFrame 1, 0⟩ [] [] 0 [])
    world.con.input.inSeq = UInt64.ofNat (consumptions world.log).length ∧ dispatchedSeqs world.log = [1] :=
  ⟨(inbound_exactly_once 4 _ _ ⟨rfl, rfl, rfl⟩).1, by decide +kernel⟩

end KmodCeph.Messenger
