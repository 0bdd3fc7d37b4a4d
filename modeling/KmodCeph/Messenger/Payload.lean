import KmodCeph.Messenger.Pieces
import KmodCeph.Messenger.Read
import KmodCeph.Lib.Transfer

namespace KmodCeph.Messenger

open Lib Function List World

/-- The data of a message is queued and written, in as many calls as are made. -/
def sendPayload (bound calls id : Nat) : Prog Int := do
  atomically fun world => do
    let world ← prepareWritePayload world id
    .ok (⟨⟩, world)
  repeatCalls (writePartialMessageData bound id) calls

def receivePayload (bound calls : Nat) : Prog Int := do
  atomically fun world =>
    match world.con.input.inMsg with
    | none => .error .bug
    | some msg => do
      let msg ← prepareInData msg
      .ok (⟨⟩, world.withInput { world.con.input with inMsg := some msg })
  repeatCalls (readPartialMsgData bound) calls

theorem sockError_nonpos (answer : Int) (refused : answer ≤ 0) : sockError answer ≤ 0 := by
  unfold sockError
  split <;> omega

def World.paying (start : World) (id : Nat) (sent : List UInt8) (cursor : Cursor) (crc : UInt32) (sends : List Int) :
    World :=
  { start with
    msgs := Function.update start.msgs id { start.msgs id with
      cursor, footer := { (start.msgs id).footer with dataCrc := crc } }
    wire := Function.update start.wire start.sockNo (start.wire start.sockNo ++ sent)
    env := { start.env with sends } }

/-- What has been sent, and what the checksum covers: all of it, and the rest of
the piece where this has been taken already. -/
structure PayloadSending (start : World) (id : Nat) (bytes : List UInt8) (count : Nat) (world : World) : Prop where
  state : ∃ sent rest piece cursor crc, sent ++ rest = bytes ∧ rest.length = count ∧
    cursor.Reads (start.msgs id).data rest piece ∧
    crc = crc32c 0 (sent ++ if cursor.needCrc then [] else rest.take piece) ∧
    world = start.paying id sent cursor crc world.env.sends

structure PayloadSent (start : World) (id : Nat) (bytes : List UInt8) (world : World) : Prop where
  wire : world.wire = Function.update start.wire start.sockNo (start.wire start.sockNo ++ bytes)
  dataCrc : (world.msgs id).footer.dataCrc = crc32c 0 bytes
  footer : world.con.output.outMsgDone

section

variable {start before : World} {id : Nat} {bytes : List UInt8} {count : Nat}

theorem Cursor.Reads.going {data : List DataItem} {cursor : Cursor} {rest : List UInt8} {piece : Nat}
    (reads : cursor.Reads data rest piece) : cursor.resid ≠ 0 ↔ rest ≠ [] := by
  cases reads with
  | done resid => simp [resid]
  | inside item later place paged sits total =>
    have some_ := sits.some_
    have fits := sits.fits
    have length := (paged item (by simp)).length_bytes
    constructor
    · intro going empty
      have lengths := congrArg List.length empty
      rw [length_append, length_drop, length_nil] at lengths
      lia
    · intro nonempty
      omega

theorem send_blocked {world : World} (opened : world.con.sock.isSome) (refused : world.env.sends.headD 0 ≤ 0) :
    world.send bytes = .ok (sockError (world.env.sends.headD 0),
      { world with env := { world.env with sends := world.env.sends.tail } }) := by
  obtain ⟨sock, found⟩ := Option.isSome_iff_exists.mp opened
  unfold World.send
  rw [found]
  simp only
  split
  · rfl
  · have zero : world.env.sends.headD 0 = 0 := by omega
    rw [zero]
    simp [sockError, eagain]

theorem send_taken {world : World} (opened : world.con.sock.isSome) (taken : 0 < world.env.sends.headD 0) :
    world.send bytes = .ok (((bytes.take (world.env.sends.headD 0).toNat).length : Nat),
      { world with
        env := { world.env with sends := world.env.sends.tail }
        wire := update world.wire world.sockNo
          (world.wire world.sockNo ++ bytes.take (world.env.sends.headD 0).toNat) }) := by
  obtain ⟨sock, found⟩ := Option.isSome_iff_exists.mp opened
  unfold World.send
  rw [found]
  simp only
  rw [if_neg (by omega)]

theorem paying_msgs {sent : List UInt8} {cursor : Cursor} {crc : UInt32} {sends : List Int} :
    (start.paying id sent cursor crc sends).msgs id =
      { start.msgs id with cursor, footer := { (start.msgs id).footer with dataCrc := crc } } := by
  simp only [paying, update_self]

theorem writeDataOnce_taken {sent : List UInt8} {cursor moved : Cursor} {crc : UInt32} {sends : List Int}
    {piece : Piece} {amount : Nat} {fresh : Bool} (opened : start.con.sock.isSome) (going : cursor.resid ≠ 0)
    (next : cephMsgDataNext (start.msgs id).data cursor = .ok piece) (taken : 0 < sends.headD 0)
    (length : (piece.bytes.take (sends.headD 0).toNat).length = amount) (some_ : 0 < amount)
    (advanced : cephMsgDataAdvance (start.msgs id).data cursor amount = .ok (fresh, moved)) :
    writeDataOnce id (start.paying id sent cursor crc sends) = .ok (.again ⟨⟩,
      start.paying id (sent ++ piece.bytes.take (sends.headD 0).toNat) moved
        (if ¬ start.msgr.nocrc ∧ cursor.needCrc then crc32c crc piece.bytes else crc) sends.tail) := by
  unfold writeDataOnce
  rw [paying_msgs]
  simp only
  rw [if_pos going, next]
  simp only [bind, Except.bind]
  rw [send_taken (by exact opened) (by exact taken)]
  have head : (start.paying id sent cursor crc sends).env.sends.headD 0 = sends.headD 0 := rfl
  simp only [head, length, Int.toNat_natCast]
  rw [if_neg (by omega), advanced]
  simp [paying, withMsg, dataCrcAfter, append_assoc]

theorem crc_carried {sent rest : List UInt8} {piece amount next : Nat} {need fresh : Bool}
    (within : amount ≤ piece) (part : amount < piece → fresh = false ∧ next = piece - amount)
    (full : amount = piece → fresh = true ∨ next = 0) :
    (if need then crc32c (crc32c 0 (sent ++ if need then [] else rest.take piece)) (rest.take piece)
      else crc32c 0 (sent ++ if need then [] else rest.take piece)) =
      crc32c 0 (sent ++ rest.take amount ++ if fresh then [] else (rest.drop amount).take next) := by
  have covered : (if need then crc32c (crc32c 0 (sent ++ if need then [] else rest.take piece)) (rest.take piece)
      else crc32c 0 (sent ++ if need then [] else rest.take piece)) = crc32c 0 (sent ++ rest.take piece) := by
    cases need with
    | true => simp only [if_true, List.append_nil, crc32c_append]
    | false => simp
  rw [covered, append_assoc]
  congr 2
  rcases Nat.lt_or_eq_of_le within with less | rfl
  · obtain ⟨rfl, rfl⟩ := part less
    obtain ⟨further, rfl⟩ := Nat.exists_eq_add_of_le within
    rw [take_add, Nat.add_sub_cancel_left]
    rfl
  · rcases full rfl with rfl | rfl
    · simp
    · simp

theorem PayloadSending.moved (opened : start.con.sock.isSome) (crcs : start.msgr.nocrc = false)
    (sending : PayloadSending start id bytes count before) (some_ : 0 < count)
    (taken : 0 < before.env.sends.headD 0) :
    ∃ lower after, lower < count ∧ atomically (writeDataOnce id) before = .ok (.again ⟨⟩) after ∧
      PayloadSending start id bytes lower after ∧ after.env.sends = before.env.sends.tail := by
  obtain ⟨sent, rest, piece, cursor, crc, whole, length, reads, covered, state⟩ := sending.state
  generalize before.env.sends = sends at taken state ⊢
  subst state
  have going := reads.going.mpr (by intro empty; simp [empty] at length; omega)
  obtain ⟨nonempty, bounded, found, next, pieceLength, pieceBytes⟩ := reads.next going
  have amount : (found.bytes.take (sends.headD 0).toNat).length = min (sends.headD 0).toNat piece := by
    rw [pieceBytes, List.length_take, List.length_take]
    lia
  have out : found.bytes.take (sends.headD 0).toNat = rest.take (min (sends.headD 0).toNat piece) := by
    rw [pieceBytes, take_take]
  have some_ : 0 < min (sends.headD 0).toNat piece := by lia
  have within : min (sends.headD 0).toNat piece ≤ piece := by lia
  generalize min (sends.headD 0).toNat piece = part at amount out some_ within
  obtain ⟨fresh, moved, nextPiece, advanced, needCrc, readsAfter, _, partly, full⟩ := reads.advance some_ within
  have ran := @writeDataOnce_taken start id sent cursor moved crc sends found part fresh opened going next taken amount
    some_ advanced
  refine ⟨count - part, start.paying id (sent ++ found.bytes.take (sends.headD 0).toNat) moved
    (if ¬ start.msgr.nocrc ∧ cursor.needCrc then crc32c crc found.bytes else crc) sends.tail, by lia,
    by simp only [atomically, ran], ?_, rfl⟩
  refine ⟨sent ++ rest.take part, rest.drop part, nextPiece, moved, _, ?_, ?_, readsAfter, ?_, by rw [out]; rfl⟩
  · rw [append_assoc, take_append_drop, whole]
  · rw [length_drop, length]
  · rw [needCrc, ← crc_carried within partly full, ← covered, pieceBytes]
    simp only [crcs, Bool.false_eq_true, not_false_eq_true, true_and]

theorem PayloadSending.blocked (opened : start.con.sock.isSome)
    (sending : PayloadSending start id bytes count before) (some_ : 0 < count)
    (refused : before.env.sends.headD 0 ≤ 0) :
    ∃ after, atomically (writeDataOnce id) before = .ok (.done (sockError (before.env.sends.headD 0))) after ∧
      PayloadSending start id bytes count after ∧ after.env.sends = before.env.sends.tail := by
  obtain ⟨sent, rest, piece, cursor, crc, whole, length, reads, covered, state⟩ := sending.state
  generalize before.env.sends = sends at refused state ⊢
  subst state
  have going := reads.going.mpr (by intro empty; simp [empty] at length; omega)
  obtain ⟨_, _, found, next, _, _⟩ := reads.next going
  refine ⟨start.paying id sent cursor crc sends.tail, ?_, ⟨sent, rest, piece, cursor, crc, whole, length, reads, covered,
    rfl⟩, rfl⟩
  unfold atomically writeDataOnce
  rw [paying_msgs]
  simp only
  rw [if_pos going, next]
  simp only [bind, Except.bind]
  rw [send_blocked (by exact opened) (by exact refused)]
  have head : (start.paying id sent cursor crc sends).env.sends.headD 0 = sends.headD 0 := rfl
  have low := sockError_nonpos _ refused
  simp only [head]
  rw [if_pos low]
  rfl

theorem PayloadSending.stopped (crcs : start.msgr.nocrc = false)
    (sending : PayloadSending start id bytes 0 before) :
    ∃ after, atomically (writeDataOnce id) before = .ok (.done 1) after ∧ PayloadSent start id bytes after := by
  obtain ⟨sent, rest, piece, cursor, crc, whole, length, reads, covered, state⟩ := sending.state
  generalize before.env.sends = sends at state
  subst state
  have finished : rest = [] := eq_nil_of_length_eq_zero length
  have stopped : ¬ cursor.resid ≠ 0 := fun going => reads.going.mp going finished
  subst finished
  rw [List.append_nil] at whole
  subst whole
  have nocrc : (start.paying id sent cursor crc sends).msgr.nocrc = false := crcs
  unfold atomically writeDataOnce
  rw [paying_msgs]
  simp only
  rw [if_neg stopped]
  simp only [nocrc, Bool.false_eq_true, if_false, prepareWriteMessageFooter]
  rw [if_neg (by simp [withOutput, conOutKvecReset])]
  refine ⟨_, rfl, ?_⟩
  constructor
  · rfl
  · simp only [withOutput, withMsg, paying, update_self, covered]
    simp
  · rfl

theorem PayloadSending.transfer (opened : start.con.sock.isSome) (crcs : start.msgr.nocrc = false) :
    Transfer (atomically (writeDataOnce id)) (fun world => world.env.sends) sockError
      (PayloadSending start id bytes) (PayloadSent start id bytes) :=
  { blocked := fun _ _ sending => sending.blocked opened
    moved := fun _ _ sending => sending.moved opened crcs
    stopped := fun _ sending => sending.stopped crcs
    codes := sockError_nonpos }

/-- What a sender with a data payload comes to: all of it is out and checksummed,
or a part of it is out. -/
theorem sendPayload_ok {world : World} {bound calls : Nat} (opened : world.con.sock.isSome)
    (crcs : world.msgr.nocrc = false) (some_ : (world.msgs id).data ≠ [])
    (paged : ∀ item ∈ (world.msgs id).data, item.Paged)
    (length : (world.msgs id).dataLength = (dataBytes (world.msgs id).data).length)
    (small : (world.msgs id).dataLength < 2 ^ 32) (fresh : (world.msgs id).footer.dataCrc = 0)
    (enough : (world.msgs id).dataLength < bound) :
    ∃ ret after, sendPayload bound calls id world = .ok ret after ∧
      (ret = 1 ∧ after.wire = update world.wire world.sockNo
          (world.wire world.sockNo ++ dataBytes (world.msgs id).data) ∧
          (after.msgs id).footer.dataCrc = crc32c 0 (dataBytes (world.msgs id).data) ∨
        ret ≤ 0 ∧ ∃ sent rest, sent ++ rest = dataBytes (world.msgs id).data ∧
          after.wire = update world.wire world.sockNo (world.wire world.sockNo ++ sent)) ∧
      (Patient sockError (world.msgs id).dataLength calls world.env.sends → ret = 1) := by
  obtain ⟨item, member⟩ := exists_mem_of_ne_nil _ some_
  obtain ⟨cursor, piece, began, need, reads⟩ := @cephMsgDataCursorInit_reads (world.msgs id).cursor _ some_ paged
  have nonempty : (world.msgs id).dataLength ≠ 0 := by
    intro empty
    have counts := (cephMsgDataCursorInit_counts began).1
    omega
  obtain ⟨start, prepared, sameMsg, samewire⟩ : ∃ start, prepareWritePayload world id = .ok start ∧
      start.msgs id = { world.msgs id with cursor } ∧ start.wire = world.wire ∧ start.sockNo = world.sockNo ∧
      start.con.sock = world.con.sock ∧ start.msgr = world.msgr ∧ start.env = world.env := by
    unfold prepareWritePayload
    simp only
    rw [if_pos nonempty, Nat.mod_eq_of_lt small, length, began]
    exact ⟨_, rfl, by simp [withMsg, withOutput], rfl, rfl, rfl, rfl, rfl⟩
  obtain ⟨wire, sockNo, sock, msgr, env⟩ := samewire
  have data : (start.msgs id).data = (world.msgs id).data := by rw [sameMsg]
  have sending : PayloadSending start id (dataBytes (world.msgs id).data) (world.msgs id).dataLength start := by
    refine ⟨[], _, piece, cursor, 0, rfl, length.symm, ?_, ?_, ?_⟩
    · rw [data]
      exact reads
    · simp [need, crc32c]
    · have same : start.msgs id = { start.msgs id with
          cursor, footer := { (start.msgs id).footer with dataCrc := 0 } } := by
        rw [sameMsg]
        rw [← fresh]
      unfold paying
      rw [← same, update_eq_self, List.append_nil, update_eq_self]
  have transfer := @PayloadSending.transfer start id (dataBytes (world.msgs id).data) (by rw [sock]; exact opened)
    (by rw [msgr]; exact crcs)
  have called : ∀ count before, PayloadSending start id (dataBytes (world.msgs id).data) count before →
      writePartialMessageData bound id before =
        iterate .exhausted (fun _ => atomically (writeDataOnce id)) bound PUnit.unit before := by
    intro count before sending
    obtain ⟨sent, rest, piece, cursor, crc, _, _, _, _, state⟩ := sending.state
    unfold writePartialMessageData
    rw [read_eq, run_of_not]
    rw [state, paying_msgs]
    simp only [data]
    simpa using some_
  obtain ⟨ret, after, ran, result, patience⟩ := transfer.calls called calls sending enough
  refine ⟨ret, after, ?_, ?_, ?_⟩
  · unfold sendPayload
    have queued : atomically (fun world => do
        let world ← prepareWritePayload world id
        .ok (PUnit.unit, world)) world = .ok ⟨⟩ start := by
      simp only [atomically, prepared, bind, Except.bind]
    rw [bind_of_ok queued, ran]
  · rcases result with ⟨done, sent⟩ | ⟨stopped, lower, _, left⟩
    · have out := sent.wire
      rw [wire, sockNo] at out
      exact .inl ⟨done, out, sent.dataCrc⟩
    · obtain ⟨sent, rest, _, _, _, whole, _, _, _, state⟩ := left.state
      refine .inr ⟨stopped, sent, rest, whole, ?_⟩
      rw [state, ← wire, ← sockNo]
      rfl
  · intro patient
    exact patience (by rw [env]; exact patient)

end

def World.filling (start : World) (msg : InMsg) (sock : Sock) (data : List DataItem) (cursor : Cursor) (crc : UInt32)
    (recvs : List Int) : World :=
  { start with
    con := { start.con with
      sock := some sock
      input := { start.con.input with inMsg := some { msg with data, cursor }, inDataCrc := crc } }
    env := { start.env with recvs } }

/-- What has been received: the items hold it, and still their old bytes behind
it. -/
structure PayloadReading (start : World) (msg : InMsg) (bytes more : List UInt8) (count : Nat) (world : World) : Prop where
  state : ∃ got togo old data piece cursor received, got ++ togo = bytes ∧ togo.length = count ∧ old.length = count ∧
    dataBytes data = got ++ old ∧ data ≠ [] ∧ cursor.Reads data old piece ∧
    world = start.filling msg ⟨togo ++ more, received⟩ data cursor (crc32c 0 got) world.env.recvs

structure PayloadRead (bytes more : List UInt8) (world : World) : Prop where
  held : ∃ msg, world.con.input.inMsg = some msg ∧ dataBytes msg.data = bytes
  dataCrc : world.con.input.inDataCrc = crc32c 0 bytes
  incoming : ∃ received, world.con.sock = some ⟨more, received⟩

section

variable {start before : World} {msg : InMsg} {bytes more : List UInt8} {count : Nat}

theorem length_storePiece {data : List DataItem} {cursor : Cursor} :
    (storePiece data cursor bytes).length = data.length := by
  unfold storePiece
  split <;> simp

theorem readDataOnce_taken {togo : List UInt8} {received amount : Nat} {data : List DataItem} {cursor moved : Cursor}
    {crc : UInt32} {recvs : List Int} {piece : Piece} {fresh : Bool} (crcs : start.msgr.nocrc = false)
    (going : cursor.resid ≠ 0) (next : cephMsgDataNext data cursor = .ok piece) (taken : 0 < recvs.headD 0)
    (amount_ : min (recvs.headD 0).toNat piece.length = amount) (some_ : 0 < amount) (within : amount ≤ togo.length)
    (advanced : cephMsgDataAdvance data cursor amount = .ok (fresh, moved)) :
    readDataOnce (start.filling msg ⟨togo ++ more, received⟩ data cursor crc recvs) = .ok (.again ⟨⟩,
      start.filling msg ⟨togo.drop amount ++ more, received + amount⟩ (storePiece data cursor (togo.take amount)) moved
        (crc32c crc (togo.take amount)) recvs.tail) := by
  have here : (togo ++ more).take amount = togo.take amount := take_append_of_le_length within
  have rest : (togo ++ more).drop amount = togo.drop amount ++ more := drop_append_of_le_length within
  have length : (togo.take amount).length = amount := by
    rw [List.length_take]
    lia
  have received_ : (start.filling msg ⟨togo ++ more, received⟩ data cursor crc recvs).recv piece.length =
      .ok (((amount : Nat), togo.take amount),
        start.filling msg ⟨togo.drop amount ++ more, received + amount⟩ data cursor crc recvs.tail) := by
    have answered : ¬ recvs.headD 0 < 0 := by omega
    unfold World.recv
    simp only [World.filling, answered, if_false, amount_, here, length, rest]
  unfold readDataOnce
  simp only [World.filling]
  rw [if_pos going, next]
  simp only [bind, Except.bind]
  unfold World.filling at received_
  rw [received_]
  simp only [Int.toNat_natCast]
  rw [if_neg (by omega), advanced]
  simp only [crcs, Bool.false_eq_true, if_false, withInput]

theorem PayloadReading.moved (crcs : start.msgr.nocrc = false)
    (reading : PayloadReading start msg bytes more count before) (some_ : 0 < count)
    (taken : 0 < before.env.recvs.headD 0) :
    ∃ lower after, lower < count ∧ atomically readDataOnce before = .ok (.again ⟨⟩) after ∧
      PayloadReading start msg bytes more lower after ∧ after.env.recvs = before.env.recvs.tail := by
  obtain ⟨got, togo, old, data, piece, cursor, received, whole, length, lengthOld, held, nonempty, reads, state⟩ :=
    reading.state
  generalize before.env.recvs = recvs at taken state ⊢
  subst state
  have going := reads.going.mpr (by intro empty; simp [empty] at lengthOld; omega)
  obtain ⟨positive, bounded, found, next, pieceLength, _⟩ := reads.next going
  have amount : min (recvs.headD 0).toNat found.length = min (recvs.headD 0).toNat piece := by rw [pieceLength]
  have some_ : 0 < min (recvs.headD 0).toNat piece := by lia
  have within : min (recvs.headD 0).toNat piece ≤ piece := by lia
  generalize min (recvs.headD 0).toNat piece = part at amount some_ within
  obtain ⟨fresh, moved, nextPiece, advanced, _, readsAfter, place, _, _⟩ := reads.advance some_ within
  have ran := @readDataOnce_taken start msg more togo received part data cursor moved (crc32c 0 got) recvs found fresh crcs
    going next taken amount some_ (by lia) advanced
  have lengthTaken : (togo.take part).length = part := by
    rw [List.length_take]
    lia
  obtain ⟨stored, readsStored⟩ := @Cursor.Reads.store cursor moved (togo.take part) data got old (old.drop part) piece
    nextPiece reads held (by lia) (by omega) readsAfter (by rw [lengthTaken]) place
  refine ⟨count - part, start.filling msg ⟨togo.drop part ++ more, received + part⟩
    (storePiece data cursor (togo.take part)) moved (crc32c (crc32c 0 got) (togo.take part)) recvs.tail, by lia,
    by simp only [atomically, ran], ?_, rfl⟩
  refine ⟨got ++ togo.take part, togo.drop part, old.drop part, _, nextPiece, moved, received + part, ?_, ?_, ?_, stored,
    ?_, readsStored, by rw [crc32c_append]; rfl⟩
  · rw [append_assoc, take_append_drop, whole]
  · rw [length_drop, length]
  · rw [length_drop, lengthOld]
  · intro empty
    have same := @length_storePiece (togo.take part) data cursor
    rw [empty] at same
    exact nonempty (eq_nil_of_length_eq_zero same.symm)

theorem PayloadReading.blocked (reading : PayloadReading start msg bytes more count before) (some_ : 0 < count)
    (refused : before.env.recvs.headD 0 ≤ 0) :
    ∃ after, atomically readDataOnce before = .ok (.done (sockError (before.env.recvs.headD 0))) after ∧
      PayloadReading start msg bytes more count after ∧ after.env.recvs = before.env.recvs.tail := by
  obtain ⟨got, togo, old, data, piece, cursor, received, whole, length, lengthOld, held, nonempty, reads, state⟩ :=
    reading.state
  generalize before.env.recvs = recvs at refused state ⊢
  subst state
  have going := reads.going.mpr (by intro empty; simp [empty] at lengthOld; omega)
  obtain ⟨_, _, found, next, _, _⟩ := reads.next going
  refine ⟨start.filling msg ⟨togo ++ more, received⟩ data cursor (crc32c 0 got) recvs.tail, ?_,
    ⟨got, togo, old, data, piece, cursor, received, whole, length, lengthOld, held, nonempty, reads, rfl⟩, rfl⟩
  have received_ : (start.filling msg ⟨togo ++ more, received⟩ data cursor (crc32c 0 got) recvs).recv found.length =
      .ok ((sockError (recvs.headD 0), []),
        start.filling msg ⟨togo ++ more, received⟩ data cursor (crc32c 0 got) recvs.tail) := by
    unfold World.recv
    rcases Int.lt_or_eq_of_le refused with below | zero
    · simp only [World.filling, below, if_true]
    · simp only [World.filling, zero, lt_irrefl, if_false, Int.toNat_zero, Nat.zero_min, take_zero,
        length_nil, drop_zero, Nat.add_zero]
      rfl
  have low := sockError_nonpos _ refused
  unfold atomically readDataOnce
  simp only [World.filling]
  rw [if_pos going, next]
  simp only [bind, Except.bind]
  unfold World.filling at received_
  rw [received_]
  simp only
  rw [if_pos low]

theorem PayloadReading.stopped (reading : PayloadReading start msg bytes more 0 before) :
    ∃ after, atomically readDataOnce before = .ok (.done 1) after ∧ PayloadRead bytes more after := by
  obtain ⟨got, togo, old, data, piece, cursor, received, whole, length, lengthOld, held, nonempty, reads, state⟩ :=
    reading.state
  generalize before.env.recvs = recvs at state
  subst state
  have finished : togo = [] := eq_nil_of_length_eq_zero length
  have stored : old = [] := eq_nil_of_length_eq_zero lengthOld
  subst finished stored
  rw [List.append_nil] at whole held
  subst whole
  have stopped : ¬ cursor.resid ≠ 0 := fun going => reads.going.mp going rfl
  refine ⟨start.filling msg ⟨[] ++ more, received⟩ data cursor (crc32c 0 got) recvs, ?_,
    ⟨⟨_, rfl, held⟩, rfl, received, rfl⟩⟩
  unfold atomically readDataOnce
  simp only [World.filling]
  rw [if_neg stopped]

theorem PayloadReading.transfer (crcs : start.msgr.nocrc = false) :
    Transfer (atomically readDataOnce) (fun world => world.env.recvs) sockError
      (PayloadReading start msg bytes more) (PayloadRead bytes more) :=
  { blocked := fun _ _ reading => reading.blocked
    moved := fun _ _ reading => reading.moved crcs
    stopped := fun _ reading => reading.stopped
    codes := sockError_nonpos }

/-- What a receiver with room for the payload comes to. -/
theorem receivePayload_ok {world : World} {bound calls received : Nat} (crcs : world.msgr.nocrc = false)
    (reading : world.con.input.inMsg = some msg) (some_ : msg.data ≠ []) (paged : ∀ item ∈ msg.data, item.Paged)
    (length : msg.dataLength = (dataBytes msg.data).length) (header : msg.hdr.dataLen.toNat = msg.dataLength)
    (fresh : world.con.input.inDataCrc = 0) (same : bytes.length = msg.dataLength)
    (arrives : world.con.sock = some ⟨bytes ++ more, received⟩) (enough : msg.dataLength < bound) :
    ∃ ret after, receivePayload bound calls world = .ok ret after ∧
      (ret = 1 ∧ PayloadRead bytes more after ∨ ret ≤ 0) ∧
      (Patient sockError msg.dataLength calls world.env.recvs → ret = 1) := by
  obtain ⟨cursor, piece, began, _, reads⟩ := @cephMsgDataCursorInit_reads msg.cursor _ some_ paged
  have nonempty : msg.hdr.dataLen.toNat ≠ 0 := by
    intro empty
    have counts := (cephMsgDataCursorInit_counts began).1
    lia
  have prepared : prepareInData msg = .ok { msg with cursor } := by
    unfold prepareInData
    rw [if_pos nonempty, header, length, began]
    rfl
  have start : PayloadReading world msg bytes more msg.dataLength
      (world.withInput { world.con.input with inMsg := some { msg with cursor } }) := by
    refine ⟨[], bytes, _, msg.data, piece, cursor, received, rfl, same, length.symm, rfl, some_, reads, ?_⟩
    have zero : crc32c 0 [] = world.con.input.inDataCrc := by simp [crc32c, fresh]
    unfold World.filling withInput
    rw [zero, ← arrives]
  have called : ∀ count before, PayloadReading world msg bytes more count before →
      readPartialMsgData bound before =
        iterate .exhausted (fun _ => atomically readDataOnce) bound PUnit.unit before := by
    intro count before reading
    obtain ⟨_, _, _, data, _, _, _, _, _, _, _, nonempty, _, state⟩ := reading.state
    generalize before.env.recvs = recvs at state
    subst state
    unfold readPartialMsgData
    rw [read_eq]
    simp only [World.filling]
    rw [run_of_not (by simpa using nonempty)]
  obtain ⟨ret, after, ran, result, patience⟩ := (PayloadReading.transfer crcs).calls called calls start enough
  refine ⟨ret, after, ?_, ?_, patience⟩
  · unfold receivePayload
    have began : atomically (fun world =>
        match world.con.input.inMsg with
        | none => .error .bug
        | some msg => do
          let msg ← prepareInData msg
          .ok (PUnit.unit, world.withInput { world.con.input with inMsg := some msg })) world =
        .ok ⟨⟩ (world.withInput { world.con.input with inMsg := some { msg with cursor } }) := by
      simp only [atomically, reading, prepared, bind, Except.bind]
    rw [bind_of_ok began, ran]
  · rcases result with done | ⟨stopped, _⟩
    · exact .inl done
    · exact .inr stopped

end

/-- A message that is about to be sent with its data, checksums on. -/
structure Payable (world : World) (id : Nat) : Prop where
  opened : world.con.sock.isSome
  crcs : world.msgr.nocrc = false
  some_ : (world.msgs id).data ≠ []
  paged : ∀ item ∈ (world.msgs id).data, item.Paged
  length : (world.msgs id).dataLength = (dataBytes (world.msgs id).data).length
  small : (world.msgs id).dataLength < 2 ^ 32
  fresh : (world.msgs id).footer.dataCrc = 0

/-- A message that is being read up to its data, checksums on. -/
structure Fillable (world : World) (msg : InMsg) : Prop where
  reading : world.con.input.inMsg = some msg
  crcs : world.msgr.nocrc = false
  some_ : msg.data ≠ []
  paged : ∀ item ∈ msg.data, item.Paged
  length : msg.dataLength = (dataBytes msg.data).length
  header : msg.hdr.dataLen.toNat = msg.dataLength
  fresh : world.con.input.inDataCrc = 0

/-- However the sockets split it, the payload goes out whole and in order, comes in
as it went out, and both sides have its checksum. Until then a part of it is out,
and nothing halts. -/
theorem payload_transferred {sender receiver : World} {id bound sends recvs received : Nat} {msg : InMsg}
    {more : List UInt8} (payable : Payable sender id) (fillable : Fillable receiver msg)
    (same : msg.dataLength = (sender.msgs id).dataLength)
    (arrives : receiver.con.sock = some ⟨dataBytes (sender.msgs id).data ++ more, received⟩)
    (enough : msg.dataLength < bound) :
    (∃ ret after, sendPayload bound sends id sender = .ok ret after ∧
      (ret = 1 ∧ after.wire = update sender.wire sender.sockNo
          (sender.wire sender.sockNo ++ dataBytes (sender.msgs id).data) ∧
          (after.msgs id).footer.dataCrc = crc32c 0 (dataBytes (sender.msgs id).data) ∨
        ret ≤ 0 ∧ ∃ sent rest, sent ++ rest = dataBytes (sender.msgs id).data ∧
          after.wire = update sender.wire sender.sockNo (sender.wire sender.sockNo ++ sent)) ∧
      (Patient sockError msg.dataLength sends sender.env.sends → ret = 1)) ∧
    (∃ ret after, receivePayload bound recvs receiver = .ok ret after ∧
      (ret = 1 ∧ PayloadRead (dataBytes (sender.msgs id).data) more after ∨ ret ≤ 0) ∧
      (Patient sockError msg.dataLength recvs receiver.env.recvs → ret = 1)) := by
  constructor
  · rw [same]
    exact sendPayload_ok payable.opened payable.crcs payable.some_ payable.paged payable.length payable.small
      payable.fresh (same ▸ enough)
  · exact receivePayload_ok fillable.crcs fillable.reading fillable.some_ fillable.paged fillable.length
      fillable.header fillable.fresh (by rw [same, payable.length]) arrives enough

def itemsSender (data : List DataItem) (nocrc : Bool) (sends : List Int) : World :=
  let world := World.init (cephMessengerInit ⟨8, 0⟩ [] [] 0 0 nocrc) fun _ =>
    { cephMsgNew 0 [] with data, dataLength := (data.map DataItem.length).sum }
  { world with
    con := { world.con with sock := some ⟨[], 0⟩, state := .opened }
    env := { world.env with sends } }

def itemSender (item : DataItem) (nocrc : Bool) (sends : List Int) : World :=
  itemsSender [item] nocrc sends

def itemsInMsg (data : List DataItem) : InMsg :=
  { id := 0, hdr := { MsgHeader.zero with dataLen := UInt32.ofNat (data.map DataItem.length).sum }, footer := [], front := []
    middle := none, data, dataLength := (data.map DataItem.length).sum, cursor := Cursor.blank }

def itemsReceiver (data : List DataItem) (incoming : List UInt8) (recvs : List Int) : World :=
  let world := World.init (cephMessengerInit ⟨8, 0⟩ [] [] 0 0 false) fun _ => cephMsgNew 0 []
  { world with
    con := { world.con with
      sock := some ⟨incoming, 0⟩, state := .opened, input := { world.con.input with inMsg := some (itemsInMsg data) } }
    env := { world.env with recvs } }

def byteItem : DataItem := .pages [7 :: replicate 4095 0] 1 0

/-- Ten bytes that begin five before the end of a page, and three of a pagelist. -/
def twoItems : List DataItem :=
  [.pages [replicate 4091 0 ++ [1, 2, 3, 4, 5], [6, 7, 8, 9, 10] ++ replicate 4091 0] 10 4091,
    .pagelist [[11, 12, 13] ++ replicate 4093 0] 3]

theorem twoItems_paged : ∀ item ∈ twoItems, item.Paged := by
  intro item member
  simp only [twoItems, mem_cons, not_mem_nil, or_false] at member
  rcases member with rfl | rfl
  · refine ⟨by decide, ?_, by decide, show calcPagesFor 4091 10 ≤ 65535 by decide⟩
    intro page member
    simp only [DataItem.memory, mem_cons, not_mem_nil, or_false] at member
    rcases member with rfl | rfl
    · rw [length_append, length_replicate]
      rfl
    · rw [length_append, length_replicate]
      rfl
  · refine ⟨by decide, ?_, by decide, trivial⟩
    intro page member
    simp only [DataItem.memory, mem_singleton] at member
    rw [member, length_append, length_replicate]
    rfl

/-- The first send takes four bytes and the next one none, and the bytes come in as three, none, and the rest. -/
theorem payload_transferred_twoItems :
    (∃ after, sendPayload 14 2 0 (itemsSender twoItems false (4 :: 0 :: replicate 13 9)) = .ok 1 after ∧
      after.wire 0 = dataBytes twoItems ∧ (after.msgs 0).footer.dataCrc = crc32c 0 (dataBytes twoItems)) ∧
    ∃ after, receivePayload 14 2 (itemsReceiver twoItems (dataBytes twoItems ++ [14]) (3 :: 0 :: replicate 13 9)) = .ok 1 after ∧
      PayloadRead (dataBytes twoItems) [14] after := by
  have length : 13 = (dataBytes twoItems).length := by
    rw [dataBytes, length_flatMap, map_congr_left fun item member => (twoItems_paged item member).length_bytes]
    rfl
  obtain ⟨⟨ret, after, sent, result, patience⟩, ret', after', received, result', patience'⟩ :=
    @payload_transferred (itemsSender twoItems false (4 :: 0 :: replicate 13 9))
      (itemsReceiver twoItems (dataBytes twoItems ++ [14]) (3 :: 0 :: replicate 13 9)) 0 14 2 2 0 (itemsInMsg twoItems) [14]
      ⟨rfl, rfl, cons_ne_nil _ _, twoItems_paged, length, by decide, rfl⟩
      ⟨rfl, rfl, cons_ne_nil _ _, twoItems_paged, length, by decide, rfl⟩ rfl rfl (by decide)
  obtain rfl : ret = 1 := patience ⟨by decide, by decide, by decide⟩
  obtain rfl : ret' = 1 := patience' ⟨by decide, by decide, by decide⟩
  obtain ⟨-, wire, crc⟩ := result.resolve_right fun stopped => absurd stopped.1 (by decide)
  refine ⟨⟨after, sent, ?_, crc⟩, after', received, (result'.resolve_right (by decide)).2⟩
  rw [wire]
  exact nil_append _

def longItem : DataItem := .pages (replicate 65536 (replicate 4096 0)) (65536 * 4096) 0

def hugeItem : DataItem := .pagelist (replicate 1048576 (replicate 4096 0)) (1048576 * 4096)

def payloadResult (program : Prog Int) (id : Nat) (world : World) : Except Halt (Int × UInt32) :=
  match program world with
  | .ok ret after => .ok (ret, (after.msgs id).footer.dataCrc)
  | .error halt _ => .error halt

/-- The transfer halts on a page array of 65536 pages and on 4 GiB of data, and
without checksums the footer has none. -/
theorem payload_halts :
    payloadResult (sendPayload 2 1 0) 0 (itemSender longItem false [1]) = .error .bug ∧
    payloadResult (sendPayload 2 1 0) 0 (itemSender hugeItem false [1]) = .error .bug ∧
    payloadResult (sendPayload 2 1 0) 0 (itemSender byteItem true [1]) = .ok (1, 0) ∧
    crc32c 0 (dataBytes [byteItem]) ≠ 0 := by
  decide +kernel

end KmodCeph.Messenger
