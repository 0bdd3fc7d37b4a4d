import KmodCeph.Messenger.Runs

namespace KmodCeph.Messenger

open Lib List

def Kvec.read (memory : Ref → List UInt8) (kvec : Kvec) : List UInt8 :=
  ((memory kvec.base).drop kvec.offset).take kvec.len

def gather (memory : Ref → List UInt8) (kvecs : List Kvec) : List UInt8 :=
  kvecs.flatMap (Kvec.read memory)

theorem World.pendingBytes_eq (world : World) :
    world.pendingBytes = gather world.bytesAt world.con.output.pending := rfl

def Fits (memory : Ref → List UInt8) (kvecs : List Kvec) : Prop :=
  ∀ kvec ∈ kvecs, kvec.offset + kvec.len ≤ (memory kvec.base).length

def kvecsLen (kvecs : List Kvec) : Nat :=
  (kvecs.map Kvec.len).sum

section

variable {memory : Ref → List UInt8} {kvecs first second : List Kvec}

@[simp] theorem gather_nil : gather memory [] = [] := rfl

@[simp] theorem gather_append : gather memory (first ++ second) = gather memory first ++ gather memory second :=
  flatMap_append

@[simp] theorem gather_cons (kvec : Kvec) :
    gather memory (kvec :: kvecs) = kvec.read memory ++ gather memory kvecs :=
  flatMap_cons

@[simp] theorem kvecsLen_append : kvecsLen (first ++ second) = kvecsLen first + kvecsLen second := by
  simp [kvecsLen]

@[simp] theorem kvecsLen_cons (kvec : Kvec) : kvecsLen (kvec :: kvecs) = kvec.len + kvecsLen kvecs := by
  simp [kvecsLen]

theorem Kvec.length_read {kvec : Kvec} (fits : kvec.offset + kvec.len ≤ (memory kvec.base).length) :
    (kvec.read memory).length = kvec.len := by
  simp only [Kvec.read, List.length_take, length_drop]
  lia

variable {base : Ref} {len : Nat} {other : Ref → List UInt8}

theorem Kvec.fits_whole (length : (memory base).length = len) :
    (⟨base, 0, len⟩ : Kvec).offset + (⟨base, 0, len⟩ : Kvec).len ≤ (memory (⟨base, 0, len⟩ : Kvec).base).length := by
  simp only
  omega

theorem Kvec.read_whole (length : (memory base).length = len) :
    (⟨base, 0, len⟩ : Kvec).read memory = memory base := by
  simp [Kvec.read, ← length]

theorem length_gather (fits : Fits memory kvecs) : (gather memory kvecs).length = kvecsLen kvecs := by
  induction kvecs with
  | nil => rfl
  | cons kvec rest ih =>
    rw [gather_cons, kvecsLen_cons, length_append, Kvec.length_read (fits kvec (by simp)),
      ih fun other member => fits other (by simp [member])]

theorem gather_congr (same : ∀ kvec ∈ kvecs, other kvec.base = memory kvec.base) :
    gather other kvecs = gather memory kvecs := by
  induction kvecs with
  | nil => rfl
  | cons kvec rest ih =>
    rw [gather_cons, gather_cons, ih fun next member => same next (by simp [member])]
    simp only [Kvec.read, same kvec (by simp)]

theorem Fits.congr (fits : Fits memory kvecs)
    (same : ∀ kvec ∈ kvecs, other kvec.base = memory kvec.base) : Fits other kvecs := by
  intro kvec member
  rw [same kvec member]
  exact fits kvec member

end

/-- What is pending of the kvecs that were queued. -/
structure Output.Holds (output : Output) (kvecs : List Kvec) : Prop where
  size : output.outKvec.length = 8
  pending : output.pending = kvecs
  left : output.outKvecLeft = kvecs.length
  bytes : output.outKvecBytes = kvecsLen kvecs

def Output.standing (output : Output) : Option Nat × Bool × Int × UInt64 :=
  (output.outMsg, output.outMsgDone, output.outSkip, output.outTempAck)

section

variable {output after : Output} {kvecs : List Kvec}

theorem Output.Holds.of_left (size : output.outKvec.length = 8) (left : output.outKvecLeft = 0)
    (bytes : output.outKvecBytes = 0) : output.Holds [] where
  size := size
  pending := by rw [Output.pending, left, take_zero]
  left := left
  bytes := bytes

theorem Output.Holds.of_same (holds : output.Holds kvecs) (outKvec : after.outKvec = output.outKvec)
    (cur : after.outKvecCur = output.outKvecCur) (left : after.outKvecLeft = output.outKvecLeft)
    (bytes : after.outKvecBytes = output.outKvecBytes) : after.Holds kvecs where
  size := by rw [outKvec, holds.size]
  pending := by rw [Output.pending, outKvec, cur, left, ← Output.pending, holds.pending]
  left := left.trans holds.left
  bytes := bytes.trans holds.bytes

theorem Output.Holds.reset (holds : output.Holds kvecs) : (conOutKvecReset output).Holds [] :=
  .of_left holds.size rfl rfl

/-- A kvec is stored at the index `out_kvec_left`, which is the place after
the pending ones as long as none of them has been sent. -/
theorem Output.Holds.store (holds : output.Holds kvecs) (cur : output.outKvecCur = 0)
    (room : output.outKvecLeft < 8) {kvec : Kvec} (outKvec : after.outKvec = output.outKvec.set output.outKvecLeft kvec)
    (outKvecCur : after.outKvecCur = 0) (outKvecLeft : after.outKvecLeft = output.outKvecLeft + 1)
    (outKvecBytes : after.outKvecBytes = output.outKvecBytes + kvec.len) : after.Holds (kvecs ++ [kvec]) := by
  have size := holds.size
  have pending := holds.pending
  refine ⟨?_, ?_, ?_, ?_⟩
  · rw [outKvec, length_set, size]
  · rw [Output.pending, cur, drop_zero] at pending
    rw [Output.pending, outKvecCur, outKvecLeft, outKvec, drop_zero, take_succ, take_set_of_le le_rfl,
      pending, getElem?_set_self (by lia)]
    rfl
  · simp [outKvecLeft, holds.left]
  · simp [outKvecBytes, holds.bytes, kvecsLen]

theorem Output.Holds.add {size : Nat} {data : Ref} (holds : output.Holds kvecs) (cur : output.outKvecCur = 0)
    (ran : conOutKvecAdd output size data = .ok after) :
    after.Holds (kvecs ++ [⟨data, 0, size⟩]) ∧ after.outKvecCur = 0 ∧ after.standing = output.standing := by
  unfold conOutKvecAdd at ran
  split at ran
  · cases ran
  · cases ran
    exact ⟨holds.store cur (by omega) rfl cur rfl rfl, cur, rfl⟩

def messageKvecs (id : Nat) (msg : Msg) : List Kvec :=
  [⟨.tagMsg, 0, 1⟩, ⟨.hdr id, 0, sizeofMsgHeader⟩, ⟨.front id, 0, msg.front.length⟩] ++
    match msg.middle with
    | none => []
    | some middle => [⟨.middle id, 0, middle.length⟩]

theorem Output.Holds.addMessage {id : Nat} {msg : Msg} (holds : output.Holds kvecs)
    (cur : output.outKvecCur = 0) (ran : addMessageKvecs output id msg = .ok after) :
    after.Holds (kvecs ++ messageKvecs id msg) ∧ after.outKvecCur = 0 ∧ after.standing = output.standing := by
  obtain ⟨tagged, first, ran⟩ := ok_of_bind ran
  obtain ⟨headed, second, ran⟩ := ok_of_bind ran
  obtain ⟨fronted, third, ran⟩ := ok_of_bind ran
  obtain ⟨holds, cur, firstSame⟩ := holds.add cur first
  obtain ⟨holds, cur, secondSame⟩ := holds.add cur second
  obtain ⟨holds, cur, thirdSame⟩ := holds.add cur third
  have same := thirdSame.trans (secondSame.trans firstSame)
  cases middle : msg.middle with
  | none =>
    rw [middle] at ran
    cases ran
    simp only [append_assoc] at holds
    simp only [messageKvecs, middle]
    exact ⟨holds, cur, same⟩
  | some bytes =>
    rw [middle] at ran
    obtain ⟨holds, cur, last⟩ := holds.add cur ran
    simp only [append_assoc] at holds
    simp only [messageKvecs, middle]
    exact ⟨holds, cur, last.trans same⟩

def ackKvecs : List Kvec :=
  [⟨.tagAck, 0, 1⟩, ⟨.outTempAck, 0, 8⟩]

variable {count : Nat} {memory : Ref → List UInt8}

theorem consumeKvecs_ok {array : List Kvec} {left cur left' cur' rest : Nat}
    (ran : consumeKvecs array left cur count = .ok (left', cur', rest)) :
    ∃ passed, (array.drop cur).take left = passed ++ (array.drop cur').take left' ∧
      cur' = cur + passed.length ∧ left = passed.length + left' ∧ count = kvecsLen passed + rest ∧
      ∃ kvec, array[cur']? = some kvec ∧ rest < kvec.len := by
  induction left generalizing cur count with
  | zero =>
    simp only [consumeKvecs] at ran
    split at ran
    · cases ran
    · split at ran
      · cases ran
      · cases ran
        exact ⟨[], rfl, rfl, rfl, by simp [kvecsLen], _, ‹_›, by omega⟩
  | succ left ih =>
    simp only [consumeKvecs] at ran
    split at ran
    · cases ran
    · rename_i kvec found
      obtain ⟨bounded, found⟩ := List.getElem?_eq_some_iff.mp found
      split at ran
      · obtain ⟨passed, window, cur, left, counted, stop⟩ := ih ran
        refine ⟨kvec :: passed, ?_, ?_, ?_, ?_, stop⟩
        · rw [drop_eq_getElem_cons bounded, found, take_succ_cons, window]
          rfl
        · simp only [length_cons]
          lia
        · simp only [length_cons]
          lia
        · rw [kvecsLen_cons]
          lia
      · cases ran
        exact ⟨[], rfl, rfl, by simp, by simp [kvecsLen], kvec,
          List.getElem?_eq_some_iff.mpr ⟨bounded, found⟩, by omega⟩

def Kvec.advance (kvec : Kvec) (count : Nat) : Kvec :=
  { kvec with offset := kvec.offset + count, len := kvec.len - count }

theorem Kvec.read_advance (kvec : Kvec) (count : Nat) :
    (kvec.advance count).read memory = (kvec.read memory).drop count := by
  simp only [Kvec.read, Kvec.advance, drop_take, drop_drop]

/-- The pending kvecs after some bytes of them have been sent. -/
structure Advances (memory : Ref → List UInt8) (output after : Output) (count : Nat) : Prop where
  holds : after.Holds after.pending
  fits : Fits memory after.pending
  bytes : gather memory after.pending = (gather memory output.pending).drop count
  bases : ∀ kvec ∈ after.pending, ∃ old ∈ output.pending, kvec.base = old.base
  cur : output.outKvecCur ≤ after.outKvecCur
  first : after.outKvecCur = 0 → after.pending = [] ∨
    ∃ kvec later, output.pending = kvec :: later ∧ after.pending = kvec.advance count :: later ∧ count ≤ kvec.len
  standing : after.standing = output.standing

theorem Output.Holds.advance {next : Next PUnit Int}
    (holds : output.Holds output.pending) (fits : Fits memory output.pending)
    (enough : count ≤ kvecsLen output.pending) (ran : advanceKvecs output count = .ok (next, after)) :
    Advances memory output after count := by
  obtain ⟨total, _, rfl⟩ | ⟨partial_, _, left, cur, rest, consumed, rfl⟩ := advanceKvecs_cases ran
  · have whole : count = kvecsLen output.pending := by
      have bytes := holds.bytes
      omega
    have empty : (finishKvecs { output with outKvecBytes := 0 }).pending = [] := by
      simp [Output.pending, finishKvecs]
    refine ⟨?_, ?_, ?_, ?_, le_rfl, fun _ => .inl empty, rfl⟩
    · rw [empty]
      exact .of_left holds.size rfl rfl
    · rw [empty]
      exact nofun
    · rw [empty, drop_of_length_le (by rw [length_gather fits, whole])]
      rfl
    · rw [empty]
      exact nofun
  · obtain ⟨passed, window, rfl, lefts, rfl, kvec, found, short⟩ := consumeKvecs_ok consumed
    obtain ⟨bounded, found⟩ := List.getElem?_eq_some_iff.mp found
    have bytes := holds.bytes
    have pending : output.pending = passed ++ (output.outKvec.drop (output.outKvecCur + passed.length)).take left :=
      window
    -- not everything was sent, so a kvec is left
    obtain ⟨left, rfl⟩ : ∃ fewer, left = fewer + 1 := by
      refine Nat.exists_eq_succ_of_ne_zero fun none_ => partial_ ?_
      rw [none_, take_zero, List.append_nil] at pending
      rw [pending] at enough bytes
      rw [bytes]
      omega
    rw [drop_eq_getElem_cons bounded, found, take_succ_cons] at pending
    generalize tail : (output.outKvec.drop (output.outKvecCur + passed.length + 1)).take left = later at pending
    have rest_ : ({ output with
        outKvecBytes := output.outKvecBytes - ((kvecsLen passed + rest : Nat) : Int), outKvecLeft := left + 1
        outKvecCur := output.outKvecCur + passed.length
        outKvec := output.outKvec.modify (output.outKvecCur + passed.length)
          fun kvec => { kvec with offset := kvec.offset + rest, len := kvec.len - rest } } : Output).pending =
        kvec.advance rest :: later := by
      simp only [Output.pending]
      rw [drop_eq_getElem_cons (by simpa using bounded), take_succ_cons, getElem_modify_eq, found,
        drop_modify_of_lt _ _ _ _ (by omega), tail]
      rfl
    rw [pending] at fits bytes
    have fitsFirst := fits kvec (by simp)
    refine ⟨⟨?_, rfl, ?_, ?_⟩, ?_, ?_, ?_, Nat.le_add_right _ _, fun cur => .inr ?_, rfl⟩
    · simpa using holds.size
    · rw [rest_, ← tail, length_cons]
      have lengths := holds.left
      rw [pending, ← tail] at lengths
      simp only [length_append, length_cons] at lengths ⊢
      lia
    · rw [rest_]
      simp only [kvecsLen_append, kvecsLen_cons] at bytes ⊢
      simp only [Kvec.advance, bytes]
      lia
    · rw [rest_]
      intro other member
      rcases List.mem_cons.mp member with rfl | member
      · simp only [Kvec.advance]
        lia
      · exact fits other (by simp [member])
    · have passedFits : Fits memory passed := fun other member => fits other (by simp [member])
      have passedLen := length_gather passedFits
      have beyond : (gather memory passed).drop (kvecsLen passed + rest) = [] :=
        drop_of_length_le (by lia)
      rw [rest_, pending, gather_append, gather_cons, gather_cons, Kvec.read_advance, drop_append, beyond,
        passedLen, Nat.add_sub_cancel_left, nil_append,
        drop_append_of_le_length (by rw [Kvec.length_read fitsFirst]; omega)]
    · rw [rest_, pending]
      intro other member
      rcases List.mem_cons.mp member with rfl | member
      · exact ⟨kvec, by simp, rfl⟩
      · exact ⟨other, by simp [member], rfl⟩
    · have none_ : passed = [] := eq_nil_of_length_eq_zero (by simp only at cur; lia)
      rw [rest_, pending]
      subst none_
      exact ⟨kvec, later, rfl, by simp [kvecsLen], by simp [kvecsLen]; omega⟩

end

end KmodCeph.Messenger
