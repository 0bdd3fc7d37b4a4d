import KmodCeph.Messenger.Runs

namespace KmodCeph.Messenger

open Lib Function List World

/-- What the log says of a session: the messages that were sent and neither
acked nor revoked, how many numbers were given out and when each message got
one, the number each message was first transmitted with since it was sent, and
the acks that were processed. -/
structure Ledger where
  live : List Nat
  count : Nat
  counter : Nat → Nat
  first : Nat → Option UInt64
  acks : List UInt64

def Ledger.empty : Ledger :=
  { live := [], count := 0, counter := fun _ => 0, first := fun _ => none, acks := [] }

def Ledger.record (ledger : Ledger) : Entry → Ledger
  | .sent id => { ledger with
      live := ledger.live ++ [id], first := Function.update ledger.first id none }
  | .numbered id _ => { ledger with
      count := ledger.count + 1
      counter := Function.update ledger.counter id (ledger.count + 1) }
  | .transmitted id seq _ => { ledger with
      first := Function.update ledger.first id (some ((ledger.first id).getD seq)) }
  | .acked id _ _ => { ledger with live := ledger.live.erase id }
  | .revoked id => { ledger with live := ledger.live.erase id }
  | .acknowledged ack _ => { ledger with acks := ack :: ledger.acks }
  | .reset => .empty
  | _ => ledger

def ledger : List Entry → Ledger
  | [] => .empty
  | entry :: rest => (ledger rest).record entry

/-- No message that is in the messenger's hands is passed to `ceph_con_send`
again while the connection is closed. -/
def Tidy (log : List Entry) : Prop :=
  ∀ id, .dropped id true ∉ log

def Transmissions (holds : Nat → UInt64 → Ledger → Prop) (log : List Entry) : Prop :=
  ∀ id seq sound rest, .transmitted id seq sound :: rest <:+ log → holds id seq (ledger rest)

/-- Every later transmission of a message carries the number of the first one
since the message was sent. -/
def Retransmits (log : List Entry) : Prop :=
  Transmissions (fun id seq book => book.first id ∈ [none, some seq]) log

def Entry.neutral : Entry → Bool
  | .consumed .. | .tag _ | .interrupted _ | .opened .. | .greeted .. | .asked _ | .replied | .leaked => true
  | .dropped _ queued => !queued
  | _ => false

def Grown (before after : List Entry) : Prop :=
  after = before ∨ ∃ entry : Entry, entry.neutral ∧ after = entry :: before

section

variable {before after : List Entry}

theorem Grown.book (grown : Grown before after) : ledger after = ledger before := by
  obtain rfl | ⟨entry, neutral, rfl⟩ := grown
  · rfl
  · cases entry <;> first | rfl | cases neutral

theorem Grown.suffix (grown : Grown before after) : before <:+ after := by
  obtain rfl | ⟨entry, _, rfl⟩ := grown
  · exact suffix_refl _
  · exact suffix_cons _ _

theorem Grown.tidy (grown : Grown before after) (tidy : Tidy after) : Tidy before :=
  fun id member => tidy id (grown.suffix.subset member)

variable {holds : Nat → UInt64 → Ledger → Prop} {log : List Entry}

theorem Transmissions.cons {entry : Entry} (transmissions : Transmissions holds log)
    (next : ∀ id seq sound, entry = .transmitted id seq sound → holds id seq (ledger log)) :
    Transmissions holds (entry :: log) := by
  intro id seq sound rest suffix
  rcases List.suffix_cons_iff.mp suffix with equal | suffix
  · obtain ⟨rfl, rfl⟩ := List.cons.inj equal
    exact next id seq sound rfl
  · exact transmissions id seq sound rest suffix

theorem Transmissions.append {entries : List Entry} (transmissions : Transmissions holds log)
    (others : ∀ entry ∈ entries, ∀ id seq sound, entry ≠ .transmitted id seq sound) :
    Transmissions holds (entries ++ log) := by
  induction entries with
  | nil => exact transmissions
  | cons entry entries ih =>
    refine (ih fun other member => others other (by simp [member])).cons fun id seq sound equal => ?_
    exact absurd equal (others entry (by simp) id seq sound)

theorem Grown.transmissions (grown : Grown before after) (transmissions : Transmissions holds before) :
    Transmissions holds after := by
  obtain rfl | ⟨entry, neutral, rfl⟩ := grown
  · exact transmissions
  · refine transmissions.cons ?_
    rintro id seq sound rfl
    cases neutral

end

/-- A message that has a number, and the number counts the messages of the session. -/
structure World.Numbered (world : World) (id : Nat) : Prop where
  needsOutSeq : (world.msgs id).needsOutSeq = false
  seq : (world.msgs id).hdr.seq = UInt64.ofNat ((ledger world.log).counter id)
  counter : (ledger world.log).counter id ≤ (ledger world.log).count
  first : (ledger world.log).first id = some (world.msgs id).hdr.seq

/-- The messages with a number come first, in the order of their numbers. -/
structure World.Numbering (world : World) (requeued waiting : List Nat) : Prop where
  split : world.con.queues.outQueue = requeued ++ waiting
  numbered : ∀ id ∈ world.con.queues.outSent ++ requeued, world.Numbered id
  waiting : ∀ id ∈ waiting, (world.msgs id).needsOutSeq = true ∧ (ledger world.log).first id = none
  increasing : (world.con.queues.outSent ++ requeued).Pairwise
    fun first second => (ledger world.log).counter first < (ledger world.log).counter second

/-- The order of the outgoing lists, and the numbers of the messages on them. -/
structure Outbound (world : World) : Prop where
  live : world.con.queues.outSent ++ world.con.queues.outQueue = (ledger world.log).live
  nodup : (world.con.queues.outSent ++ world.con.queues.outQueue).Nodup
  owned : ∀ id, (world.msgs id).con = true ↔
    id ∈ world.con.queues.outSent ++ world.con.queues.outQueue
  outSeq : world.con.queues.outSeq = UInt64.ofNat (ledger world.log).count
  numbering : Tidy world.log → ∃ requeued waiting, world.Numbering requeued waiting
  retransmits : Tidy world.log → Retransmits world.log

theorem erase_append_of_nodup {first second : List Nat} (id : Nat) (nodup : (first ++ second).Nodup) :
    (first ++ second).erase id = first.erase id ++ second.erase id := by
  rw [erase_append]
  split
  · rename_i member
    have other : id ∉ second := (List.nodup_append.mp nodup).2.2 id member |> fun apart inSecond =>
      apart id inSecond rfl
    rw [erase_of_not_mem other]
  · rename_i absent
    rw [erase_of_not_mem absent]

section

variable {before after : World}

theorem World.Numbered.of_same {id : Nat} (numbered : before.Numbered id)
    (needs : (after.msgs id).needsOutSeq = (before.msgs id).needsOutSeq)
    (seq : (after.msgs id).hdr.seq = (before.msgs id).hdr.seq)
    (counter : (ledger after.log).counter id = (ledger before.log).counter id)
    (count : (ledger before.log).count ≤ (ledger after.log).count)
    (first : (ledger after.log).first id = (ledger before.log).first id) :
    after.Numbered id where
  needsOutSeq := needs.trans numbered.needsOutSeq
  seq := by rw [seq, counter, numbered.seq]
  counter := by rw [counter]; exact numbered.counter.trans count
  first := by rw [first, seq, numbered.first]

def Msg.standing (msg : Msg) : Bool × Bool × UInt64 :=
  (msg.con, msg.needsOutSeq, msg.hdr.seq)

structure Same (before after : World) : Prop where
  queues : after.con.queues = before.con.queues
  msgs : ∀ id, (after.msgs id).standing = (before.msgs id).standing ∨
    (before.msgs id).con = false ∧ (after.msgs id).con = false
  log : Grown before.log after.log

theorem Same.message (same : Same before after) (outbound : Outbound before) {id : Nat}
    (member : id ∈ before.con.queues.outSent ++ before.con.queues.outQueue) :
    (after.msgs id).needsOutSeq = (before.msgs id).needsOutSeq ∧
      (after.msgs id).hdr.seq = (before.msgs id).hdr.seq := by
  rcases same.msgs id with same | ⟨free, _⟩
  · simpa [Msg.standing] using (Prod.mk.inj same).2
  · rw [(outbound.owned id).mpr member] at free
    cases free

theorem Outbound.of_same (outbound : Outbound before) (same : Same before after) : Outbound after where
  live := by rw [same.queues, same.log.book, outbound.live]
  nodup := same.queues ▸ outbound.nodup
  owned id := by
    rw [same.queues, ← outbound.owned id]
    rcases same.msgs id with same | ⟨free, freed⟩
    · rw [(Prod.mk.inj same).1]
    · rw [free, freed]
  outSeq := by rw [same.queues, same.log.book, outbound.outSeq]
  numbering tidy := by
    obtain ⟨requeued, waiting, numbering⟩ := outbound.numbering (same.log.tidy tidy)
    refine ⟨requeued, waiting, same.queues ▸ numbering.split, fun id member => ?_, fun id member => ?_, ?_⟩
    · rw [same.queues] at member
      have kept := @Same.message _ _ same outbound id (by
        rw [numbering.split, ← append_assoc]
        exact mem_append_left _ member)
      exact (numbering.numbered id member).of_same kept.1 kept.2 (by rw [same.log.book])
        (by rw [same.log.book]) (by rw [same.log.book])
    · rw [(same.message outbound (by simp [numbering.split, member])).1, same.log.book]
      exact numbering.waiting id member
    · rw [same.queues, same.log.book]
      exact numbering.increasing
  retransmits tidy := same.log.transmissions (outbound.retransmits (same.log.tidy tidy))

structure Resets (before after : World) : Prop where
  queues : after.con.queues = { outQueue := [], outSent := [], outSeq := 0 }
  msgs : ∀ id, (after.msgs id).con = ((before.msgs id).con &&
    id ∉ before.con.queues.outSent ++ before.con.queues.outQueue)
  log : after.log = .reset :: before.log

theorem Outbound.reset (outbound : Outbound before) (resets : Resets before after) : Outbound after where
  live := by rw [resets.queues, resets.log]; rfl
  nodup := by rw [resets.queues]; exact nodup_nil
  owned id := by
    have freed : (after.msgs id).con = false := by
      rw [resets.msgs id]
      cases owned : (before.msgs id).con with
      | false => rfl
      | true =>
        have member := (outbound.owned id).mp owned
        simp only [member, not_true_eq_false, decide_false, Bool.and_false]
    simp [resets.queues, freed]
  outSeq := by rw [resets.queues, resets.log]; rfl
  numbering _ := ⟨[], [], by rw [resets.queues]; rfl, by simp [resets.queues], by simp, by simp [resets.queues]⟩
  retransmits tidy := by
    rw [resets.log] at tidy ⊢
    exact (outbound.retransmits fun id member => tidy id (mem_cons_of_mem _ member)).cons nofun

structure Requeues (before after : World) : Prop where
  queues : after.con.queues = { before.con.queues with
    outQueue := before.con.queues.outSent ++ before.con.queues.outQueue, outSent := [] }
  msgs : after.msgs = before.msgs
  log : after.log = before.log

theorem Outbound.fault (outbound : Outbound before) (requeues : Requeues before after) : Outbound after where
  live := by rw [requeues.queues, requeues.log]; exact outbound.live
  nodup := by rw [requeues.queues]; exact outbound.nodup
  owned := by rw [requeues.queues, requeues.msgs]; exact outbound.owned
  outSeq := by rw [requeues.queues, requeues.log]; exact outbound.outSeq
  numbering tidy := by
    obtain ⟨queues, msgs, log⟩ := requeues
    obtain ⟨requeued, waiting, numbering⟩ := outbound.numbering (log ▸ tidy)
    refine ⟨before.con.queues.outSent ++ requeued, waiting, ?_, ?_, ?_, ?_⟩
    · rw [queues, append_assoc, ← numbering.split]
    · rw [queues]
      exact fun id member => (numbering.numbered id member).of_same (by rw [msgs]) (by rw [msgs])
        (by rw [log]) (by rw [log]) (by rw [log])
    · rw [msgs, log]
      exact numbering.waiting
    · rw [queues, log]
      exact numbering.increasing
  retransmits tidy := by
    rw [requeues.log] at tidy ⊢
    exact outbound.retransmits tidy

structure Sends (before after : World) (id : Nat) (msg : Msg) : Prop where
  absent : id ∉ before.con.queues.outSent ++ before.con.queues.outQueue
  queues : after.con.queues =
    { before.con.queues with outQueue := before.con.queues.outQueue ++ [id] }
  msgs : after.msgs = Function.update before.msgs id msg
  owned : msg.con = true
  needs : msg.needsOutSeq = true
  log : after.log = .sent id :: before.log

variable {id : Nat} {msg : Msg} {requeued waiting : List Nat} {msgs : Nat → Msg}

theorem Outbound.send (outbound : Outbound before) (sends : Sends before after id msg) : Outbound after := by
  obtain ⟨absent, queues, msgs, owned, needs, log⟩ := sends
  refine ⟨?_, ?_, fun other => ?_, ?_, fun tidy => ?_, fun tidy => ?_⟩
  · rw [queues, log, ← append_assoc, outbound.live]
    rfl
  · rw [queues, ← append_assoc]
    exact List.nodup_append.mpr ⟨outbound.nodup, nodup_singleton _, fun first inFirst second inSecond equal =>
      absent (List.mem_singleton.mp inSecond ▸ equal ▸ inFirst)⟩
  · rw [queues, msgs, ← append_assoc, mem_append, mem_singleton, ← outbound.owned other]
    by_cases same : other = id
    · subst same
      simp [owned]
    · simp [same]
  · rw [queues, log]
    exact outbound.outSeq
  · obtain ⟨requeued, waiting, numbering⟩ := outbound.numbering fun other member =>
      tidy other (log ▸ mem_cons_of_mem _ member)
    have apart {other : Nat} (member : other ∈ before.con.queues.outSent ++ before.con.queues.outQueue) :
        other ≠ id := fun same => absent (same ▸ member)
    refine ⟨requeued, waiting ++ [id], ?_, fun other member => ?_, fun other member => ?_, ?_⟩
    · rw [queues, ← append_assoc, ← numbering.split]
    · rw [queues] at member
      have different : other ≠ id := apart (by
        rw [numbering.split, ← append_assoc]
        exact mem_append_left _ member)
      refine (numbering.numbered other member).of_same ?_ ?_ (by rw [log]; rfl) (by rw [log]; exact le_rfl) ?_
      · rw [msgs, update_of_ne different]
      · rw [msgs, update_of_ne different]
      · rw [log]
        exact update_of_ne different _ _
    · rw [msgs, log]
      rcases List.mem_append.mp member with member | member
      · have different : other ≠ id := apart (by simp [numbering.split, member])
        rw [update_of_ne different]
        exact ⟨(numbering.waiting other member).1,
          (update_of_ne different _ _).trans (numbering.waiting other member).2⟩
      · rw [List.mem_singleton.mp member, update_self]
        exact ⟨needs, update_self _ _ _⟩
    · rw [queues, log]
      exact numbering.increasing
  · rw [log] at tidy ⊢
    exact (outbound.retransmits fun other member => tidy other (mem_cons_of_mem _ member)).cons nofun

structure Revokes (before after : World) (id : Nat) (msg : Msg) : Prop where
  queues : after.con.queues =
    { before.con.queues with outSent := before.con.queues.outSent.erase id
                             outQueue := before.con.queues.outQueue.erase id }
  msgs : after.msgs = Function.update before.msgs id msg
  freed : msg.con = false
  log : after.log = .revoked id :: before.log

theorem Outbound.revoke (outbound : Outbound before) (revokes : Revokes before after id msg) : Outbound after := by
  obtain ⟨queues, msgs, freed, log⟩ := revokes
  have erased : after.con.queues.outSent ++ after.con.queues.outQueue =
      (before.con.queues.outSent ++ before.con.queues.outQueue).erase id := by
    rw [queues, erase_append_of_nodup id outbound.nodup]
  refine ⟨?_, ?_, fun other => ?_, ?_, fun tidy => ?_, fun tidy => ?_⟩
  · rw [erased, log, outbound.live]
    rfl
  · rw [erased]
    exact outbound.nodup.erase id
  · rw [erased, outbound.nodup.mem_erase_iff, msgs, ← outbound.owned other]
    by_cases same : other = id
    · subst same
      simp [freed]
    · simp [same]
  · rw [queues, log]
    exact outbound.outSeq
  · obtain ⟨requeued, waiting, numbering⟩ := outbound.numbering fun other member =>
      tidy other (log ▸ mem_cons_of_mem _ member)
    have nodup := outbound.nodup
    rw [numbering.split, ← append_assoc] at nodup
    have parts := List.nodup_append.mp nodup
    have queueNodup := (List.nodup_append.mp outbound.nodup).2.1
    rw [numbering.split] at queueNodup
    have front : after.con.queues.outSent ++ requeued.erase id =
        (before.con.queues.outSent ++ requeued).erase id := by
      rw [queues, erase_append_of_nodup id parts.1]
    refine ⟨requeued.erase id, waiting.erase id, ?_, fun other member => ?_, fun other member => ?_, ?_⟩
    · rw [queues, numbering.split, erase_append_of_nodup id queueNodup]
    · rw [front, parts.1.mem_erase_iff] at member
      refine (numbering.numbered other member.2).of_same ?_ ?_ (by rw [log]; rfl) (by rw [log]; exact le_rfl)
        (by rw [log]; rfl)
      · rw [msgs, update_of_ne member.1]
      · rw [msgs, update_of_ne member.1]
    · rw [parts.2.1.mem_erase_iff] at member
      rw [msgs, update_of_ne member.1, log]
      exact numbering.waiting other member.2
    · rw [front, log]
      exact numbering.increasing.sublist erase_sublist
  · rw [log] at tidy ⊢
    exact (outbound.retransmits fun other member => tidy other (mem_cons_of_mem _ member)).cons nofun

theorem Payload.standing {final : Msg} {kvecs output : Output}
    (payload : Payload id msg final kvecs output) : final.standing = msg.standing := by
  obtain ⟨_, rfl, _⟩ | ⟨_, _, _, rfl, _⟩ := payload <;> rfl

theorem World.numbered_standing (world : World) (id : Nat) :
    (world.numbered id).con = (world.msgs id).con ∧ (world.numbered id).needsOutSeq = false ∧
      (world.numbered id).hdr.seq =
        if (world.msgs id).needsOutSeq then world.con.queues.outSeq + 1 else (world.msgs id).hdr.seq := by
  unfold World.numbered
  cases needs : (world.msgs id).needsOutSeq <;> simp [needs]

theorem ledger_transmitEntries (world : World) (id : Nat) :
    ledger (world.transmitEntries id ++ world.log) =
      let book := ledger world.log
      let first := update book.first id (some ((book.first id).getD (world.numbered id).hdr.seq))
      if (world.msgs id).needsOutSeq then
        { book with
          first
          count := book.count + 1
          counter := update book.counter id (book.count + 1) }
      else { book with first } := by
  unfold transmitEntries
  cases needs : (world.msgs id).needsOutSeq <;> rfl

theorem Tidy.of_transmit {world : World} (tidy : Tidy (world.transmitEntries id ++ world.log)) : Tidy world.log :=
  fun other member => tidy other (mem_append_right _ member)

structure Transmits (before after : World) (id : Nat) (rest : List Nat) (final : Msg) : Prop where
  queued : before.con.queues.outQueue = id :: rest
  queues : after.con.queues =
    { outQueue := rest
      outSent := before.con.queues.outSent ++ [id]
      outSeq := if (before.msgs id).needsOutSeq then before.con.queues.outSeq + 1
        else before.con.queues.outSeq }
  msgs : after.msgs = Function.update before.msgs id final
  standing : final.standing = (before.numbered id).standing
  log : after.log = before.transmitEntries id ++ before.log

variable {id : Nat} {rest : List Nat} {final : Msg}

theorem Transmits.book_number (transmits : Transmits before after id rest final)
    (needs : (before.msgs id).needsOutSeq = true) (fresh : (ledger before.log).first id = none) :
    ledger after.log = { ledger before.log with
      first := update (ledger before.log).first id (some (before.con.queues.outSeq + 1))
      count := (ledger before.log).count + 1
      counter := update (ledger before.log).counter id ((ledger before.log).count + 1) } := by
  have seq := (before.numbered_standing id).2.2
  rw [needs, if_pos rfl] at seq
  rw [transmits.log, ledger_transmitEntries]
  simp only [needs, if_true, fresh, Option.getD_none, seq]

theorem Transmits.book_resend (transmits : Transmits before after id rest final)
    (numbered : before.Numbered id) : ledger after.log = ledger before.log := by
  rw [transmits.log, ledger_transmitEntries]
  simp only [numbered.needsOutSeq, Bool.false_eq_true, if_false, numbered.first, Option.getD_some]
  rw [← numbered.first, update_eq_self]

theorem Transmits.message (transmits : Transmits before after id rest final) :
    final.con = (before.msgs id).con ∧ final.needsOutSeq = false ∧
      final.hdr.seq =
        if (before.msgs id).needsOutSeq then before.con.queues.outSeq + 1 else (before.msgs id).hdr.seq := by
  have standing := transmits.standing
  simp only [Msg.standing, Prod.mk.injEq] at standing
  rw [standing.1, standing.2.1, standing.2.2]
  exact before.numbered_standing id

section

variable (transmits : Transmits before after id rest final)
include transmits

theorem Transmits.list : after.con.queues.outSent ++ after.con.queues.outQueue =
      before.con.queues.outSent ++ before.con.queues.outQueue := by
  rw [transmits.queues, transmits.queued, append_assoc, singleton_append]

/-- Nothing was requeued, so the message gets its number now. -/
theorem Transmits.number (outbound : Outbound before)
    (numbering : before.Numbering [] (id :: rest)) : after.Numbering [] rest := by
  have nodup := outbound.nodup
  rw [transmits.queued] at nodup
  have apartSent {other : Nat} (member : other ∈ before.con.queues.outSent) : other ≠ id :=
    (List.nodup_append.mp nodup).2.2 other member id (by simp)
  have apartRest {other : Nat} (member : other ∈ rest) : other ≠ id := by
    rintro rfl
    exact (List.nodup_cons.mp (List.nodup_append.mp nodup).2.1).1 member
  have numbered := numbering.numbered
  have increasing := numbering.increasing
  simp only [List.append_nil] at numbered increasing
  obtain ⟨needs, fresh⟩ := numbering.waiting id (by simp)
  have book := transmits.book_number needs fresh
  obtain ⟨_, needsNone, seq⟩ := transmits.message
  rw [needs, if_pos rfl] at seq
  have counter {other : Nat} (different : other ≠ id) :
      (ledger after.log).counter other = (ledger before.log).counter other := by
    rw [book]
    exact update_of_ne different _ _
  have counterSelf : (ledger after.log).counter id = (ledger before.log).count + 1 := by
    rw [book]
    exact update_self _ _ _
  refine ⟨by rw [transmits.queues]; rfl, fun other member => ?_, fun other member => ?_, ?_⟩
  · rw [transmits.queues] at member
    simp only [List.append_nil, mem_append, mem_singleton] at member
    rcases member with member | rfl
    · have different := apartSent member
      refine (numbered other member).of_same ?_ ?_ (counter different) ?_ ?_
      · rw [transmits.msgs, update_of_ne different]
      · rw [transmits.msgs, update_of_ne different]
      · rw [book]
        exact Nat.le_succ _
      · rw [book]
        exact update_of_ne different _ _
    · refine ⟨?_, ?_, ?_, ?_⟩
      · rw [transmits.msgs, update_self, needsNone]
      · rw [transmits.msgs, update_self, seq, counterSelf, outbound.outSeq, UInt64.ofNat_add]
        rfl
      · rw [counterSelf, book]
      · rw [transmits.msgs, update_self, seq, book]
        exact update_self _ _ _
  · rw [transmits.msgs, update_of_ne (apartRest member), book]
    have before := numbering.waiting other (by simp [member])
    exact ⟨before.1, (update_of_ne (apartRest member) _ _).trans before.2⟩
  · rw [transmits.queues]
    simp only [List.append_nil]
    refine List.pairwise_append.mpr ⟨?_, pairwise_singleton _ _, fun first member second last => ?_⟩
    · refine increasing.imp_of_mem fun inFirst inSecond less => ?_
      rw [counter (apartSent inFirst), counter (apartSent inSecond)]
      exact less
    · rw [List.mem_singleton.mp last, counter (apartSent member), counterSelf]
      exact Nat.lt_succ_of_le (numbered first member).counter

theorem Transmits.resend (outbound : Outbound before) (numbering : before.Numbering (id :: requeued) waiting)
    (split : rest = requeued ++ waiting) : after.Numbering requeued waiting := by
  have nodup := outbound.nodup
  rw [transmits.queued] at nodup
  have apart {other : Nat} (member : other ∈ waiting) : other ≠ id := by
    rintro rfl
    exact (List.nodup_cons.mp (List.nodup_append.mp nodup).2.1).1 (by simp [split, member])
  have self := numbering.numbered id (by simp)
  have book := transmits.book_resend self
  obtain ⟨_, needsNone, seq⟩ := transmits.message
  rw [self.needsOutSeq] at seq
  simp only [Bool.false_eq_true, if_false] at seq
  have whole : after.con.queues.outSent ++ requeued = before.con.queues.outSent ++ id :: requeued := by
    rw [transmits.queues]
    simp
  refine ⟨by rw [transmits.queues, split], fun other member => ?_, fun other member => ?_, ?_⟩
  · rw [whole] at member
    refine (numbering.numbered other member).of_same ?_ ?_ (by rw [book]) (by rw [book]) (by rw [book])
    · rw [transmits.msgs]
      by_cases same : other = id
      · rw [same, update_self, needsNone, self.needsOutSeq]
      · rw [update_of_ne same]
    · rw [transmits.msgs]
      by_cases same : other = id
      · rw [same, update_self, seq]
      · rw [update_of_ne same]
  · rw [transmits.msgs, update_of_ne (apart member), book]
    exact numbering.waiting other member
  · rw [whole, book]
    exact numbering.increasing

theorem Transmits.numbering (outbound : Outbound before)
    (tidy : Tidy before.log) : ∃ requeued waiting, after.Numbering requeued waiting ∧
      (requeued = [] ∧ (before.msgs id).needsOutSeq = true ∧ (ledger before.log).first id = none ∨
        before.Numbered id) := by
  obtain ⟨requeued, waiting, numbering⟩ := outbound.numbering tidy
  have split := transmits.queued.symm.trans numbering.split
  cases requeued with
  | nil =>
    subst split
    exact ⟨[], rest, transmits.number outbound numbering, .inl ⟨rfl, numbering.waiting id (by simp)⟩⟩
  | cons first requeued =>
    simp only [cons_append, List.cons.injEq] at split
    obtain ⟨rfl, split⟩ := split
    exact ⟨requeued, waiting, transmits.resend outbound numbering split, .inr (numbering.numbered id (by simp))⟩

theorem Transmits.first (outbound : Outbound before) (tidy : Tidy before.log) :
    (ledger ((before.transmitEntries id).tail ++ before.log)).first id ∈
      [none, some (before.numbered id).hdr.seq] := by
  have same : (ledger ((before.transmitEntries id).tail ++ before.log)).first id =
      (ledger before.log).first id := by
    unfold transmitEntries
    cases needs : (before.msgs id).needsOutSeq <;> rfl
  rw [same]
  obtain ⟨_, _, _, ⟨_, _, fresh⟩ | numbered⟩ := transmits.numbering outbound tidy
  · simp [fresh]
  · have seq := (before.numbered_standing id).2.2
    rw [numbered.needsOutSeq] at seq
    simp [numbered.first, seq]

end

theorem Outbound.transmit (outbound : Outbound before) (transmits : Transmits before after id rest final) :
    Outbound after where
  live := by
    rw [transmits.list, outbound.live, transmits.log, ledger_transmitEntries]
    simp only
    split <;> rfl
  nodup := transmits.list ▸ outbound.nodup
  owned other := by
    rw [transmits.list, transmits.msgs, ← outbound.owned other]
    by_cases same : other = id
    · subst same
      simp [transmits.message.1]
    · simp [same]
  outSeq := by
    rw [transmits.queues, transmits.log, ledger_transmitEntries]
    simp only
    split
    · simp [outbound.outSeq, UInt64.ofNat_add]
    · exact outbound.outSeq
  numbering tidy := by
    obtain ⟨requeued, waiting, numbering, _⟩ :=
      transmits.numbering outbound (transmits.log ▸ tidy).of_transmit
    exact ⟨requeued, waiting, numbering⟩
  retransmits tidy := by
    have past := (transmits.log ▸ tidy).of_transmit
    have first := transmits.first outbound past
    rw [transmits.log]
    refine Transmissions.cons ?_ fun other seq sound equal => ?_
    · split
      · exact (outbound.retransmits past).cons nofun
      · exact outbound.retransmits past
    · cases equal
      exact first

theorem ledger_ackEntries {ack : UInt64} {ids : List Nat} {log : List Entry} :
    ledger (ackEntries msgs ack ids ++ log) = { ledger log with live := ids.foldl List.erase (ledger log).live } := by
  induction ids generalizing log with
  | nil => rfl
  | cons first ids ih =>
    have split : ackEntries msgs ack (first :: ids) ++ log =
        ackEntries msgs ack ids ++ .acked first (msgs first).hdr.seq ack :: log := by
      simp [ackEntries]
    rw [split, ih]
    rfl

theorem foldl_erase_append (ids rest : List Nat) : ids.foldl List.erase (ids ++ rest) = rest := by
  induction ids with
  | nil => rfl
  | cons first ids ih => simpa using ih

structure Acks (before after : World) (ack : UInt64) (settled : Bool) (acked kept : List Nat) : Prop where
  sent : before.con.queues.outSent = acked ++ kept
  queues : after.con.queues = { before.con.queues with outSent := kept }
  standing : ∀ id, (after.msgs id).con = ((before.msgs id).con && id ∉ acked) ∧
    (after.msgs id).needsOutSeq = (before.msgs id).needsOutSeq ∧
    (after.msgs id).hdr.seq = (before.msgs id).hdr.seq
  log : after.log = .acknowledged ack settled :: ackEntries before.msgs ack acked ++ before.log

variable {ack : UInt64} {settled : Bool} {acked kept : List Nat}

theorem Acks.book (acks : Acks before after ack settled acked kept) :
    ledger after.log = { ledger before.log with
      live := acked.foldl List.erase (ledger before.log).live
      acks := ack :: (ledger before.log).acks } := by
  rw [acks.log, cons_append]
  simp only [ledger, ledger_ackEntries]
  rfl

theorem Acks.tidy (acks : Acks before after ack settled acked kept) (tidy : Tidy after.log) :
    Tidy before.log :=
  fun id member => tidy id (by
    rw [acks.log]
    exact mem_append_right _ member)

theorem Acks.numbering (acks : Acks before after ack settled acked kept)
    (numbering : before.Numbering requeued waiting) : after.Numbering requeued waiting := by
  have sublist : Sublist (after.con.queues.outSent ++ requeued)
      (before.con.queues.outSent ++ requeued) := by
    rw [acks.queues, acks.sent]
    exact List.Sublist.append_right (sublist_append_right acked kept) requeued
  refine ⟨by rw [acks.queues]; exact numbering.split, fun id member => ?_, fun id member => ?_, ?_⟩
  · exact (numbering.numbered id (sublist.subset member)).of_same (acks.standing id).2.1 (acks.standing id).2.2
      (by rw [acks.book]) (by rw [acks.book]) (by rw [acks.book])
  · rw [(acks.standing id).2.1, acks.book]
    exact numbering.waiting id member
  · rw [acks.book]
    exact numbering.increasing.sublist sublist

theorem Outbound.acknowledge (outbound : Outbound before) (acks : Acks before after ack settled acked kept) :
    Outbound after := by
  have whole : before.con.queues.outSent ++ before.con.queues.outQueue =
      acked ++ (after.con.queues.outSent ++ after.con.queues.outQueue) := by
    rw [acks.queues, acks.sent, append_assoc]
  have nodup := outbound.nodup
  rw [whole] at nodup
  have parts := List.nodup_append.mp nodup
  refine ⟨?_, parts.2.1, fun id => ?_, ?_, fun tidy => ?_, fun tidy => ?_⟩
  · rw [acks.book]
    simp only
    rw [← outbound.live, whole, foldl_erase_append]
  · rw [(acks.standing id).1, Bool.and_eq_true, outbound.owned id, whole, mem_append]
    simp only [decide_eq_true_eq]
    constructor
    · exact fun ⟨member, absent⟩ => member.resolve_left absent
    · exact fun member => ⟨.inr member, fun inAcked => parts.2.2 id inAcked id member rfl⟩
  · rw [acks.queues, acks.book]
    exact outbound.outSeq
  · obtain ⟨requeued, waiting, numbering⟩ := outbound.numbering (acks.tidy tidy)
    exact ⟨requeued, waiting, acks.numbering numbering⟩
  · rw [acks.log]
    refine (outbound.retransmits (acks.tidy tidy)).append fun entry member => ?_
    simp only [ackEntries, mem_cons, mem_reverse, mem_map] at member
    rcases member with rfl | ⟨id, _, rfl⟩ <;> simp

theorem acks_of_processAck (ran : processAck before = .ok (⟨⟩, after)) :
    Acks before after before.con.input.ack (ackSettles before before.con.input.ack)
      (ackedPrefix before.msgs before.con.input.ack before.con.queues.outSent)
      (before.con.queues.outSent.dropWhile fun id => (before.msgs id).hdr.seq ≤ before.con.input.ack) := by
  obtain ⟨refs, rfl⟩ := processAck_ok ran
  exact ⟨List.takeWhile_append_dropWhile.symm, rfl, fun id => ⟨rfl, rfl, rfl⟩, rfl⟩

theorem transmits_of_prepare (ran : prepareWriteMessage before = .ok (⟨⟩, after)) :
    ∃ id rest final, Transmits before after id rest final := by
  obtain ⟨id, rest, con, kvecs, final, output, queued, _, _, sneaked, _, payload, rfl⟩ :=
    prepareWriteMessage_ok ran
  have queues : con.queues = before.con.queues := by
    obtain ⟨rfl, _⟩ | ⟨_, _, _, _, rfl⟩ := sneakAck_ok sneaked <;> rfl
  refine ⟨id, rest, final, queued, ?_, rfl, payload.standing, rfl⟩
  simp only [Con.shifted, queues]

theorem standing_update (same : msg.standing = (msgs id).standing) (other : Nat) :
    (update msgs id msg other).standing = (msgs other).standing := by
  by_cases equal : other = id
  · rw [equal, update_self, same]
  · rw [update_of_ne equal]

/-- A message that is on a list is passed to `ceph_con_send` on a closed
connection. -/
structure Renews (before after : World) (id : Nat) : Prop where
  queues : after.con.queues = before.con.queues
  msgs : ∀ other, (after.msgs other).con = (before.msgs other).con
  log : after.log = .dropped id true :: before.log

theorem Outbound.renew (outbound : Outbound before) (renews : Renews before after id) : Outbound after := by
  have untidy : ¬ Tidy after.log := fun tidy => tidy id (renews.log ▸ mem_cons_self)
  refine ⟨?_, renews.queues ▸ outbound.nodup, fun other => ?_, ?_, fun tidy => absurd tidy untidy,
    fun tidy => absurd tidy untidy⟩
  · rw [renews.queues, renews.log]
    exact outbound.live
  · rw [renews.queues, renews.msgs other]
    exact outbound.owned other
  · rw [renews.queues, renews.log]
    exact outbound.outSeq

inductive Move (before : World) : World → Prop where
  | same {after : World} (same : Same before after) : Move before after
  | reset {after : World} (resets : Resets before after) : Move before after
  | requeue {after : World} (requeues : Requeues before after) : Move before after
  | send {after : World} {id : Nat} {msg : Msg} (sends : Sends before after id msg) : Move before after
  | revoke {middle after : World} {id : Nat} {msg : Msg} (revokes : Revokes before middle id msg)
      (same : Same middle after) : Move before after
  | transmit {after : World} {id : Nat} {rest : List Nat} {final : Msg}
      (transmits : Transmits before after id rest final) : Move before after
  | acknowledge {after : World} {kept : List Nat}
      (acks : Acks before after before.con.input.ack (ackSettles before before.con.input.ack)
        (ackedPrefix before.msgs before.con.input.ack before.con.queues.outSent) kept)
      (unacked : ∀ first rest, kept = first :: rest →
        before.con.input.ack < (before.msgs first).hdr.seq) : Move before after
  | renew {after : World} {id : Nat} (renews : Renews before after id) : Move before after

theorem Outbound.move (outbound : Outbound before) (move : Move before after) : Outbound after := by
  cases move with
  | same same => exact outbound.of_same same
  | reset resets => exact outbound.reset resets
  | requeue requeues => exact outbound.fault requeues
  | send sends => exact outbound.send sends
  | revoke revokes same => exact (outbound.revoke revokes).of_same same
  | transmit transmits => exact outbound.transmit transmits
  | acknowledge acks => exact outbound.acknowledge acks
  | renew renews => exact outbound.renew renews

theorem Move.note {entry : Entry} (neutral : entry.neutral) (queues : after.con.queues = before.con.queues)
    (msgs : after.msgs = before.msgs) (log : after.log = entry :: before.log) : Move before after :=
  .same ⟨queues, fun _ => .inl (by rw [msgs]), .inr ⟨entry, neutral, log⟩⟩

theorem Move.none (queues : after.con.queues = before.con.queues) (msgs : after.msgs = before.msgs)
    (log : after.log = before.log) : Move before after :=
  .same ⟨queues, fun _ => .inl (by rw [msgs]), .inl log⟩

theorem Move.message {msg : Msg} (same : msg.standing = (before.msgs id).standing)
    (queues : after.con.queues = before.con.queues) (msgs : after.msgs = update before.msgs id msg)
    (log : after.log = before.log) : Move before after :=
  .same ⟨queues, fun other => .inl (by rw [msgs]; exact standing_update same other), .inl log⟩

theorem move_of_send (ran : cephConSend id before = .ok (⟨⟩, after)) : Move before after := by
  obtain ⟨_, rfl⟩ | ⟨_, absent, _, _, _, _, rfl⟩ := cephConSend_ok ran
  · have con (other : Nat) : (update before.msgs id (before.stamped id) other).con =
        (before.msgs other).con := by
      by_cases same : other = id
      · rw [same, update_self]
        rfl
      · rw [update_of_ne same]
    cases owned : (before.msgs id).con with
    | false =>
      refine .same ⟨rfl, fun other => ?_, .inr ⟨_, rfl, rfl⟩⟩
      by_cases same : other = id
      · subst same
        exact .inr ⟨owned, (con other).trans owned⟩
      · exact .inl (by simp [World.note, withMsg, same])
    | true => exact .renew ⟨rfl, con, rfl⟩
  · exact .send ⟨absent, rfl, rfl, rfl, rfl, rfl⟩

theorem move_of_revoke (outbound : Outbound before) (ran : cephMsgRevoke id before = .ok (⟨⟩, after)) :
    Move before after := by
  unfold cephMsgRevoke at ran
  split at ran
  · rename_i owned
    cases ran
    have member := (outbound.owned id).mp owned
    have queued : revokeQueued id before = _ := if_pos member
    have revokes : Revokes before (revokeQueued id before) id
        { before.msgs id with con := false, hdr := { (before.msgs id).hdr with seq := 0 } } := by
      rw [queued]
      exact ⟨rfl, rfl, rfl, rfl⟩
    have freed : ((revokeQueued id before).msgs id).con = false := by
      rw [revokes.msgs, update_self]
    refine .revoke revokes ?_
    unfold revokeSending
    split
    · refine ⟨rfl, fun other => ?_, .inr ⟨_, rfl, rfl⟩⟩
      by_cases same : other = id
      · subst same
        exact .inr ⟨freed, by simpa [World.note, withMsg] using freed⟩
      · exact .inl (by simp [World.note, withMsg, withOutput, same])
    · exact ⟨rfl, fun _ => .inl rfl, .inl rfl⟩
  · cases ran
    exact .none rfl rfl rfl

theorem move_of_call (outbound : Outbound before) {request : Call}
    (ran : request.step before = .ok (⟨⟩, after)) : Move before after := by
  cases request with
  | send msg => exact move_of_send ran
  | revoke msg => exact move_of_revoke outbound ran
  | revokeIncoming msg =>
    obtain rfl | ⟨_, _, _, rfl⟩ := cephMsgRevokeIncoming_ok ran
    · exact .none rfl rfl rfl
    · exact .note rfl rfl rfl rfl
  | keepalive =>
    obtain ⟨_, _, _, _, _, rfl⟩ := cephConKeepalive_ok ran
    exact .none rfl rfl rfl
  | close =>
    obtain ⟨_, rfl⟩ := cephConClose_ok ran
    exact .reset ⟨rfl, fun _ => rfl, rfl⟩
  | reopen type num addr =>
    cases ran
    exact .none rfl rfl rfl
  | sockClosed =>
    cases ran
    exact .none rfl rfl rfl
  | write msg contents =>
    obtain rfl | ⟨free, _, rfl⟩ := fillMessage_ok ran
    · exact .none rfl rfl rfl
    · refine .same ⟨rfl, fun other => ?_, .inl rfl⟩
      by_cases same : other = msg
      · subst same
        exact .inr ⟨free, by simp [withMsg]⟩
      · exact .inl (by simp [withMsg, same])

theorem move_of_act (outbound : Outbound before) (act : Act before after) : Move before after := by
  cases act with
  | call request ran => exact move_of_call outbound ran
  | fault ran =>
    obtain ⟨_, rfl⟩ | ⟨_, _, _, _, _, _, rfl⟩ := conFault_ok ran
    · exact .none rfl rfl rfl
    · exact .requeue ⟨rfl, rfl, rfl⟩
  | openSocket _ ran =>
    obtain ⟨_, _, ⟨_, _, rfl⟩ | ⟨_, _, _, rfl⟩⟩ := openSocket_ok ran
    · exact .none rfl rfl rfl
    · exact .note rfl rfl rfl rfl
  | writeData =>
    refine .message ?_ rfl rfl rfl
    rfl
  | queueFooter _ _ _ _ _ ran =>
    obtain ⟨_, rfl⟩ := prepareWriteMessageFooter_ok ran
    refine .same ⟨rfl, fun other => .inl ?_, .inl rfl⟩
    refine (standing_update ?_ other).trans (standing_update ?_ other)
    · rfl
    · rfl
  | prepareMessage _ _ ran =>
    obtain ⟨_, _, _, transmits⟩ := transmits_of_prepare ran
    exact .transmit transmits
  | prepareAck _ _ ran =>
    obtain ⟨_, _, _, _, rfl⟩ := prepareWriteAck_ok ran
    exact .none rfl rfl rfl
  | prepareKeepalive _ _ ran =>
    obtain ⟨_, _, rfl⟩ := prepareWriteKeepalive_ok ran
    exact .none rfl rfl rfl
  | greet _ _ ran =>
    obtain ⟨_, _, _, _, rfl⟩ | ⟨_, rfl⟩ := processBanner_ok ran
    · exact .none rfl rfl rfl
    · exact .note rfl rfl rfl rfl
  | queueConnect _ ran =>
    obtain ⟨_, _, _, _, _, _, _, rfl⟩ := queueConnect_ok ran
    exact .note rfl rfl rfl rfl
  | reply => exact .note rfl rfl rfl rfl
  | reset _ _ ran =>
    obtain ⟨_, rfl⟩ := resetConnection_ok ran
    exact .reset ⟨rfl, fun _ => rfl, rfl⟩
  | tagMsg => exact .note rfl rfl rfl rfl
  | tagOther => exact .note rfl rfl rfl rfl
  | tagClose => exact .note rfl rfl rfl rfl
  | leak => exact .note rfl rfl rfl rfl
  | skipMessage => exact .note rfl rfl rfl rfl
  | dispatch _ ran =>
    obtain ⟨_, _, _, _, rfl⟩ := takeInMsg_cases ran
    exact .note rfl rfl rfl rfl
  | processAck _ ran =>
    refine .acknowledge (acks_of_processAck ran) fun first rest kept => ?_
    have stopped := head?_dropWhile_not (fun id => decide ((before.msgs id).hdr.seq ≤ before.con.input.ack))
      before.con.queues.outSent
    rw [kept] at stopped
    simpa using stopped
  | _ => exact .none rfl rfl rfl

theorem Outbound.step (act : Act before after) (outbound : Outbound before) : Outbound after :=
  outbound.move (move_of_act outbound act)

end

structure World.Unsent (world : World) : Prop where
  queues : world.con.queues = { outQueue := [], outSent := [], outSeq := 0 }
  msgs : ∀ id, (world.msgs id).con = false
  log : world.log = []

variable {world : World}

theorem World.Unsent.outbound (unsent : world.Unsent) : Outbound world where
  live := by rw [unsent.queues, unsent.log]; rfl
  nodup := by rw [unsent.queues]; exact nodup_nil
  owned id := by simp [unsent.queues, unsent.msgs id]
  outSeq := by rw [unsent.queues, unsent.log]; rfl
  numbering _ := ⟨[], [], by rw [unsent.queues]; rfl, by simp [unsent.queues], by simp, by simp [unsent.queues]⟩
  retransmits _ := by
    rw [unsent.log]
    intro id seq sound rest suffix
    simp at suffix

theorem outbound_run {start : World} (unsent : start.Unsent) (bound : Nat) (events : List Event) :
    Outbound (outcome (runEvents bound events) start) :=
  runEvents_preserves (fun _ _ act outbound => outbound.step act) bound events unsent.outbound

theorem ofNat_lt {first second : Nat} (less : first < second) (small : second < 2 ^ 64) :
    UInt64.ofNat first < UInt64.ofNat second := by
  rw [UInt64.lt_iff_toNat_lt, UInt64.toNat_ofNat', UInt64.toNat_ofNat', Nat.mod_eq_of_lt small,
    Nat.mod_eq_of_lt (less.trans small)]
  exact less

/-- Unless `2 ^ 64` numbers were given out, the numbers themselves increase. -/
theorem World.Numbering.seqs {requeued waiting : List Nat} (numbering : world.Numbering requeued waiting)
    (outSeq : world.con.queues.outSeq = UInt64.ofNat (ledger world.log).count)
    (small : (ledger world.log).count < 2 ^ 64) : (world.con.queues.outSent ++ requeued).Pairwise
      (fun first second => (world.msgs first).hdr.seq < (world.msgs second).hdr.seq) ∧
    ∀ id ∈ world.con.queues.outSent ++ requeued, (world.msgs id).hdr.seq ≤ world.con.queues.outSeq := by
  constructor
  · refine numbering.increasing.imp_of_mem fun {first second} inFirst inSecond less => ?_
    rw [(numbering.numbered first inFirst).seq, (numbering.numbered second inSecond).seq]
    exact ofNat_lt less ((numbering.numbered second inSecond).counter.trans_lt small)
  · intro id member
    have numbered := numbering.numbered id member
    rw [numbered.seq, outSeq]
    rcases Nat.lt_or_eq_of_le numbered.counter with less | equal
    · exact UInt64.le_of_lt (ofNat_lt less small)
    · rw [equal]
      exact UInt64.le_refl _

/-- In every run `out_sent` and `out_queue` together list the messages that
were sent and neither acked nor revoked, in the order in which they were sent.
Those with a number come first, and a message that is transmitted again keeps
the number of the first time. The numbers increase unless the session has used
all of them up. -/
theorem outbound_order (bound : Nat) (events : List Event) (start : World) (unsent : start.Unsent) :
    let world := outcome (runEvents bound events) start
    world.con.queues.outSent ++ world.con.queues.outQueue = (ledger world.log).live ∧
    (Tidy world.log → Retransmits world.log ∧
      ∃ numbered waiting, world.con.queues.outSent ++ world.con.queues.outQueue = numbered ++ waiting ∧
        world.con.queues.outSent <+: numbered ∧
        (∀ id ∈ numbered, (world.msgs id).needsOutSeq = false) ∧
        (∀ id ∈ waiting, (world.msgs id).needsOutSeq = true) ∧
        ((ledger world.log).count < 2 ^ 64 →
          numbered.Pairwise (fun first second => (world.msgs first).hdr.seq < (world.msgs second).hdr.seq) ∧
          ∀ id ∈ numbered, (world.msgs id).hdr.seq ≤ world.con.queues.outSeq)) := by
  intro world
  have outbound : Outbound world := outbound_run unsent bound events
  refine ⟨outbound.live, fun tidy => ⟨outbound.retransmits tidy, ?_⟩⟩
  obtain ⟨requeued, waiting, numbering⟩ := outbound.numbering tidy
  refine ⟨world.con.queues.outSent ++ requeued, waiting, ?_, prefix_append _ _, ?_, ?_,
    numbering.seqs outbound.outSeq⟩
  · rw [numbering.split, append_assoc]
  · exact fun id member => (numbering.numbered id member).needsOutSeq
  · exact fun id member => (numbering.waiting id member).1

def openWorld (incoming : List UInt8) : World :=
  { World.init (cephMessengerInit ⟨8, 0⟩ (replicate 136 0) (replicate 4 0) 0 0 false)
      (fun _ => cephMsgNew 0 [7]) with
    con := { cephConInit with
      state := .opened, sock := some ⟨incoming, 0⟩, peerName := ⟨1, 0⟩
      input := { cephConInit.input with inTag := cephMsgrTagReady } } }

theorem openWorld_unsent (incoming : List UInt8) : (openWorld incoming).Unsent :=
  ⟨rfl, fun _ => rfl, rfl⟩

def faultyEvents : List Event :=
  [.call (.send 3), .call (.send 5), .work { Env.silent with sends := [200, 200] },
    .work { Env.silent with recvs := [-104] }, .call (.send 4)]

theorem faultyEvents_log : (outcome (runEvents 20 faultyEvents) (openWorld [])).log =
    [.sent 4, .transmitted 5 2 true, .numbered 5 2, .transmitted 3 1 true, .numbered 3 1, .sent 5, .sent 3] := by
  decide +kernel

theorem outbound_order_faulty :
    let world := outcome (runEvents 20 faultyEvents) (openWorld [])
    world.con.queues.outSent ++ world.con.queues.outQueue = [3, 5, 4] ∧
    [3, 5, 4].map (fun id => ((world.msgs id).hdr.seq, (world.msgs id).needsOutSeq)) =
      [(1, false), (2, false), (0, true)] ∧
    Retransmits world.log := by
  obtain ⟨listed, ordered⟩ := outbound_order 20 faultyEvents (openWorld []) (openWorld_unsent [])
  refine ⟨listed.trans ?_, by decide +kernel, (ordered ?_).1⟩
  · rw [faultyEvents_log]
    rfl
  · rw [faultyEvents_log]
    intro id
    simp

/-- The peer closes the connection, and a message is sent after that: it is
dropped, though it was neither acked nor revoked. -/
theorem not_always_listed : ¬ ∀ (bound : Nat) (events : List Event) (start : World), start.Unsent →
    let world := outcome (runEvents bound events) start
    ∀ id, (.sent id ∈ world.log ∨ ∃ queued, .dropped id queued ∈ world.log) →
      (∀ seq ack, .acked id seq ack ∉ world.log) → .revoked id ∉ world.log → .reset ∉ world.log →
      id ∈ world.con.queues.outSent ++ world.con.queues.outQueue := by
  intro listed
  have log : (outcome (runEvents 20 [.work { Env.silent with recvs := [1] }, .call (.send 0)])
      (openWorld [cephMsgrTagClose])).log = [.dropped 0 false, .tag 0] := by decide +kernel
  have lists : (outcome (runEvents 20 [.work { Env.silent with recvs := [1] }, .call (.send 0)])
      (openWorld [cephMsgrTagClose])).con.queues.outSent ++ (outcome (runEvents 20 [.work
        { Env.silent with recvs := [1] }, .call (.send 0)]) (openWorld [cephMsgrTagClose])).con.queues.outQueue =
          [] := by decide +kernel
  have member := listed 20 [.work { Env.silent with recvs := [1] }, .call (.send 0)] _
    (openWorld_unsent [cephMsgrTagClose]) 0
  rw [log, lists] at member
  simp at member

end KmodCeph.Messenger
