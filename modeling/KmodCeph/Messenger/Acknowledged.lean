import KmodCeph.Messenger.Outbound

namespace KmodCeph.Messenger

open Lib List Env

/-- A past in which the peer acknowledged only numbers that were given out,
and none of a message that was back on `out_queue`; no number was given out
twice in a session. -/
structure Orderly (log : List Entry) : Prop where
  tidy : Tidy log
  settled : ∀ ack, .acknowledged ack false ∉ log
  numbers : ∀ past, past <:+ log → (ledger past).count < 2 ^ 64

theorem Orderly.of_suffix {past log : List Entry} (orderly : Orderly log) (suffix : past <:+ log) :
    Orderly past where
  tidy id member := orderly.tidy id (suffix.subset member)
  settled ack member := orderly.settled ack (suffix.subset member)
  numbers older shorter := orderly.numbers older (shorter.trans suffix)

def World.Beyond (world : World) (ack : UInt64) : Prop :=
  ack ≤ world.con.queues.outSeq ∧ ∀ id ∈ world.con.queues.outSent ++ world.con.queues.outQueue,
    (world.msgs id).needsOutSeq = true ∨ ack < (world.msgs id).hdr.seq

def Unrepeated (log : List Entry) : Prop :=
  Transmissions (fun _ seq book => ∀ ack ∈ book.acks, ack < seq) log

structure Acknowledged (world : World) : Prop where
  beyond : ∀ ack ∈ (ledger world.log).acks, world.Beyond ack
  unrepeated : Unrepeated world.log

section

variable {before after : World} {id : Nat}

theorem World.Beyond.of_subset {ack : UInt64} (beyond : before.Beyond ack)
    (outSeq : after.con.queues.outSeq = before.con.queues.outSeq)
    (listed : ∀ id ∈ after.con.queues.outSent ++ after.con.queues.outQueue,
      id ∈ before.con.queues.outSent ++ before.con.queues.outQueue ∧
        (after.msgs id).needsOutSeq = (before.msgs id).needsOutSeq ∧
        (after.msgs id).hdr.seq = (before.msgs id).hdr.seq) : after.Beyond ack := by
  refine ⟨outSeq ▸ beyond.1, fun id member => ?_⟩
  obtain ⟨listed, needs, seq⟩ := listed id member
  rw [needs, seq]
  exact beyond.2 id listed

theorem Acknowledged.of_same (acknowledged : Acknowledged before) (outbound : Outbound before)
    (same : Same before after) : Acknowledged after where
  beyond ack member := by
    rw [same.log.book] at member
    refine (acknowledged.beyond ack member).of_subset (by rw [same.queues]) fun id listed => ?_
    rw [same.queues] at listed
    exact ⟨listed, same.message outbound listed⟩
  unrepeated := same.log.transmissions acknowledged.unrepeated

theorem Acknowledged.reset (acknowledged : Acknowledged before) (resets : Resets before after) :
    Acknowledged after where
  beyond ack member := by
    rw [resets.log] at member
    cases member
  unrepeated := by
    rw [resets.log]
    exact acknowledged.unrepeated.cons nofun

theorem Acknowledged.requeue (acknowledged : Acknowledged before) (requeues : Requeues before after) :
    Acknowledged after where
  beyond ack member := by
    rw [requeues.log] at member
    refine (acknowledged.beyond ack member).of_subset (by rw [requeues.queues]) fun id listed => ?_
    rw [requeues.queues] at listed
    rw [requeues.msgs]
    exact ⟨listed, rfl, rfl⟩
  unrepeated := by
    rw [requeues.log]
    exact acknowledged.unrepeated

theorem Acknowledged.send {msg : Msg} (acknowledged : Acknowledged before) (sends : Sends before after id msg) :
    Acknowledged after where
  beyond ack member := by
    rw [sends.log] at member
    obtain ⟨given, past⟩ := acknowledged.beyond ack member
    refine ⟨by rw [sends.queues]; exact given, fun other listed => ?_⟩
    rw [sends.msgs]
    by_cases same : other = id
    · rw [same, Function.update_self]
      exact .inl sends.needs
    · rw [Function.update_of_ne same]
      rw [sends.queues, ← append_assoc, mem_append, mem_singleton] at listed
      exact past other (listed.resolve_right same)
  unrepeated := by
    rw [sends.log]
    exact acknowledged.unrepeated.cons nofun

theorem Acknowledged.revoke {msg : Msg} (acknowledged : Acknowledged before) (outbound : Outbound before)
    (revokes : Revokes before after id msg) : Acknowledged after where
  beyond ack member := by
    rw [revokes.log] at member
    refine (acknowledged.beyond ack member).of_subset (by rw [revokes.queues]) fun other listed => ?_
    rw [revokes.queues, ← erase_append_of_nodup id outbound.nodup, outbound.nodup.mem_erase_iff] at listed
    rw [revokes.msgs, Function.update_of_ne listed.1]
    exact ⟨listed.2, rfl, rfl⟩
  unrepeated := by
    rw [revokes.log]
    exact acknowledged.unrepeated.cons nofun

variable {rest : List Nat} {final : Msg}

section

variable (transmits : Transmits before after id rest final)
include transmits

theorem Transmits.acks : (ledger after.log).acks = (ledger before.log).acks := by
  rw [transmits.log, ledger_transmitEntries]
  simp only
  split <;> rfl

theorem Transmits.suffix : before.log <:+ after.log := by
  rw [transmits.log]
  exact suffix_append _ _

/-- A new number is one more than all that were given out, so than all that
were acknowledged. -/
theorem Transmits.outSeq (outbound : Outbound before)
    (orderly : Orderly after.log) (needs : (before.msgs id).needsOutSeq = true) {ack : UInt64}
    (given : ack ≤ before.con.queues.outSeq) : ack < before.con.queues.outSeq + 1 := by
  have small := orderly.numbers after.log (suffix_refl _)
  rw [transmits.log, ledger_transmitEntries] at small
  simp only [needs, if_true] at small
  rw [outbound.outSeq] at given ⊢
  rw [UInt64.le_iff_toNat_le, UInt64.toNat_ofNat', Nat.mod_eq_of_lt (by omega)] at given
  rw [UInt64.lt_iff_toNat_lt, UInt64.toNat_add, UInt64.toNat_ofNat', UInt64.toNat_one]
  lia

theorem Transmits.beyond (outbound : Outbound before)
    (orderly : Orderly after.log) (acknowledged : Acknowledged before) {ack : UInt64}
    (member : ack ∈ (ledger before.log).acks) : ack < (before.numbered id).hdr.seq := by
  obtain ⟨given, past⟩ := acknowledged.beyond ack member
  rw [(before.numbered_standing id).2.2]
  cases needs : (before.msgs id).needsOutSeq with
  | true => exact transmits.outSeq outbound orderly needs given
  | false =>
    have listed : id ∈ before.con.queues.outSent ++ before.con.queues.outQueue := by
      simp [transmits.queued]
    simpa [needs] using past id listed

end

theorem Acknowledged.transmit (acknowledged : Acknowledged before) (outbound : Outbound before)
    (orderly : Orderly after.log) (transmits : Transmits before after id rest final) : Acknowledged after where
  beyond ack member := by
    rw [transmits.acks] at member
    obtain ⟨given, past⟩ := acknowledged.beyond ack member
    have later := transmits.beyond outbound orderly acknowledged member
    refine ⟨?_, fun other listed => ?_⟩
    · rw [transmits.queues]
      simp only
      split
      · exact UInt64.le_of_lt (transmits.outSeq outbound orderly ‹_› given)
      · exact given
    · rw [transmits.list] at listed
      rw [transmits.msgs]
      by_cases same : other = id
      · rw [same, Function.update_self]
        have seq := transmits.message.2.2.trans (before.numbered_standing id).2.2.symm
        rw [seq]
        exact .inr later
      · rw [Function.update_of_ne same]
        exact past other listed
  unrepeated := by
    rw [transmits.log]
    refine Transmissions.cons ?_ fun other seq sound equal ack member => ?_
    · split
      · exact acknowledged.unrepeated.cons nofun
      · exact acknowledged.unrepeated
    · cases equal
      refine transmits.beyond outbound orderly acknowledged ?_
      split at member <;> exact member

variable {settled : Bool} {acked kept : List Nat}

theorem Acks.later {ack : UInt64}
    (acks : Acks before after ack settled acked kept) (outbound : Outbound before) (orderly : Orderly before.log)
    (unacked : ∀ first rest, kept = first :: rest → ack < (before.msgs first).hdr.seq) (member : id ∈ kept) :
    ack < (before.msgs id).hdr.seq := by
  obtain ⟨requeued, waiting, numbering⟩ := outbound.numbering orderly.tidy
  have increasing := (numbering.seqs outbound.outSeq (orderly.numbers _ (suffix_refl _))).1
  rw [acks.sent, append_assoc] at increasing
  cases kept with
  | nil => cases member
  | cons first rest =>
    have least := unacked first rest rfl
    rcases List.mem_cons.mp member with rfl | member
    · exact least
    · have ordered := (List.pairwise_append.mp (List.pairwise_append.mp increasing).2.1).1
      exact UInt64.lt_trans least ((List.pairwise_cons.mp ordered).1 id member)

theorem Acknowledged.acknowledge {ack : UInt64}
    (acknowledged : Acknowledged before) (outbound : Outbound before) (orderly : Orderly before.log)
    (acks : Acks before after ack settled acked kept) (settles : ackSettles before ack = true)
    (unacked : ∀ first rest, kept = first :: rest → ack < (before.msgs first).hdr.seq) : Acknowledged after where
  beyond other member := by
    rw [acks.book] at member
    rcases List.mem_cons.mp member with rfl | member
    · simp only [ackSettles, Bool.decide_and, Bool.and_eq_true, decide_eq_true_eq] at settles
      refine ⟨by rw [acks.queues]; exact settles.1, fun id listed => ?_⟩
      rw [(acks.standing id).2.1, (acks.standing id).2.2]
      rw [acks.queues, mem_append] at listed
      rcases listed with sent | queued
      · exact .inr (acks.later outbound orderly unacked sent)
      · exact settles.2 id queued
    · refine (acknowledged.beyond other member).of_subset (by rw [acks.queues]) fun id listed => ?_
      refine ⟨?_, (acks.standing id).2⟩
      rw [acks.queues, mem_append] at listed
      rw [acks.sent, append_assoc]
      exact mem_append_right _ (List.mem_append.mpr listed)
  unrepeated := by
    rw [acks.log]
    refine acknowledged.unrepeated.append fun entry member => ?_
    simp only [ackEntries, mem_cons, mem_reverse, mem_map] at member
    rcases member with rfl | ⟨id, _, rfl⟩ <;> simp

/-- The lists are in order, and once the past is an orderly one, clear of what
was acknowledged. -/
structure Acking (world : World) : Prop where
  outbound : Outbound world
  acknowledged : Orderly world.log → Acknowledged world

theorem Acking.step (act : Act before after) (acking : Acking before) : Acking after := by
  obtain ⟨outbound, acknowledged⟩ := acking
  have move := move_of_act outbound act
  refine ⟨outbound.move move, fun orderly => ?_⟩
  cases move with
  | same same =>
    exact (acknowledged (orderly.of_suffix same.log.suffix)).of_same outbound same
  | reset resets =>
    exact (acknowledged (orderly.of_suffix (resets.log ▸ suffix_cons _ _))).reset resets
  | requeue requeues => exact (acknowledged (requeues.log ▸ orderly)).requeue requeues
  | send sends =>
    exact (acknowledged (orderly.of_suffix (sends.log ▸ suffix_cons _ _))).send sends
  | revoke revokes same =>
    have past := (orderly.of_suffix same.log.suffix).of_suffix (revokes.log ▸ suffix_cons _ _)
    exact ((acknowledged past).revoke outbound revokes).of_same (outbound.revoke revokes) same
  | transmit transmits =>
    exact (acknowledged (orderly.of_suffix transmits.suffix)).transmit outbound orderly transmits
  | acknowledge acks unacked =>
    have past := orderly.of_suffix (acks.log ▸ suffix_append _ _)
    have settles : ackSettles before before.con.input.ack = true := by
      refine eq_true_of_ne_false fun unsettled => orderly.settled before.con.input.ack ?_
      rw [acks.log, unsettled]
      exact mem_cons_self
    exact (acknowledged past).acknowledge outbound past acks settles unacked
  | renew renews =>
    exact absurd (renews.log ▸ mem_cons_self) (orderly.tidy _)

end

theorem World.Unsent.acking {world : World} (unsent : world.Unsent) : Acking world where
  outbound := unsent.outbound
  acknowledged _ := by
    refine ⟨fun ack member => ?_, fun id seq sound rest suffix => ?_⟩
    · rw [unsent.log] at member
      cases member
    · rw [unsent.log] at suffix
      simp at suffix

/-- In a run with an orderly past, a number that the peer has acknowledged is
not the number of a message on the lists, and it is not transmitted again. -/
theorem acknowledged_not_retransmitted (bound : Nat) (events : List Event) (start : World)
    (unsent : start.Unsent) (orderly : Orderly (outcome (runEvents bound events) start).log) :
    let world := outcome (runEvents bound events) start
    (∀ ack ∈ (ledger world.log).acks, ∀ id ∈ world.con.queues.outSent ++ world.con.queues.outQueue,
      (world.msgs id).needsOutSeq = true ∨ ack < (world.msgs id).hdr.seq) ∧
    Unrepeated world.log := by
  intro world
  have acking : Acking world :=
    runEvents_preserves (fun _ _ act acking => acking.step act) bound events unsent.acking
  have acknowledged := acking.acknowledged orderly
  exact ⟨fun ack member => (acknowledged.beyond ack member).2, acknowledged.unrepeated⟩

def ackedEvents : List Event :=
  [.call (.send 3), .call (.send 5), .work { silent with sends := [200, 200] },
    .work { silent with recvs := [1, 8] }]

def ackedWorld : World :=
  outcome (runEvents 20 ackedEvents) (openWorld (cephMsgrTagAck :: leBytes 8 1))

theorem ackedWorld_log : ackedWorld.log =
    [.acknowledged 1 true, .acked 3 1 1, .tag 0, .transmitted 5 2 true, .numbered 5 2, .transmitted 3 1 true,
      .numbered 3 1, .sent 5, .sent 3] := by
  decide +kernel

theorem ackedWorld_orderly : Orderly ackedWorld.log := by
  rw [ackedWorld_log]
  refine ⟨fun id => by simp, fun ack => by simp, fun past suffix => ?_⟩
  revert past
  simp only [← mem_tails]
  decide

theorem acknowledged_not_retransmitted_acked :
    ackedWorld.con.queues.outSent = [5] ∧ (ledger ackedWorld.log).acks = [1] ∧ Unrepeated ackedWorld.log :=
  ⟨by decide +kernel, by decide +kernel,
    (acknowledged_not_retransmitted 20 ackedEvents _ (openWorld_unsent _) ackedWorld_orderly).2⟩

def seqEvents : List Event :=
  [.call (.send 3), .work { silent with sends := [200] }, .work { silent with recvs := [-104] },
    .work silent,
    .work { silent with
      connects := [(0, cephBanner ++ replicate 272 0 ++ [cephMsgrTagSeq] ++ replicate 25 0 ++
        leBytes 8 1)]
      sends := [500] },
    .work { silent with recvs := [9, 136, 136], sends := [500] },
    .work { silent with recvs := [26, 8], sends := [500, 500] }]

/-- `process_ack` looks at `out_sent` only, and the message is on `out_queue`. -/
theorem acknowledged_retransmitted : ¬ ∀ (bound : Nat) (events : List Event) (start : World), start.Unsent →
    let world := outcome (runEvents bound events) start
    (∀ ack ∈ (ledger world.log).acks, ∀ id ∈ world.con.queues.outSent ++ world.con.queues.outQueue,
      (world.msgs id).needsOutSeq = true ∨ ack < (world.msgs id).hdr.seq) ∧
    Unrepeated world.log := by
  intro never
  have beyond := (never 30 seqEvents (openWorld []) (openWorld_unsent [])).1
    1 (by decide +kernel) 3 (by decide +kernel)
  revert beyond
  decide +kernel

end KmodCeph.Messenger
