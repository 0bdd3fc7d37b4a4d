import KmodCeph.Messenger.Acts

namespace KmodCeph.Messenger

open Lib List
open Relation

variable {before world : World} {bytes : List UInt8} {ret : Int} {bound : Nat}

theorem runs_atomically {α : Type} {step : Step α} {post : α → World → Prop}
    (acts : ∀ result after, step before = .ok (result, after) → ReflTransGen Act before after ∧ post result after) :
    Runs Act (atomically step) before post := by
  unfold Runs atomically
  cases ran : step before with
  | error halt => exact .refl
  | ok pair =>
    obtain ⟨result, after⟩ := pair
    exact acts result after ran

theorem runs_onlyIf {condition : Prop} [Decidable condition] {program : Prog Int}
    {post : Int → World → Prop} (done : ¬ condition → post 1 before)
    (runs : condition → Runs Act program before post) : Runs Act (onlyIf condition program) before post := by
  unfold onlyIf
  split
  · exact runs ‹_›
  · exact Runs.pure (done ‹_›)

theorem act_env (before : World) (env : Env) : Act before { before with env } :=
  .quiet env before.con.writePending before.con.sockClosed before.con.backoff

theorem World.send_cases {after : World} (ran : world.send bytes = .ok (ret, after)) :
    world.con.sock.isSome ∧ ((ret ≤ 0 ∧ ∃ env, after = { world with env }) ∨
      ∃ env taken, taken ≠ [] ∧ taken <+: bytes ∧ ret = taken.length ∧ after = world.wrote env taken) := by
  unfold World.send at ran
  cases sock : world.con.sock with
  | none => simp [sock] at ran
  | some open_ =>
    refine ⟨rfl, ?_⟩
    simp only [sock] at ran
    split at ran
    · simp only [Except.ok.injEq, Prod.mk.injEq] at ran
      obtain ⟨rfl, rfl⟩ := ran
      refine .inl ⟨?_, _, rfl⟩
      unfold sockError
      split <;> omega
    · simp only [Except.ok.injEq, Prod.mk.injEq] at ran
      obtain ⟨rfl, rfl⟩ := ran
      by_cases empty : bytes.take (world.env.sends.headD 0).toNat = []
      · left
        rw [empty]
        exact ⟨by simp, _, by simp [Function.update_eq_self]; rfl⟩
      · exact .inr ⟨_, _, empty, take_prefix _ _, rfl, rfl⟩

theorem World.recv_cases {after : World} {len : Nat} (ran : world.recv len = .ok ((ret, bytes), after)) :
    (ret ≤ 0 ∧ bytes = [] ∧ ∃ env, after = { world with env }) ∨
      ∃ env sock, world.con.sock = some sock ∧ bytes ≠ [] ∧ bytes.length ≤ len ∧
        bytes <+: sock.incoming ∧ ret = bytes.length ∧ after = world.took env sock bytes.length := by
  unfold World.recv at ran
  cases known : world.con.sock with
  | none => simp [known] at ran
  | some sock =>
    simp only [known] at ran
    split at ran
    · simp only [Except.ok.injEq, Prod.mk.injEq] at ran
      obtain ⟨⟨rfl, rfl⟩, rfl⟩ := ran
      refine .inl ⟨?_, rfl, _, rfl⟩
      unfold sockError
      split <;> omega
    · simp only [Except.ok.injEq, Prod.mk.injEq] at ran
      obtain ⟨⟨rfl, rfl⟩, rfl⟩ := ran
      by_cases empty : sock.incoming.take (min (world.env.recvs.headD 0).toNat len) = []
      · left
        refine ⟨by rw [empty]; simp, empty, { world.env with recvs := world.env.recvs.tail }, ?_⟩
        rw [empty]
        simp only [length_nil, drop_zero, Nat.add_zero]
        rw [← known]
      · refine .inr ⟨_, sock, rfl, empty, ?_, take_prefix _ _, rfl, rfl⟩
        rw [List.length_take]
        lia

theorem writePartialSkip_runs (state : before.con.state ≠ .preopen) :
    Runs Act (writePartialSkip bound) before fun ret after =>
      after.con.state ≠ .preopen ∧ (ret ≤ 0 ∨ after.con.output.outSkip ≤ 0) := by
  refine Runs.iterate (fun _ world => world.con.state ≠ .preopen) ?_ state
  intro _ before state
  refine runs_atomically fun next after ran => ?_
  unfold writeSkipOnce at ran
  split at ran
  · obtain ⟨⟨ret, world⟩, sent, ran⟩ := ok_of_bind ran
    obtain ⟨open_, ⟨refused, env, rfl⟩ | ⟨env, taken, some_, _, rfl, rfl⟩⟩ := World.send_cases sent
    · simp only [refused, if_true, Except.ok.injEq, Prod.mk.injEq] at ran
      obtain ⟨rfl, rfl⟩ := ran
      exact ⟨.single (act_env before env), state, .inl refused⟩
    · have positive := length_pos_of_ne_nil some_
      simp only at ran
      rw [if_neg (by omega)] at ran
      obtain ⟨rfl, rfl⟩ := ran
      exact ⟨.single (.writeSkip env taken open_ state ‹_›), state⟩
  · simp only [Except.ok.injEq, Prod.mk.injEq] at ran
    obtain ⟨rfl, rfl⟩ := ran
    exact ⟨.refl, state, .inr (by omega)⟩

theorem advanceKvecs_cases {output after : Output} {count : Nat} {next : Next PUnit Int}
    (ran : advanceKvecs output count = .ok (next, after)) :
    (output.outKvecBytes = count ∧ next = .done 1 ∧
      after = finishKvecs { output with outKvecBytes := 0 }) ∨
    (output.outKvecBytes ≠ count ∧ next = .again ⟨⟩ ∧ ∃ left cur rest,
      consumeKvecs output.outKvec output.outKvecLeft output.outKvecCur count = .ok (left, cur, rest) ∧
      after = { output with
        outKvecBytes := output.outKvecBytes - count, outKvecLeft := left, outKvecCur := cur
        outKvec := output.outKvec.modify cur
          fun kvec => { kvec with offset := kvec.offset + rest, len := kvec.len - rest } }) := by
  unfold advanceKvecs at ran
  simp only at ran
  split at ran
  · rename_i drained
    obtain ⟨rfl, rfl⟩ := ran
    exact .inl ⟨by omega, rfl, by rw [drained]⟩
  · obtain ⟨⟨left, cur, rest⟩, consumed, ran⟩ := ok_of_bind ran
    obtain ⟨rfl, rfl⟩ := ran
    exact .inr ⟨by omega, rfl, left, cur, rest, consumed, rfl⟩

theorem writePartialKvec_runs (state : before.con.state ≠ .preopen) (unskipped : before.con.output.outSkip ≤ 0) :
    Runs Act (writePartialKvec bound) before fun ret after =>
      after.con.state ≠ .preopen ∧ after.con.output.outSkip ≤ 0 ∧ (ret ≤ 0 ∨ after.con.output.outKvecLeft = 0) := by
  refine Runs.iterate
    (fun _ world => world.con.state ≠ .preopen ∧ world.con.output.outSkip ≤ 0) ?_ ⟨state, unskipped⟩
  intro _ before ⟨state, unskipped⟩
  refine runs_atomically fun next after ran => ?_
  unfold writeKvecOnce at ran
  split at ran
  · obtain ⟨⟨ret, world⟩, sent, ran⟩ := ok_of_bind ran
    obtain ⟨open_, ⟨refused, env, rfl⟩ | ⟨env, taken, some_, pending, rfl, rfl⟩⟩ := World.send_cases sent
    · simp only [refused, if_true, Except.ok.injEq, Prod.mk.injEq] at ran
      obtain ⟨rfl, rfl⟩ := ran
      exact ⟨.single (act_env before env), state, unskipped, .inl refused⟩
    · have positive := length_pos_of_ne_nil some_
      simp only at ran
      rw [if_neg (by omega)] at ran
      obtain ⟨⟨next, output⟩, advanced, ran⟩ := ok_of_bind ran
      obtain ⟨rfl, rfl⟩ := ran
      refine ⟨.single (.writeKvec env taken open_ state unskipped some_ pending advanced), ?_⟩
      obtain ⟨_, rfl, rfl⟩ | ⟨_, rfl, _, _, _, _, rfl⟩ := advanceKvecs_cases advanced
      · exact ⟨state, unskipped, .inr rfl⟩
      · exact ⟨state, unskipped⟩
  · simp only [Except.ok.injEq, Prod.mk.injEq] at ran
    obtain ⟨rfl, rfl⟩ := ran
    exact ⟨.single (.finishKvecs state unskipped (by omega)), state, unskipped, .inr rfl⟩

theorem writePartialMessageData_runs {id : Nat} (drained : before.Drained)
    (sending : before.con.output.outMsg = some id) (unfinished : before.con.output.outMsgDone = false) :
    Runs Act (writePartialMessageData bound id) before fun _ after => after.con.state ≠ .preopen := by
  refine Runs.read ?_
  split
  · exact Runs.pure drained.1
  · refine Runs.iterate (fun _ world => world.Drained ∧ world.con.output.outMsg = some id ∧
      world.con.output.outMsgDone = false) ?_ ⟨drained, sending, unfinished⟩
    intro _ before ⟨drained, sending, unfinished⟩
    refine runs_atomically fun next after ran => ?_
    unfold writeDataOnce at ran
    simp only at ran
    split at ran
    · obtain ⟨piece, located, ran⟩ := ok_of_bind ran
      obtain ⟨⟨ret, world⟩, sent, ran⟩ := ok_of_bind ran
      obtain ⟨open_, ⟨refused, env, rfl⟩ | ⟨env, taken, some_, _, rfl, rfl⟩⟩ := World.send_cases sent
      · simp only [refused, if_true, Except.ok.injEq, Prod.mk.injEq] at ran
        obtain ⟨rfl, rfl⟩ := ran
        exact ⟨.single (act_env before env), drained.1⟩
      · have positive := length_pos_of_ne_nil some_
        rw [if_neg (by omega)] at ran
        obtain ⟨⟨fresh, cursor⟩, advanced, ran⟩ := ok_of_bind ran
        obtain ⟨rfl, rfl⟩ := ran
        exact ⟨.single (.writeData env piece taken drained sending open_ unfinished some_ advanced),
          drained, sending, unfinished⟩
    · obtain ⟨world, queued, ran⟩ := ok_of_bind ran
      obtain ⟨rfl, rfl⟩ := ran
      refine ⟨.single (.queueFooter _ drained sending unfinished (by omega) queued), ?_⟩
      obtain ⟨_, rfl⟩ := prepareWriteMessageFooter_ok queued
      exact drained.1

theorem openSocket_state {after : World} (ran : openSocket before = .ok (ret, after)) :
    after.con.state = .connecting := by
  obtain ⟨_, _, ⟨_, _, rfl⟩ | ⟨_, _, _, rfl⟩⟩ := openSocket_ok ran <;> rfl

def WriteLabel.Holds (world : World) : WriteLabel → Prop
  | .more => True
  | .moreKvec => world.con.state ≠ .preopen
  | .msgPages => world.Drained
  | .doNext => world.Idle

theorem tryWriteFrom_more : Runs Act (tryWriteFrom bound .more) before fun next after =>
      next.Holds (WriteLabel.Holds after) fun _ => True := by
  refine Runs.read ?_
  split
  · refine Runs.bind (fun _ after => after.con.state ≠ .preopen)
      (runs_atomically fun ret after ran => ⟨.single (.openSocket ‹_› ran), ?_⟩) fun ret after state => ?_
    · rw [openSocket_state ran]
      decide
    · refine Runs.pure ?_
      split
      · trivial
      · exact state
  · exact Runs.pure ‹_›

theorem tryWriteFrom_moreKvec (state : before.con.state ≠ .preopen) :
    Runs Act (tryWriteFrom bound .moreKvec) before fun next after =>
      next.Holds (WriteLabel.Holds after) fun _ => True := by
  refine Runs.read ?_
  refine Runs.bind _ (runs_onlyIf (fun idle => ⟨state, .inr (by omega)⟩) fun _ =>
    writePartialSkip_runs state) fun skipped after ⟨state, skip⟩ => ?_
  split
  · exact Runs.pure trivial
  · have unskipped : after.con.output.outSkip ≤ 0 := by omega
    refine Runs.read ?_
    refine Runs.bind _ (runs_onlyIf (fun idle => ⟨state, unskipped, .inr (by omega)⟩) fun _ =>
      writePartialKvec_runs state unskipped) fun sent after ⟨state, unskipped, empty⟩ => ?_
    refine Runs.pure ?_
    split
    · trivial
    · exact ⟨state, unskipped, by omega⟩

theorem tryWriteFrom_msgPages (drained : before.Drained) :
    Runs Act (tryWriteFrom bound .msgPages) before fun next after =>
      next.Holds (WriteLabel.Holds after) fun _ => True := by
  refine Runs.read ?_
  split
  · exact Runs.pure ⟨drained, ‹_›⟩
  · split
    · refine Runs.bind (fun _ after => after.Idle) (runs_atomically fun result after ran => ?_)
        fun _ after idle => Runs.pure idle
      simp only [finishMessage, Except.ok.injEq, Prod.mk.injEq, true_and] at ran
      obtain rfl := ran
      exact ⟨.single (.finishMessage drained ‹_›), drained, rfl⟩
    · refine Runs.bind _ (writePartialMessageData_runs drained ‹_› (eq_false_of_ne_true ‹_›)) fun ret after state =>
        Runs.pure ?_
      split
      · exact state
      · trivial

theorem tryWriteFrom_doNext (idle : before.Idle) : Runs Act (tryWriteFrom bound .doNext) before fun next after =>
      next.Holds (WriteLabel.Holds after) fun _ => True := by
  refine Runs.read ?_
  split
  · rename_i ready
    exact Runs.bind (fun _ _ => True) (runs_atomically fun _ after ran =>
      ⟨.single (.prepareMessage idle ready.1 ran), trivial⟩) fun _ _ _ => Runs.pure trivial
  · split
    · rename_i ready
      exact Runs.bind (fun _ _ => True) (runs_atomically fun _ after ran =>
        ⟨.single (.prepareAck idle ready.1 ran), trivial⟩) fun _ _ _ => Runs.pure trivial
    · split
      · rename_i ready
        exact Runs.bind (fun _ _ => True) (runs_atomically fun _ after ran =>
          ⟨.single (.prepareKeepalive idle ready.1 ran), trivial⟩) fun _ _ _ => Runs.pure trivial
      · refine Runs.bind (fun _ _ => True) (runs_atomically fun _ after ran => ?_)
          fun _ _ _ => Runs.pure trivial
        simp only [clearWritePending, Except.ok.injEq, Prod.mk.injEq, true_and] at ran
        obtain rfl := ran
        exact ⟨.single (.quiet before.env false before.con.sockClosed before.con.backoff),
          trivial⟩

theorem tryWrite_runs (bound : Nat) (before : World) :
    Runs Act (tryWrite bound) before fun _ _ => True := by
  refine Runs.iterate (fun label world => WriteLabel.Holds world label) ?_ (trivial : WriteLabel.Holds before .more)
  intro label before holds
  cases label with
  | more => exact tryWriteFrom_more
  | moreKvec => exact tryWriteFrom_moreKvec holds
  | msgPages => exact tryWriteFrom_msgPages holds
  | doNext => exact tryWriteFrom_doNext holds

end KmodCeph.Messenger
