import KmodCeph.Mds.Requeue

namespace KmodCeph.Mds

open Lib Function List

def Faultless (around : Nat → Surroundings) : Prop :=
  ∀ call, (around call).fault = none

namespace MdsClient

def Closable (client : MdsClient) (id : SessionId) : Prop :=
  ∀ tid ∈ client.requestTree, (client.request tid).session = some id → (client.request tid).gotUnsafe = false

def ClosesSoundly (around : Nat → Surroundings) (reconnects : Nat → Reconnect) (oldmap newmap : MdsMap) :
    List Nat → MdsClient → Prop
  | [], _ => True
  | mds :: rest, client =>
    (∀ id, client.sessions mds = some id → Moved oldmap newmap mds → (client.session id).state = .opening →
      client.Closable id) ∧
    ∀ after, checkMds around reconnects oldmap newmap client mds = .ok after →
      ClosesSoundly around reconnects oldmap newmap rest after

/-- A reply that `handle_reply` acts on. An unsafe reply is not an error, and no ESTALE comes after one; the
request is on no wait list. -/
def SoundReply (around : Nat → Surroundings) (id : SessionId) (tid : Tid) (head : ReplyHead) (auth : Int)
    (client : MdsClient) : Prop :=
  ¬ client.Linked tid ∧
    if client.resendsStale id tid head auth then
      Faultless around ∧ ((client.request tid).gotUnsafe = true → (client.request tid).aborted = true)
    else head.safe = false → 0 ≤ head.result

/-- No request of the tree is forgotten. -/
structure Remembered (client : MdsClient) : Prop where
  placed : ∀ tid ∈ client.requestTree, client.Placed tid
  returned : ∀ tid err, (client.request tid).issuer = .returned err false → err < 0 → tid ∉ client.requestTree

end MdsClient

def MdsCall.Sound : MdsCall → MdsClient → Prop
  | .submit around _, _ => Faultless around
  | .reply around id tid (some head) auth, client =>
    client.ignoresReply id tid head ∨ client.SoundReply around id tid head auth
  | .fill tid err, client => tid ∈ client.requestTree → (client.request tid).aborted = false → err = 0
  | .forward around tid _ fwdSeq, client =>
    tid ∈ client.requestTree → (client.request tid).aborted = true ∨ (client.request tid).numFwd < fwdSeq →
      ¬ client.Linked tid ∧
        ((client.request tid).aborted = false → Faultless around ∧ (client.request tid).gotUnsafe = false)
  | .session around id op, client => Faultless around ∧ (op = .close → client.Closable id)
  | .map around reconnects _ _ newmap, client =>
    Faultless around ∧ MdsClient.ClosesSoundly around reconnects client.mdsmap newmap
      (List.range client.mdsmap.maxMds) { client with calls := 0, mdsmap := newmap }
  | _, _ => True

namespace MdsClient

section

variable {client before after : MdsClient} {loose : Tid → Prop} {tid : Tid} {id : SessionId} {mds : Nat}
variable {around : Nat → Surroundings}

theorem Kept.change (kept : Kept loose client) (change : MdsRequest → MdsRequest)
    (session : (change (client.request tid)).session = (client.request tid).session)
    (gotUnsafe : (change (client.request tid)).gotUnsafe = (client.request tid).gotUnsafe)
    (live : tid ∈ client.requestTree → (client.request tid).Live → (change (client.request tid)).Live)
    (sentOn : ∀ id, (client.request tid).session = some id → (client.request tid).sentOn = some id →
      (change (client.request tid)).sentOn = some id) : Kept loose (client.setReq tid change) := by
  have fits := kept.fits tid
  refine kept.of_apart setReq_apart (setReq_tidy kept.tidy) ?_ ?_ fun _ _ isLoose => isLoose
  · rintro _ rfl
    refine ⟨?_, ?_, ?_, ?_⟩
    · rw [setReq_same, session, gotUnsafe]
      exact fits.mapWaits
    · rw [setReq_same, session, gotUnsafe]
      exact fits.waits
    · rw [setReq_same, session, gotUnsafe]
      exact fits.replays
    · rw [setReq_same]
      exact fun member => ⟨(fits.live member).1, live member (fits.live member).2⟩
  · rintro _ rfl member
    rcases kept.placed _ member with isLoose | waits | ⟨id, registered, bound, sent, -⟩
    · exact .inl isLoose
    · exact .inr (.inl waits)
    · refine .inr (.inr ⟨id, registered, ?_⟩)
      rw [setReq_same, session]
      exact ⟨bound, sentOn id bound sent, (live member (fits.live member).2).unsafed⟩

theorem Kept.outside (kept : Kept loose client) (gone : tid ∉ client.requestTree) {change : MdsRequest → MdsRequest} :
    Kept loose (client.setReq tid change) := by
  have fits := kept.fits tid
  refine kept.of_apart setReq_apart (setReq_tidy kept.tidy) ?_ ?_ fun _ _ isLoose => isLoose
  · rintro _ rfl
    exact ⟨fun member => absurd (fits.mapWaits member).1 gone, fun id member => absurd (fits.waits id member).1 gone,
      fun id member => ⟨(fits.replays id member).1, fun listed => absurd listed gone⟩, fun listed => absurd listed gone⟩
  · rintro _ rfl member
    exact absurd member gone

theorem Kept.of_fields (kept : Kept loose before) (requestTree : after.requestTree = before.requestTree)
    (lastTid : after.lastTid = before.lastTid) (request : after.request = before.request)
    (waitingForMap : after.waitingForMap = before.waitingForMap) (sessions : after.sessions = before.sessions)
    (session : after.session = before.session) (nextSession : after.nextSession = before.nextSession) :
    Kept loose after := by
  refine kept.of_same (.of_fields requestTree lastTid request waitingForMap sessions session nextSession) ?_
  refine ⟨?_, ?_, ?_, ?_⟩
  · rw [requestTree]
    exact kept.tidy.treeOnce
  · rw [waitingForMap]
    exact kept.tidy.mapOnce
  · rw [session]
    exact kept.tidy.once
  · rw [sessions, session, nextSession]
    exact kept.tidy.table

theorem Kept.setState (kept : Kept loose client) {state : SessionState} : Kept loose (client.setState id state) :=
  kept.of_same setState_apart (setState_tidy kept.tidy)

theorem Kept.closeSession (kept : Kept loose client) : Kept loose (client.closeSession id) := by
  unfold MdsClient.closeSession
  split
  · exact kept
  · exact kept
  · exact kept
  · exact kept.setState

theorem Kept.unhung (kept : Kept loose client) :
    Kept loose (if (client.session id).state = .hung then client.setState id .opened else client) := by
  split
  · exact kept.setState
  · exact kept

theorem create_live {mode : DirectMode} {issuer : Issuer} (new : ∀ err, issuer ≠ .returned err false) :
    (MdsRequest.create mode issuer).Live where
  unsafed := rfl
  errs failed := absurd rfl failed
  aborts := by simp [MdsRequest.create]
  unanswered _ := ⟨rfl, rfl, rfl⟩
  result := by simp [MdsRequest.create]
  completes := by simp [MdsRequest.create]
  returned err returned := absurd returned (new err)
  waits _ := rfl

theorem Kept.registered (kept : Kept (fun _ => False) client) {req : MdsRequest} (live : req.Live)
    (fresh : req.gotUnsafe = false) :
    Kept (· = client.lastTid + 1) (client.registerRequest req) ∧
      (client.registerRequest req).Ready (client.lastTid + 1) := by
  have tidy := kept.tidy
  have fits := kept.fits (client.lastTid + 1)
  have absent : client.lastTid + 1 ∉ client.requestTree := by
    intro member
    exact absurd (fits.live member).1 (Nat.not_succ_le_self _)
  have apart : Apart (· = client.lastTid + 1) client (client.registerRequest req) := by
    refine ⟨?_, ?_, fun _ _ => Iff.rfl, fun _ _ _ member => member, fun _ _ _ _ member => member,
      fun _ _ _ member => member, fun _ _ found => found, fun _ _ => rfl, le_rfl, Nat.le_succ _⟩
    · intro other differs
      exact update_of_ne differs _ _
    · intro other differs
      simp [registerRequest, differs]
  have request : (client.registerRequest req).request (client.lastTid + 1) = req := update_self _ _ _
  have ready : (client.registerRequest req).Ready (client.lastTid + 1) := by
    refine ⟨by simp [registerRequest], ?_, by rw [request]; exact fresh⟩
    rintro (onMap | ⟨id, member⟩)
    · exact absent (fits.mapWaits onMap).1
    · exact absent (fits.waits id member).1
  refine ⟨?_, ready⟩
  refine kept.of_apart apart ⟨?_, tidy.mapOnce, tidy.once, tidy.table⟩ ?_ (fun _ same _ => .inl same) fun _ _ => False.elim
  · exact List.Nodup.append tidy.treeOnce (nodup_singleton _) (by simpa using absent)
  · rintro _ rfl
    refine ready.fits ?_ le_rfl (by rw [request]; exact live)
    intro id member
    exact absurd (fits.replays id member).1 (Nat.not_succ_le_self _)

theorem unregisterSession_kept (kept : Kept (fun _ => False) client) (closable : client.Closable id)
    (ran : client.unregisterSession id = .ok after) :
    Kept (client.Strands (client.session id).mds) after ∧
      after = { client with sessions := update client.sessions (client.session id).mds none } := by
  obtain ⟨_, passed, done⟩ := ok_of_bind ran
  have registered := not_not.mp (not_of_haltIf passed)
  cases done
  have tidy := kept.tidy
  have below := (tidy.table _ _ registered).2
  refine ⟨⟨⟨tidy.treeOnce, tidy.mapOnce, tidy.once, ?_⟩, ?_, ?_⟩, rfl⟩
  · intro mds other found
    dsimp only at found
    by_cases same : mds = (client.session id).mds
    · subst same
      simp at found
    · rw [update_of_ne same] at found
      exact tidy.table mds other found
  · intro tid
    have fits := kept.fits tid
    exact ⟨fits.mapWaits, fits.waits, fits.replays, fits.live⟩
  · intro tid member
    have stays : ∀ other, client.Registered other → other ≠ id →
        { client with sessions := update client.sessions (client.session id).mds none }.Registered other := by
      rintro other ⟨mds, found⟩ differs
      refine ⟨mds, ?_⟩
      dsimp only
      rw [update_of_ne]
      · exact found
      · rintro rfl
        rw [registered] at found
        exact differs (Option.some.inj found).symm
    rcases (kept.placed tid member).resolve_left not_false with (onMap | ⟨other, known, waits⟩) | ⟨other, known, bound, sent⟩
    · exact .inr (.inl (.inl onMap))
    · by_cases same : other = id
      · subst same
        obtain ⟨-, bound, fresh⟩ := (kept.fits tid).waits _ waits
        exact .inl ⟨fresh, _, below, bound, rfl⟩
      · exact .inr (.inl (.inr ⟨other, stays other known same, waits⟩))
    · by_cases same : other = id
      · subst same
        exact .inl ⟨closable tid member bound, _, below, bound, rfl⟩
      · exact .inr (.inr ⟨other, stays other known same, bound, sent⟩)

theorem Kept.left (kept : Kept (client.Strands mds) client) (sound : Faultless around) :
    Kept (fun _ => False) ((client.wakeSession around id).kickRequests around mds) := by
  obtain ⟨woken, apart, -⟩ := wakeSession_kept _ sound kept
  exact kickRequests_kept sound woken fun tid _ isLoose => isLoose.2.of_apart apart isLoose.1

theorem Strands.setState {state : SessionState} : (client.setState id state).Strands mds tid ↔ client.Strands mds tid := by
  refine and_congr_right fun _ => exists_congr fun other => ?_
  rw [setState_session.1]
  rfl

section

variable (kept : Kept (fun _ => False) client)
include kept

theorem handleSession_kept (sound : Faultless around) {op : SessionOp}
    (closable : op = .close → client.Closable id) (ran : client.handleSession around id op = .ok after) :
    Kept (fun _ => False) after := by
  unfold handleSession at ran
  cases op with
  | opened =>
    cases ran
    have stopped : ∀ {session : MdsClient}, Kept (fun _ => False) session →
        Kept (fun _ => False) (if session.stopping then session.closeSession id else session) := by
      intro session kept
      split
      · exact kept.closeSession
      · exact kept
    exact (wakeSession_kept _ sound (stopped kept.unhung.setState)).1.mono fun _ _ isLoose => isLoose.2
  | close =>
    obtain ⟨between, unregistered, ran⟩ := ok_of_bind ran
    obtain ⟨left, changed⟩ := unregisterSession_kept kept (closable rfl) unregistered
    cases ran
    subst changed
    split
    · rw [setState_session.1]
      exact Kept.left (left.setState.mono fun _ _ strands => Strands.setState.mpr strands) sound
    · exact Kept.left left sound
  | other =>
    cases ran
    exact kept.unhung

theorem Kept.replay (replayed : tid ∈ (client.session id).unsafeList) :
    Kept (fun _ => False) (client.sendRequest tid id none) := by
  have sent : client.sendRequest tid id none = client.setReq tid fun req => { req with sentOn := some id } := by
    unfold sendRequest
    simp
  rw [sent]
  by_cases listed : tid ∈ client.requestTree
  · have bound := (((kept.fits tid).replays id replayed).2 listed).1
    refine kept.change _ rfl rfl (fun _ live => live.moved) ?_
    intro other session _
    rw [bound] at session
    exact session
  · exact kept.outside listed

theorem Kept.replayUnsafeRequests : Kept (fun _ => False) (client.replayUnsafeRequests id) := by
  have replays : ∀ (tids : List Tid) (client : MdsClient), (∀ tid ∈ tids, tid ∈ (client.session id).unsafeList) →
      Kept (fun _ => False) client →
      Kept (fun _ => False) (tids.foldl (fun client tid => client.sendRequest tid id none) client) := by
    intro tids
    induction tids with
    | nil => exact fun _ _ kept => kept
    | cons first rest ih =>
      intro client listed kept
      refine ih _ ?_ (kept.replay (listed first mem_cons_self))
      intro tid member
      have same : (client.sendRequest first id none).session = client.session := by
        unfold sendRequest
        simp [setReq]
      rw [same]
      exact listed tid (mem_cons_of_mem _ member)
  exact replays _ client (fun _ member => member) kept

variable {outcome : Reconnect} {reconnects : Nat → Reconnect} {oldmap newmap : MdsMap}
variable {noMemory : Nat → Nat → Bool} {mode : DirectMode}

theorem Kept.sendMdsReconnect (sound : Faultless around) :
    Kept (fun _ => False) (client.sendMdsReconnect around id outcome) := by
  cases outcome with
  | noMemory => exact kept
  | failed => exact kept.setState.replayUnsafeRequests
  | sent => exact (wakeSession_kept _ sound kept.setState.replayUnsafeRequests).1.mono fun _ _ isLoose => isLoose.2

theorem Kept.recoverSession (sound : Faultless around) {oldstate newstate : Int} :
    Kept (fun _ => False) (client.recoverSession around outcome oldstate newstate mds id) := by
  have recovered : Kept (fun _ => False)
      (if (client.session id).state = .restarting ∧ MdsMap.stateReconnect ≤ newstate then
        client.sendMdsReconnect around id outcome else client) := by
    split
    · exact kept.sendMdsReconnect sound
    · exact kept
  unfold MdsClient.recoverSession
  simp only
  split
  · exact kickRequests_kept sound recovered fun _ _ => False.elim
  · exact recovered

end

theorem Closable.woken (kept : Kept loose client) (sound : Faultless around) (closable : client.Closable id) :
    (client.wakeSession around id).Closable id := by
  obtain ⟨-, apart, fresh⟩ := wakeSession_kept id sound kept
  intro tid listed session
  by_cases waiting : tid ∈ (client.session id).waiting
  · exact fresh tid waiting
  · rw [apart.request tid waiting] at session ⊢
    exact closable tid ((apart.tree tid waiting).mp listed) session

theorem checkMds_kept (kept : Kept (fun _ => False) client) (sound : Faultless around)
    (closable : ∀ id, client.sessions mds = some id → Moved oldmap newmap mds → (client.session id).state = .opening →
      client.Closable id)
    (ran : checkMds around reconnects oldmap newmap client mds = .ok after) : Kept (fun _ => False) after := by
  unfold checkMds at ran
  cases found : client.sessions mds with
  | none =>
    rw [found] at ran
    cases ran
    exact kept
  | some id =>
    simp only [found] at ran
    split at ran
    · next moved =>
      split at ran
      · next opening =>
        obtain ⟨between, unregistered, done⟩ := ok_of_bind ran
        obtain ⟨woken, apart, -⟩ := wakeSession_kept id sound kept
        have waked := @Kept.mono _ _ (fun _ => False) woken fun _ _ isLoose => isLoose.2
        obtain ⟨left, changed⟩ :=
          unregisterSession_kept waked (Closable.woken kept sound (closable id found moved opening)) unregistered
        have isMds := (waked.tidy.table mds id (apart.sessions mds id found)).1
        subst changed
        cases done
        refine (kickRequests_kept sound left ?_).recoverSession sound
        intro tid _ strands
        rwa [isMds] at strands
      · cases ran
        exact (kickRequests_kept sound kept.setState fun _ _ => False.elim).recoverSession sound
    · split at ran
      · cases ran
        exact kept
      · cases ran
        exact kept.recoverSession sound

theorem checkAll_kept {list : List Nat} (kept : Kept (fun _ => False) client) (sound : Faultless around)
    (closes : ClosesSoundly around reconnects oldmap newmap list client)
    (ran : list.foldlM (checkMds around reconnects oldmap newmap) client = .ok after) : Kept (fun _ => False) after := by
  induction list generalizing client with
  | nil =>
    cases ran
    exact kept
  | cons first rest ih =>
    obtain ⟨between, checked, ran⟩ := ok_of_bind ran
    exact ih (checkMds_kept kept sound closes.1 checked) (closes.2 between checked) ran

theorem Kept.openExportTargets (kept : Kept loose client) :
    Kept loose (client.openExportTargets noMemory newmap mds) := by
  have opens : ∀ (targets : List Nat) (client : MdsClient), Kept loose client →
      Kept loose (targets.foldl (openExportTargetSession (noMemory mds)) client) := by
    intro targets
    induction targets with
    | nil => exact fun _ kept => kept
    | cons target rest ih =>
      intro client kept
      refine ih _ ?_
      unfold openExportTargetSession
      split
      · exact kept
      · next id registered found =>
        obtain ⟨apart, tidy, -⟩ := lookupOrRegister_apart kept.tidy found
        have registered := kept.of_same apart tidy
        exact registered.of_same openSession_apart (openSession_tidy tidy)
  unfold MdsClient.openExportTargets
  split
  · exact kept
  · split
    · exact kept
    · split
      all_goals first
        | exact kept
        | exact opens _ client kept

section

variable (kept : Kept (fun _ => False) client)
include kept

theorem handleMap_kept {epoch : Nat} (sound : Faultless around)
    (closes : ClosesSoundly around reconnects client.mdsmap newmap (List.range client.mdsmap.maxMds)
      { client with mdsmap := newmap })
    (ran : client.handleMap around reconnects noMemory epoch newmap = .ok after) : Kept (fun _ => False) after := by
  unfold handleMap at ran
  split at ran
  · cases ran
    exact kept
  · obtain ⟨checked, compared, done⟩ := ok_of_bind ran
    cases done
    obtain ⟨between, checkedAll, done⟩ := ok_of_bind compared
    cases done
    have swapped : Kept (fun _ => False) { client with mdsmap := newmap } := kept.of_fields rfl rfl rfl rfl rfl rfl rfl
    have compared := checkAll_kept swapped sound closes checkedAll
    have opens : ∀ (list : List Nat) (client : MdsClient), Kept (fun _ => False) client →
        Kept (fun _ => False) (list.foldl (MdsClient.openExportTargets noMemory newmap) client) := by
      intro list
      induction list with
      | nil => exact fun _ kept => kept
      | cons first rest ih => exact fun client kept => ih _ kept.openExportTargets
    exact (wakeMap_kept sound (opens _ _ compared)).mono fun _ _ isLoose => isLoose.2

theorem submitRequest_kept (sound : Faultless around) : Kept (fun _ => False) (client.submitRequest around mode) := by
  obtain ⟨registered, ready⟩ := kept.registered (@create_live mode .callback fun _ => by simp) rfl
  exact (doRequest_redone registered ready sound).kept.mono fun _ _ isLoose => isLoose.1 isLoose.2

theorem startRequest_kept : Kept (fun _ => False) (client.startRequest around mode) := by
  obtain ⟨registered, ready⟩ := kept.registered (@create_live mode .waiting fun _ => by simp) rfl
  unfold startRequest
  rcases @doRequest_cases _ _ _ around registered ready with redone | ⟨-, between, code, failed, handled, ran⟩
  · have err := redone.err
    have fresh : (client.registerRequest (.create mode .waiting)).request (client.lastTid + 1) = .create mode .waiting :=
      update_self _ _ _
    have none : ((client.registerRequest (.create mode .waiting)).request (client.lastTid + 1)).err = 0 := by
      rw [fresh]
      rfl
    simp only
    rw [err, none, if_neg (by simp)]
    exact redone.kept.mono fun _ _ isLoose => isLoose.1 isLoose.2
  · have err : ((between.finish (client.lastTid + 1) code).request (client.lastTid + 1)).err = code :=
      congrArg MdsRequest.err setReq_same
    simp only
    rw [ran, err, if_pos failed]
    have gone := @unregisterRequest_gone between (client.lastTid + 1) handled.kept.tidy
    have unregistered := handled.kept.unregistered handled.ready.unlinked
    have settled := @Kept.mono _ _ (fun _ => False) unregistered fun _ _ isLoose => isLoose.1 (or_self_iff.mp isLoose.2)
    exact (@Kept.outside _ _ _ settled gone fun req => { req with err := code, completed := true }).outside gone

theorem returnRequest_kept {ending : WaitEnd}
    (ran : client.returnRequest tid ending = .ok after) : Kept (fun _ => False) after := by
  obtain ⟨_, passed, done⟩ := ok_of_bind ran
  have enabled := not_of_haltIf passed
  rw [not_or, not_and_or, not_not, not_not] at enabled
  cases done
  have waiting := enabled.1
  refine kept.change _ ?_ ?_ ?_ ?_
  · split_ifs <;> rfl
  · split_ifs <;> rfl
  · intro listed live
    have notAborted := live.waits waiting
    split
    · next got =>
      have isUnsafe : (client.request tid).gotUnsafe = true := by
        by_contra fresh
        rw [(live.unanswered (by simpa using fresh)).1] at got
        cases got
      refine ⟨live.unsafed, live.errs, live.aborts, live.unanswered, live.result, live.completes, ?_, by simp⟩
      intro err returned
      cases returned
      exact live.result isUnsafe
    split
    · next interrupted =>
      exact ⟨live.unsafed, fun _ => rfl, fun _ => interrupted.ne, live.unanswered, live.result, fun _ => .inr rfl,
        by simp, by simp⟩
    · next got uninterrupted =>
      have ended : ending = .completed := by
        cases ending with
        | completed => rfl
        | timedOut => exact absurd (by decide) uninterrupted
        | killed => exact absurd (by decide) uninterrupted
      rcases live.completes (enabled.2.resolve_left (not_not.mpr ended)) with result | aborted
      · exact absurd result got
      · rw [notAborted] at aborted
        cases aborted
  · intro other _ sent
    split_ifs <;> exact sent

theorem fillReply_kept {err : Int} (sound : tid ∈ client.requestTree → (client.request tid).aborted = false → err = 0)
    (ran : client.fillReply tid err = .ok after) : Kept (fun _ => False) after := by
  obtain ⟨_, passed, done⟩ := ok_of_bind ran
  have filling := not_not.mp (not_of_haltIf passed)
  cases done
  refine kept.change _ ?_ ?_ ?_ ?_
  · dsimp only
    split_ifs <;> rfl
  · dsimp only
    split_ifs <;> rfl
  · intro listed live
    have isUnsafe : (client.request tid).gotUnsafe = true := by
      by_contra fresh
      rw [(live.unanswered (by simpa using fresh)).2.1] at filling
      cases filling
    split
    · next aborted =>
      exact ⟨live.unsafed, live.errs, live.aborts, fun fresh => absurd (isUnsafe.symm.trans fresh) (by simp),
        live.result, fun _ => .inr aborted, live.returned, live.waits⟩
    · next running =>
      rw [if_neg (by rw [sound listed (by simpa using running)]; simp)]
      exact ⟨live.unsafed, live.errs, live.aborts, fun fresh => absurd (isUnsafe.symm.trans fresh) (by simp),
        live.result, fun _ => .inl rfl, live.returned, live.waits⟩
  · intro other _ sent
    split_ifs <;> exact sent

theorem Kept.removed (unlinked : ¬ client.Linked tid)
    (change : MdsRequest → MdsRequest) : Kept (fun _ => False) ((client.setReq tid change).unregisterRequest tid) := by
  have unregistered := @Kept.mono _ _ (fun _ => False) (kept.unregistered unlinked) fun _ _ isLoose => isLoose.2
  exact @Kept.outside _ _ _ unregistered (unregisterRequest_gone kept.tidy) change

theorem Kept.handled (ready : client.Ready tid) : Handled tid (fun _ => False) client client :=
  ⟨kept.mono fun _ _ => False.elim, ready, .of_fields rfl rfl rfl rfl rfl rfl rfl, rfl⟩

end

theorem Handled.resent (handled : Handled tid (fun _ => False) before client) (sound : Faultless around) :
    Kept (fun _ => False) (client.doRequest around tid) :=
  (doRequest_redone handled.kept handled.ready sound).kept.mono fun _ _ isLoose =>
    isLoose.2.elim isLoose.1 False.elim

theorem Kept.unlinkUnsafe (kept : Kept loose client) : Kept loose (client.unlinkUnsafe tid) := by
  refine kept.of_same ?_ ⟨kept.tidy.treeOnce, kept.tidy.mapOnce, kept.tidy.once, kept.tidy.table⟩
  refine ⟨fun _ _ => rfl, fun _ _ => Iff.rfl, fun _ _ => Iff.rfl, fun _ _ _ member => member,
    fun _ _ _ _ member => member, ?_, fun _ _ found => found, fun _ _ => rfl, le_rfl, le_rfl⟩
  intro other id _ member
  exact (List.mem_filter.mp member).1

/-- The first, unsafe reply to a request. -/
theorem Kept.replied {result : Int} (kept : Kept (fun _ => False) client) (ready : client.Ready tid)
    (bound : (client.request tid).session = some id) (success : 0 ≤ result) :
    Kept (fun _ => False)
      ((client.setSession id fun session => { session with unsafeList := session.unsafeList ++ [tid] }).setReq tid
        fun req => { req with gotUnsafe := true, result := result, filling := true }) := by
  have fits := kept.fits tid
  have tidy := kept.tidy
  have noted : ∀ other, ((client.setSession id fun session =>
      { session with unsafeList := session.unsafeList ++ [tid] }).session other).waiting = (client.session other).waiting ∧
      ((client.setSession id fun session =>
        { session with unsafeList := session.unsafeList ++ [tid] }).session other).mds = (client.session other).mds ∧
      ∀ member, member ∈ ((client.setSession id fun session =>
        { session with unsafeList := session.unsafeList ++ [tid] }).session other).unsafeList →
          member ∈ (client.session other).unsafeList ∨ other = id ∧ member = tid := by
    intro other
    by_cases same : other = id
    · subst same
      simp [setSession]
    · simp [setSession, same]
  have apart : Apart (· = tid) client
      ((client.setSession id fun session => { session with unsafeList := session.unsafeList ++ [tid] }).setReq tid
        fun req => { req with gotUnsafe := true, result := result, filling := true }) := by
    refine ⟨fun _ differs => update_of_ne differs _ _, fun _ _ => Iff.rfl, fun _ _ => Iff.rfl, ?_, ?_, ?_,
      fun _ _ found => found, fun other _ => (noted other).2.1, le_rfl, le_rfl⟩
    · intro member other _ waits
      rwa [← (noted other).1]
    · intro member other _ _ waits
      exact (noted other).1.symm ▸ waits
    · intro member other differs replays
      exact ((noted other).2.2 member replays).resolve_right fun same => differs same.2
  refine kept.of_apart apart ⟨tidy.treeOnce, tidy.mapOnce, ?_, ?_⟩ ?_ ?_ fun _ _ => False.elim
  · intro other
    exact (noted other).1.symm ▸ tidy.once other
  · intro mds other found
    exact (noted other).2.1.symm ▸ tidy.table mds other found
  · rintro _ rfl
    obtain ⟨below, live⟩ := fits.live ready.listed
    obtain ⟨noResult, noFill, incomplete⟩ := live.unanswered ready.fresh
    refine ⟨fun member => absurd (.inl member) ready.unlinked, ?_, ?_, ?_⟩
    · intro other member
      exact absurd (.inr ⟨other, (noted other).1 ▸ member⟩) ready.unlinked
    · intro other member
      rw [setReq_same]
      rcases (noted other).2.2 _ member with old | ⟨rfl, -⟩
      · exact absurd old (fits.not_replayed ready.listed ready.fresh)
      · exact ⟨below, fun _ => ⟨bound, rfl⟩⟩
    · intro _
      rw [setReq_same]
      exact ⟨below, live.unsafed, live.errs, live.aborts, fun fresh => absurd fresh (by simp), fun _ => success,
        fun completed => absurd (incomplete.symm.trans completed) (by simp), live.returned, live.waits⟩
  · rintro _ rfl member
    rcases kept.placed _ member with never | waits | ⟨other, registered, session, sent, unsafed⟩
    · exact never.elim
    · exact absurd waits.linked ready.unlinked
    · refine .inr (.inr ⟨other, registered, ?_⟩)
      rw [setReq_same]
      exact ⟨session, sent, unsafed⟩

theorem doRequest_aborted (failed : (client.request tid).err ≠ 0) (aborted : (client.request tid).aborted = true) :
    client.doRequest around tid = { client with calls := client.calls + 1 }.unregisterRequest tid := by
  unfold doRequest
  simp only
  rw [if_pos (.inl failed), if_pos aborted]

theorem handleReply_kept {head : ReplyHead} {auth : Int} (kept : Kept (fun _ => False) client)
    (sound : client.ignoresReply id tid head ∨ client.SoundReply around id tid head auth) :
    Kept (fun _ => False) (client.handleReply around id tid (some head) auth) := by
  unfold handleReply
  simp only
  split
  · exact kept
  next acts =>
  obtain ⟨unlinked, sound⟩ := sound.resolve_left acts
  unfold ignoresReply at acts
  simp only [not_or, not_not, not_and, Bool.not_eq_true] at acts
  obtain ⟨listed, bound, duplicate, unsafed⟩ := acts
  have fits := kept.fits tid
  have live := (fits.live listed).2
  split at sound
  · next stale =>
    rw [if_pos stale]
    by_cases replied : (client.request tid).gotUnsafe = true
    · have aborted := sound.2 replied
      have failed := live.aborts aborted
      rw [doRequest_aborted (by rw [setReq_same]; exact failed) (by rw [setReq_same]; exact aborted)]
      have removed := kept.removed unlinked fun req => { req with resendMds := -1, directMode := .authMds, sentOn := none }
      exact removed.of_fields rfl rfl rfl rfl rfl rfl rfl
    · exact ((kept.handled ⟨listed, unlinked, by simpa using replied⟩).setReq _ .moved rfl rfl).resent sound.1
  next fresh =>
  rw [if_neg fresh]
  have hinted : Kept (fun _ => False) (client.setReq tid fun req =>
      if head.result = -estale then { req with resendMds := -1 } else req) := by
    refine kept.change _ ?_ ?_ ?_ ?_
    · split <;> rfl
    · split <;> rfl
    · intro _ live
      split
      · exact live.moved
      · exact live
    · intro other _ sent
      split <;> exact sent
  have hintedReq : ((client.setReq tid fun req =>
      if head.result = -estale then { req with resendMds := -1 } else req).request tid).gotUnsafe =
        (client.request tid).gotUnsafe ∧
      ((client.setReq tid fun req =>
        if head.result = -estale then { req with resendMds := -1 } else req).request tid).session = some id := by
    rw [setReq_same]
    split
    · exact ⟨rfl, bound⟩
    · exact ⟨rfl, bound⟩
  cases safe : head.safe with
  | true =>
    have removed := hinted.removed unlinked fun req => { req with gotSafe := true }
    rw [if_pos rfl]
    by_cases replied : ((client.setReq tid fun req =>
        if head.result = -estale then { req with resendMds := -1 } else req).request tid).gotUnsafe = true
    · rw [if_pos replied]
      exact removed.unlinkUnsafe
    · rw [if_neg replied]
      exact removed.outside (unregisterRequest_gone (setReq_tidy hinted.tidy))
  | false =>
    have fresh : (client.request tid).gotUnsafe = false := by
      by_contra replied
      exact duplicate (by simpa using replied) safe
    exact hinted.replied ⟨listed, unlinked, hintedReq.1.trans fresh⟩ hintedReq.2 (sound safe)

theorem handleForward_kept {nextMds : BitVec 32} {fwdSeq : Nat} (kept : Kept (fun _ => False) client)
    (sound : tid ∈ client.requestTree → (client.request tid).aborted = true ∨ (client.request tid).numFwd < fwdSeq →
      ¬ client.Linked tid ∧
        ((client.request tid).aborted = false → Faultless around ∧ (client.request tid).gotUnsafe = false))
    (ran : client.handleForward around tid nextMds fwdSeq = .ok after) : Kept (fun _ => False) after := by
  unfold handleForward at ran
  simp only at ran
  split at ran
  · cases ran
    exact kept
  next listed =>
  rw [not_not] at listed
  split at ran
  · next aborted =>
    cases ran
    exact (kept.unregistered (sound listed (.inl aborted)).1).mono fun _ _ isLoose => isLoose.2
  next running =>
  split at ran
  · cases ran
    exact kept
  next later =>
  obtain ⟨_, -, done⟩ := ok_of_bind ran
  cases done
  obtain ⟨unlinked, resends⟩ := sound listed (.inr (not_le.mp later))
  obtain ⟨sound, fresh⟩ := resends (by simpa using running)
  have hinted := (kept.handled ⟨listed, unlinked, fresh⟩).setReq
    (fun req => { req with numFwd := fwdSeq, resendMds := nextMds.toInt }) .moved rfl rfl
  exact (hinted.setReq (fun req => { req with session := none, sentOn := none }) .moved rfl rfl).resent sound

end

end MdsClient

section

variable {client after : MdsClient}

theorem MdsCall.kept {call : MdsCall} (sound : call.Sound client) (kept : client.Kept fun _ => False)
    (ran : call.run client = .ok after) : after.Kept fun _ => False := by
  have started : MdsClient.Kept (fun _ => False) { client with calls := 0 } := kept.of_fields rfl rfl rfl rfl rfl rfl rfl
  cases call with
  | submit around mode =>
    cases ran
    exact MdsClient.submitRequest_kept started sound
  | start around mode =>
    cases ran
    exact MdsClient.startRequest_kept started
  | wait tid ending => exact MdsClient.returnRequest_kept started ran
  | reply around id tid head auth =>
    cases ran
    cases head with
    | none => exact started
    | some head => exact MdsClient.handleReply_kept started sound
  | fill tid err => exact MdsClient.fillReply_kept started sound ran
  | forward around tid nextMds fwdSeq => exact MdsClient.handleForward_kept started sound ran
  | session around id op => exact MdsClient.handleSession_kept started sound.1 sound.2 ran
  | map around reconnects noMemory epoch newmap => exact MdsClient.handleMap_kept started sound.1 sound.2 ran
  | hang id =>
    cases ran
    split
    · exact started.setState
    · exact started
  | close id =>
    cases ran
    exact started.closeSession
  | stop =>
    cases ran
    exact started.of_fields rfl rfl rfl rfl rfl rfl rfl

theorem init_kept : MdsClient.init.Kept fun _ => False where
  tidy := ⟨nodup_nil, nodup_nil, fun _ => nodup_nil, fun _ _ found => by cases found⟩
  fits tid := ⟨fun member => absurd member not_mem_nil, fun _ member => absurd member not_mem_nil,
    fun _ member => absurd member not_mem_nil, fun member => absurd member not_mem_nil⟩
  placed tid member := absurd member not_mem_nil

theorem kept_preserved : Preserves MdsCall.run MdsCall.Sound (MdsClient.Kept fun _ => False) :=
  fun _ _ _ sound kept ran => MdsCall.kept sound kept ran

/-- In a run whose steps are sound no request is forgotten. -/
theorem requests_remembered (reached : Reached MdsCall.run MdsCall.Sound .init client) : client.Remembered := by
  have kept := reached.preserved kept_preserved init_kept
  refine ⟨fun tid member => (kept.placed tid member).resolve_left not_false, ?_⟩
  intro tid err returned failed member
  have success := ((kept.fits tid).live member).2.returned err returned
  exact absurd failed (not_lt.mpr success)

end

def calm : Nat → Surroundings :=
  fun _ => { choice := 0, fault := none }

def oneMds : MdsMap where
  epoch := 1
  info := [{ state := MdsMap.stateActive, addr := 7, laggy := false, exportTargets := [] }]

def gotMap : MdsCall :=
  .map calm (fun _ => .sent) (fun _ _ => false) 1 oneMds

def unsafeReply : MdsCall :=
  .reply calm 0 1 (some { safe := false, result := 0 }) 0

def MdsCall.after (call : MdsCall) (client : MdsClient) : MdsClient :=
  match call.run client with
  | .ok after => after
  | .error _ => client

def sentClient : MdsClient :=
  (MdsCall.session calm 0 .opened).after ((MdsCall.start calm .anyMds).after (gotMap.after .init))

def repliedClient : MdsClient :=
  (MdsCall.fill 1 0).after (unsafeReply.after sentClient)

theorem sentClient_started {allowed : MdsCall → MdsClient → Prop} (gets : allowed gotMap .init)
    (starts : allowed (.start calm .anyMds) (gotMap.after .init))
    (opens : allowed (.session calm 0 .opened) ((MdsCall.start calm .anyMds).after (gotMap.after .init))) :
    Reached MdsCall.run allowed .init sentClient :=
  ((Reached.start.next gotMap gets rfl).next (.start calm .anyMds) starts rfl).next (.session calm 0 .opened) opens rfl

theorem sentClient_reached : Reached MdsCall.run MdsCall.Sound .init sentClient :=
  have calmly : Faultless calm := fun _ => rfl
  sentClient_started ⟨calmly, trivial⟩ trivial ⟨calmly, fun closes => by cases closes⟩

theorem sentClient_unlinked : ¬ sentClient.Linked 1 := by
  have fits := (sentClient_reached.preserved kept_preserved init_kept).fits 1
  rintro (onMap | ⟨id, member⟩)
  · exact absurd onMap (by decide)
  · have bound := (fits.waits id member).2.1
    have isZero : id = 0 := Option.some.inj (bound.symm.trans (rfl : (sentClient.request 1).session = some 0))
    subst isZero
    exact absurd member (by decide)

theorem requests_remembered_replied :
    ∃ client, Reached MdsCall.run MdsCall.Sound .init client ∧ client.requestTree = [1] ∧
      (client.request 1).issuer = .returned 0 false ∧ client.Remembered := by
  have replied : Reached MdsCall.run MdsCall.Sound .init repliedClient := by
    refine (sentClient_reached.next unsafeReply (.inr ⟨sentClient_unlinked, ?_⟩) rfl).next (.fill 1 0) (fun _ _ => rfl) rfl
    rw [if_neg (by decide)]
    exact fun _ => le_rfl
  have returned := replied.next (.wait 1 .completed) trivial rfl
  exact ⟨_, returned, rfl, rfl, requests_remembered returned⟩

/-- The mds closes the session before the safe reply, or no message can be made when the session opens. -/
theorem requests_forgotten :
    (∃ client, Reached MdsCall.run (fun _ _ => True) .init client ∧ 1 ∈ client.requestTree ∧ ¬ client.Placed 1) ∧
      ∃ client, Reached MdsCall.run (fun _ _ => True) .init client ∧ 1 ∈ client.requestTree ∧
        (client.request 1).issuer = .returned (-12) false := by
  have started : Reached MdsCall.run (fun _ _ => True) .init ((MdsCall.start calm .anyMds).after (gotMap.after .init)) :=
    (Reached.start.next gotMap trivial rfl).next (.start calm .anyMds) trivial rfl
  constructor
  · have replied : Reached MdsCall.run (fun _ _ => True) .init repliedClient :=
      ((started.next (.session calm 0 .opened) trivial rfl).next unsafeReply trivial rfl).next (.fill 1 0) trivial rfl
    refine ⟨(MdsCall.session calm 0 .close).after repliedClient, replied.next (.session calm 0 .close) trivial rfl,
      by decide, ?_⟩
    have table : ∀ mds, ((MdsCall.session calm 0 .close).after repliedClient).sessions mds = none := by
      intro mds
      by_cases same : mds = 0
      · subst same
        rfl
      · change update (update (fun _ => none) 0 (some 0)) 0 none mds = none
        rw [update_of_ne same, update_of_ne same]
    rintro ((onMap | ⟨id, ⟨mds, found⟩, -⟩) | ⟨id, ⟨mds, found⟩, -⟩)
    · exact absurd onMap (by decide)
    · rw [table] at found
      cases found
    · rw [table] at found
      cases found
  · refine ⟨_, (started.next (.session (fun _ => { choice := 0, fault := some (.noMessage 12) }) 0 .opened) trivial
      rfl).next (.wait 1 .completed) trivial rfl, ?_, rfl⟩
    decide

end KmodCeph.Mds
