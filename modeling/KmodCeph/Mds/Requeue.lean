import KmodCeph.Mds.Placement

namespace KmodCeph.Mds

open Lib List

namespace MdsClient

section

variable {client before after : MdsClient} {loose : Tid → Prop} {tid : Tid} {id : SessionId}
variable {around : Nat → Surroundings}

def AllBut (tid : Tid) (loose : Tid → Prop) : Tid → Prop :=
  fun other => other ≠ tid ∧ loose other

/-- A request that has been taken from where it was, and is not anywhere yet. -/
structure Handled (tid : Tid) (loose : Tid → Prop) (before after : MdsClient) : Prop where
  kept : Kept (fun other => other = tid ∨ loose other) after
  ready : after.Ready tid
  apart : Apart (· = tid) before after
  err : (after.request tid).err = (before.request tid).err

/-- A request that `__do_request` has placed or unregistered. -/
structure Redone (tid : Tid) (loose : Tid → Prop) (before after : MdsClient) : Prop where
  kept : Kept (AllBut tid loose) after
  apart : Apart (· = tid) before after
  fresh : (after.request tid).gotUnsafe = false
  err : (after.request tid).err = (before.request tid).err

theorem Handled.same (handled : Handled tid loose before client) (apart : Apart (fun _ => False) client after)
    (tidy : after.Tidy) : Handled tid loose before after where
  kept := handled.kept.of_same apart tidy
  ready := handled.ready.of_apart apart fun never => never
  apart := handled.apart.trans (apart.mono fun _ never => never.elim)
  err := by
    rw [apart.request tid fun never => never]
    exact handled.err

theorem Handled.setReq (handled : Handled tid loose before client) (change : MdsRequest → MdsRequest)
    (live : (client.request tid).Live → (change (client.request tid)).Live)
    (fresh : (change (client.request tid)).gotUnsafe = (client.request tid).gotUnsafe)
    (err : (change (client.request tid)).err = (client.request tid).err) : Handled tid loose before (client.setReq tid change) := by
  have ready : (client.setReq tid change).Ready tid := by
    refine ⟨handled.ready.listed, handled.ready.unlinked, ?_⟩
    rw [setReq_same, fresh]
    exact handled.ready.fresh
  have fits := handled.kept.fits tid
  refine ⟨?_, ready, handled.apart.trans setReq_apart, by rw [setReq_same, err, handled.err]⟩
  refine handled.kept.of_apart setReq_apart (setReq_tidy handled.kept.tidy) ?_ ?_ fun _ _ isLoose => isLoose
  · rintro _ rfl
    obtain ⟨below, wasLive⟩ := fits.live handled.ready.listed
    refine ready.fits (fun id => fits.not_replayed handled.ready.listed handled.ready.fresh) below ?_
    rw [setReq_same]
    exact live wasLive
  · rintro _ rfl _
    exact .inl (.inl rfl)

theorem Kept.unregistered (kept : Kept loose client) (unlinked : ¬ client.Linked tid) :
    Kept (AllBut tid loose) (client.unregisterRequest tid) := by
  have gone := @unregisterRequest_gone client tid kept.tidy
  refine kept.of_apart (unregisterRequest_apart kept.tidy) (unregisterRequest_tidy kept.tidy) ?_ ?_
    fun _ differs isLoose => ⟨differs, isLoose⟩
  · rintro _ rfl
    refine ⟨fun member => absurd (.inl member) unlinked, fun id member => absurd (.inr ⟨id, member⟩) unlinked, ?_,
      fun member => absurd member gone⟩
    intro id member
    exact ⟨((kept.fits _).replays id member).1, fun member => absurd member gone⟩
  · rintro _ rfl member
    exact absurd member gone

theorem Handled.waitMap (handled : Handled tid loose before client)
    (released : (client.request tid).session = none) :
    Redone tid loose before (client.linkMap tid) := by
  have fits := handled.kept.fits tid
  have tidy := handled.kept.tidy
  have apart : Apart (· = tid) client (client.linkMap tid) := by
    refine ⟨fun _ _ => rfl, fun _ _ => Iff.rfl, ?_, fun _ _ _ member => member, fun _ _ _ _ member => member,
      fun _ _ _ member => member, fun _ _ found => found, fun _ _ => rfl, le_rfl, le_rfl⟩
    intro other differs
    simp [linkMap, differs]
  refine ⟨?_, handled.apart.trans apart, handled.ready.fresh, handled.err⟩
  refine handled.kept.of_apart apart ⟨tidy.treeOnce, ?_, tidy.once, tidy.table⟩ ?_ ?_
    fun _ differs isLoose => ⟨differs, isLoose.resolve_left differs⟩
  · exact List.nodup_cons.mpr ⟨fun member => handled.ready.unlinked (.inl member), tidy.mapOnce⟩
  · rintro _ rfl
    exact ⟨fun _ => ⟨handled.ready.listed, released, handled.ready.fresh⟩, fits.waits, fits.replays, fits.live⟩
  · rintro _ rfl _
    exact .inr (.inl (.inl mem_cons_self))

theorem setWaiting_session {waiting : List Tid} {other : SessionId} :
    ((client.setSession id fun session => { session with waiting := waiting }).session other).waiting =
        (if other = id then waiting else (client.session other).waiting) ∧
      ((client.setSession id fun session => { session with waiting := waiting }).session other).mds =
        (client.session other).mds ∧
      ((client.setSession id fun session => { session with waiting := waiting }).session other).unsafeList =
        (client.session other).unsafeList := by
  by_cases same : other = id
  · subst same
    simp [setSession]
  · simp [setSession, same]

theorem Handled.waitSession (handled : Handled tid loose before client)
    (bound : (client.request tid).session = some id) (registered : client.Registered id) :
    Redone tid loose before (client.linkSession tid id) := by
  have fits := handled.kept.fits tid
  have tidy := handled.kept.tidy
  have linked : (client.linkSession tid id).session =
      (client.setSession id fun session => { session with waiting := tid :: (client.session id).waiting }).session := rfl
  have absent : ∀ other, tid ∉ (client.session other).waiting := fun other member =>
    handled.ready.unlinked (.inr ⟨other, member⟩)
  have apart : Apart (· = tid) client (client.linkSession tid id) := by
    refine ⟨fun _ _ => rfl, fun _ _ => Iff.rfl, fun _ _ => Iff.rfl, ?_, ?_, ?_, fun _ _ found => found, ?_, le_rfl,
      le_rfl⟩
    · intro other session differs member
      rw [linked, setWaiting_session.1] at member
      split at member
      · next same =>
        rw [same]
        exact (List.mem_cons.mp member).resolve_left differs
      · exact member
    · intro other session differs _ member
      rw [linked, setWaiting_session.1]
      split
      · next same => exact mem_cons_of_mem _ (same ▸ member)
      · exact member
    · intro other session _ member
      rwa [linked, setWaiting_session.2.2] at member
    · intro session _
      rw [linked]
      exact setWaiting_session.2.1
  refine ⟨?_, handled.apart.trans apart, handled.ready.fresh, handled.err⟩
  refine handled.kept.of_apart apart ⟨tidy.treeOnce, tidy.mapOnce, ?_, ?_⟩ ?_ ?_
    fun _ differs isLoose => ⟨differs, isLoose.resolve_left differs⟩
  · intro session
    rw [linked, setWaiting_session.1]
    split
    · exact List.nodup_cons.mpr ⟨absent id, tidy.once id⟩
    · exact tidy.once session
  · intro mds session found
    rw [linked, setWaiting_session.2.1]
    exact tidy.table mds session found
  · rintro _ rfl
    refine ⟨fits.mapWaits, ?_, ?_, fits.live⟩
    · intro session member
      rw [linked, setWaiting_session.1] at member
      split at member
      · next same => exact ⟨handled.ready.listed, by rw [same]; exact bound, handled.ready.fresh⟩
      · exact absurd member (absent session)
    · intro session member
      rw [linked, setWaiting_session.2.2] at member
      exact fits.replays session member
  · rintro _ rfl _
    refine .inr (.inl (.inr ⟨id, registered, ?_⟩))
    rw [linked, setWaiting_session.1, if_pos rfl]
    exact mem_cons_self

theorem Handled.send (handled : Handled tid loose before client) (bound : (client.request tid).session = some id)
    (registered : client.Registered id) :
    Redone tid loose before (client.setReq tid fun req => { req with sentOn := some id }) := by
  have live := ((handled.kept.fits tid).live handled.ready.listed).2
  obtain ⟨kept, ready, apart, err⟩ := handled.setReq (fun req => { req with sentOn := some id }) .moved rfl rfl
  refine ⟨⟨kept.tidy, kept.fits, ?_⟩, apart, ready.fresh, err⟩
  intro other member
  by_cases same : other = tid
  · subst same
    refine .inr (.inr ⟨id, registered, ?_⟩)
    rw [setReq_same]
    exact ⟨bound, rfl, live.unsafed⟩
  · exact (kept.placed other member).imp (fun isLoose => ⟨same, isLoose.resolve_left same⟩) fun placed => placed

theorem lookupOrRegister_error {mds : Nat} {noMemory : Bool} {code : Int}
    (active : MdsMap.stateActive ≤ client.mdsmap.getState mds)
    (failed : client.lookupOrRegister mds noMemory = .error code) : noMemory = true ∧ code = enomem := by
  have inside : ¬ client.mdsmap.maxMds ≤ mds := by
    intro outside
    have missing : client.mdsmap.info[mds]? = none := getElem?_eq_none outside
    rw [MdsMap.getState, missing] at active
    exact absurd active (by decide)
  unfold lookupOrRegister at failed
  split at failed
  · cases failed
  · rw [registerSession, if_neg inside] at failed
    split at failed
    · next isLow =>
      cases failed
      exact ⟨isLow, rfl⟩
    · cases failed

theorem openSession_request : (client.openSession id).request = client.request := by
  unfold openSession
  split <;> rfl

theorem openSession_sessions : (client.openSession id).sessions = client.sessions := by
  unfold openSession
  split <;> rfl

/-- A call of `__do_request` places the request, or fails for it. -/
theorem doRequest_cases (kept : Kept loose client) (ready : client.Ready tid) :
    Redone tid loose client (client.doRequest around tid) ∨ (around client.calls).fault ≠ none ∧
      ∃ between code, code ≠ 0 ∧ Handled tid loose client between ∧ client.doRequest around tid = between.finish tid code := by
  have live := ((kept.fits tid).live ready.listed).2
  have counting : Apart (fun _ => False) client { client with calls := client.calls + 1 } :=
    .of_fields rfl rfl rfl rfl rfl rfl rfl
  have tidy := kept.tidy
  have counted : Handled tid loose client { client with calls := client.calls + 1 } := by
    refine ⟨kept.of_apart counting ⟨tidy.treeOnce, tidy.mapOnce, tidy.once, tidy.table⟩ ?_ ?_ ?_,
      ready.of_apart counting fun never => never, counting.mono fun _ never => never.elim, rfl⟩
    · exact fun _ never => never.elim
    · exact fun _ never => never.elim
    · exact fun _ _ isLoose => .inr isLoose
  unfold doRequest
  simp only
  split
  · next done =>
    have failed : (client.request tid).err ≠ 0 := by
      refine done.resolve_right ?_
      rw [(live.unanswered ready.fresh).1]
      simp
    rw [if_pos (live.errs failed)]
    have unregistered := counted.kept.unregistered counted.ready.unlinked
    refine .inl ⟨⟨unregistered.tidy, unregistered.fits, ?_⟩,
      counted.apart.trans (unregisterRequest_apart counted.kept.tidy), ready.fresh, rfl⟩
    intro other member
    exact (unregistered.placed other member).imp (fun isLoose => ⟨isLoose.1, isLoose.2.resolve_left isLoose.1⟩) fun placed => placed
  split
  · next late =>
    exact .inr ⟨by simp [late], _, -eio, by decide, counted, rfl⟩
  have released := counted.setReq (fun req => { req with session := none, sentOn := none }) .moved rfl rfl
  split
  · exact .inl (released.waitMap (by rw [setReq_same]))
  next active =>
  rw [not_or, not_lt, not_lt] at active
  split
  · next code failed =>
    obtain ⟨noMemory, rfl⟩ := lookupOrRegister_error active.2 failed
    exact .inr ⟨by simp [of_decide_eq_true noMemory], _, -enomem, by decide, released, rfl⟩
  · next id registered found =>
    obtain ⟨registers, tidied, listed, requests⟩ := lookupOrRegister_apart released.kept.tidy found
    have bound := (released.same registers tidied).setReq (fun req => { req with session := some id }) .moved rfl rfl
    split
    · have hinted := bound.setReq (fun req => { req with resendMds := -1 }) .moved rfl rfl
      unfold sendRequest
      rw [if_neg (by rw [hinted.ready.fresh]; simp)]
      split
      · next code fault =>
        exact .inr ⟨by simp [fault], _, -(code : Int), by simp, hinted, rfl⟩
      · exact .inl (hinted.send (by rw [setReq_same, setReq_same]) ⟨_, listed⟩)
    · have opened := bound.same (@openSession_apart _ _ id) (openSession_tidy bound.kept.tidy)
      exact .inl (opened.waitSession (by rw [openSession_request, setReq_same])
        (by rw [Registered, openSession_sessions]; exact ⟨_, listed⟩))

theorem doRequest_redone (kept : Kept loose client) (ready : client.Ready tid) (sound : ∀ call, (around call).fault = none) :
    Redone tid loose client (client.doRequest around tid) := by
  rcases doRequest_cases kept ready with redone | ⟨fails, -⟩
  · exact redone
  · exact absurd (sound _) fails

theorem Kept.mono {loose' : Tid → Prop} (kept : Kept loose client) (more : ∀ tid ∈ client.requestTree, loose tid → loose' tid) :
    Kept loose' client where
  tidy := kept.tidy
  fits := kept.fits
  placed tid member := (kept.placed tid member).imp_left (more tid member)

theorem unlink_waiting {other : Tid} : (other ∈ (client.unlink tid).waitingForMap ↔ other ≠ tid ∧ other ∈ client.waitingForMap) ∧
    ∀ id, (other ∈ ((client.unlink tid).session id).waiting ↔ other ≠ tid ∧ other ∈ (client.session id).waiting) := by
  refine ⟨?_, fun id => ?_⟩
  · simp [unlink, and_comm]
  · simp [unlink, and_comm]

theorem Kept.unlinked (kept : Kept loose client) (listed : tid ∈ client.requestTree)
    (fresh : (client.request tid).gotUnsafe = false) : Handled tid loose client (client.unlink tid) := by
  have ready : (client.unlink tid).Ready tid := by
    refine ⟨listed, ?_, fresh⟩
    rintro (onMap | ⟨id, member⟩)
    · exact (unlink_waiting.1.mp onMap).1 rfl
    · exact ((unlink_waiting.2 id).mp member).1 rfl
  have apart : Apart (· = tid) client (client.unlink tid) := by
    refine ⟨fun _ _ => rfl, fun _ _ => Iff.rfl, ?_, ?_, ?_, fun _ _ _ member => member, fun _ _ found => found,
      fun _ _ => rfl, le_rfl, le_rfl⟩
    · intro other differs
      rw [unlink_waiting.1]
      exact and_iff_right differs
    · intro other id _ member
      exact ((unlink_waiting.2 id).mp member).2
    · intro other id differs _ member
      exact (unlink_waiting.2 id).mpr ⟨differs, member⟩
  have tidy := kept.tidy
  refine ⟨?_, ready, apart, rfl⟩
  refine kept.of_apart apart ⟨tidy.treeOnce, tidy.mapOnce.filter _, fun id => (tidy.once id).filter _, tidy.table⟩ ?_ ?_
    fun _ _ isLoose => .inr isLoose
  · rintro _ rfl
    have fits := kept.fits
    obtain ⟨below, live⟩ := (fits _).live listed
    exact ready.fits (fun id => (fits _).not_replayed listed fresh) below live
  · rintro _ rfl _
    exact .inl (.inl rfl)

theorem wakeRequests_kept (sound : ∀ call, (around call).fault = none) {tids : List Tid}
    (kept : Kept (fun tid => tid ∈ tids ∨ loose tid) client) (once : tids.Nodup) (ready : ∀ tid ∈ tids, client.Ready tid) :
    Kept (fun tid => tid ∉ tids ∧ loose tid) (wakeRequests around tids client) ∧
      Apart (· ∈ tids) client (wakeRequests around tids client) ∧
      ∀ tid ∈ tids, ((wakeRequests around tids client).request tid).gotUnsafe = false := by
  induction tids generalizing client loose with
  | nil => exact ⟨kept.mono (by simp), .of_fields rfl rfl rfl rfl rfl rfl rfl, by simp⟩
  | cons first rest ih =>
    obtain ⟨absent, once⟩ := List.nodup_cons.mp once
    obtain ⟨kept, apart, fresh, -⟩ := doRequest_redone kept (ready first mem_cons_self) sound
    have next : Kept (fun tid => tid ∈ rest ∨ AllBut first loose tid) (client.doRequest around first) := by
      refine kept.mono ?_
      rintro tid - ⟨differs, member | isLoose⟩
      · exact .inl ((List.mem_cons.mp member).resolve_left differs)
      · exact .inr ⟨differs, isLoose⟩
    obtain ⟨after, others, freshRest⟩ := ih next once fun tid member =>
      (ready tid (mem_cons_of_mem _ member)).of_apart apart (by rintro rfl; exact absent member)
    rw [wakeRequests]
    refine ⟨after.mono ?_, (apart.mono ?_).trans (others.mono ?_), ?_⟩
    · rintro tid - ⟨outside, differs, isLoose⟩
      exact ⟨by simp [differs, outside], isLoose⟩
    · rintro tid rfl
      exact mem_cons_self
    · exact fun tid member => mem_cons_of_mem _ member
    · intro tid member
      rcases List.mem_cons.mp member with rfl | member
      · rw [others.request _ absent]
        exact fresh
      · exact freshRest tid member

theorem wakeSession_kept (id : SessionId) (sound : ∀ call, (around call).fault = none) (kept : Kept loose client) :
    Kept (fun tid => tid ∉ (client.session id).waiting ∧ loose tid) (client.wakeSession around id) ∧
      Apart (· ∈ (client.session id).waiting) client (client.wakeSession around id) ∧
      ∀ tid ∈ (client.session id).waiting, ((client.wakeSession around id).request tid).gotUnsafe = false := by
  have tidy := kept.tidy
  have fits := kept.fits
  have bound : ∀ tid ∈ (client.session id).waiting, ∀ other, tid ∈ (client.session other).waiting → other = id := by
    intro tid member other member'
    have first := ((fits tid).waits id member).2.1
    have second := ((fits tid).waits other member').2.1
    rw [first] at second
    exact (Option.some.inj second).symm
  have apart : Apart (· ∈ (client.session id).waiting) client
      (client.setSession id fun session => { session with waiting := [] }) := by
    refine ⟨fun _ _ => rfl, fun _ _ => Iff.rfl, fun _ _ => Iff.rfl, ?_, ?_, ?_, fun _ _ found => found, ?_, le_rfl,
      le_rfl⟩
    · intro tid other _ member
      rw [setWaiting_session.1] at member
      split at member
      · cases member
      · exact member
    · intro tid other outside _ member
      rw [setWaiting_session.1, if_neg (by rintro rfl; exact outside member)]
      exact member
    · intro tid other _ member
      rwa [setWaiting_session.2.2] at member
    · intro other _
      exact setWaiting_session.2.1
  have ready : ∀ tid ∈ (client.session id).waiting,
      (client.setSession id fun session => { session with waiting := [] }).Ready tid := by
    intro tid member
    obtain ⟨listed, session, fresh⟩ := (fits tid).waits id member
    refine ⟨listed, ?_, fresh⟩
    rintro (onMap | ⟨other, linked⟩)
    · have none := ((fits tid).mapWaits onMap).2.1
      rw [session] at none
      cases none
    · rw [setWaiting_session.1] at linked
      split at linked
      · cases linked
      · next differs => exact differs (bound tid member other linked)
  have spliced : Kept (fun tid => tid ∈ (client.session id).waiting ∨ loose tid)
      (client.setSession id fun session => { session with waiting := [] }) := by
    refine kept.of_apart apart ⟨tidy.treeOnce, tidy.mapOnce, ?_, ?_⟩ ?_ (fun tid member _ => .inl (.inl member))
      fun tid _ isLoose => .inr isLoose
    · intro other
      rw [setWaiting_session.1]
      split
      · exact nodup_nil
      · exact tidy.once other
    · intro mds other found
      rw [setWaiting_session.2.1]
      exact tidy.table mds other found
    · intro tid member
      have listed := (ready tid member).listed
      obtain ⟨below, live⟩ := (fits tid).live listed
      refine (ready tid member).fits ?_ below live
      intro other
      rw [setWaiting_session.2.2]
      exact (fits tid).not_replayed listed (ready tid member).fresh
  obtain ⟨after, others, fresh⟩ := wakeRequests_kept sound spliced (tidy.once id) ready
  exact ⟨after, apart.trans others, fresh⟩

theorem wakeMap_kept (sound : ∀ call, (around call).fault = none) (kept : Kept loose client) :
    Kept (fun tid => tid ∉ client.waitingForMap ∧ loose tid) (client.wakeMap around) := by
  have tidy := kept.tidy
  have fits := kept.fits
  have apart : Apart (· ∈ client.waitingForMap) client { client with waitingForMap := [] } := by
    refine ⟨fun _ _ => rfl, fun _ _ => Iff.rfl, ?_, fun _ _ _ member => member, fun _ _ _ _ member => member,
      fun _ _ _ member => member, fun _ _ found => found, fun _ _ => rfl, le_rfl, le_rfl⟩
    intro tid outside
    simp [outside]
  have ready : ∀ tid ∈ client.waitingForMap, { client with waitingForMap := [] }.Ready tid := by
    intro tid member
    obtain ⟨listed, session, fresh⟩ := (fits tid).mapWaits member
    refine ⟨listed, ?_, fresh⟩
    rintro (onMap | ⟨other, linked⟩)
    · cases onMap
    · have some := ((fits tid).waits other linked).2.1
      rw [session] at some
      cases some
  have spliced : Kept (fun tid => tid ∈ client.waitingForMap ∨ loose tid) { client with waitingForMap := [] } := by
    refine kept.of_apart apart ⟨tidy.treeOnce, nodup_nil, tidy.once, tidy.table⟩ ?_
      (fun tid member _ => .inl (.inl member)) fun tid _ isLoose => .inr isLoose
    intro tid member
    have listed := (ready tid member).listed
    obtain ⟨below, live⟩ := (fits tid).live listed
    exact (ready tid member).fits (fun other => (fits tid).not_replayed listed (ready tid member).fresh) below live
  exact (wakeRequests_kept sound spliced tidy.mapOnce ready).1

def Strands (client : MdsClient) (mds : Nat) (tid : Tid) : Prop :=
  (client.request tid).gotUnsafe = false ∧
    ∃ id < client.nextSession, (client.request tid).session = some id ∧ (client.session id).mds = mds

theorem Strands.of_apart {changed : Tid → Prop} {mds : Nat} (strands : before.Strands mds tid)
    (apart : Apart changed before after) (same : ¬ changed tid) : after.Strands mds tid := by
  obtain ⟨fresh, id, below, session, isMds⟩ := strands
  rw [Strands, apart.request tid same]
  exact ⟨fresh, id, below.trans_le apart.next, session, (apart.mds id below).trans isMds⟩

theorem kickAll_kept (sound : ∀ call, (around call).fault = none) {mds : Nat} {tids : List Tid}
    (kept : Kept (fun tid => tid ∈ tids ∧ loose tid) client) (once : tids.Nodup)
    (listed : ∀ tid ∈ tids, tid ∈ client.requestTree) (strands : ∀ tid ∈ tids, loose tid → client.Strands mds tid) :
    Kept (fun _ => False) (kickAll around mds tids client) := by
  induction tids generalizing client with
  | nil => exact kept.mono (by simp)
  | cons first rest ih =>
    obtain ⟨absent, once⟩ := List.nodup_cons.mp once
    rw [kickAll]
    split
    · next found =>
      have handled := kept.unlinked (listed first mem_cons_self) (by simpa using found.1)
      obtain ⟨kept, apart, -, -⟩ := doRequest_redone handled.kept handled.ready sound
      have frame := handled.apart.trans apart
      have others : ∀ tid ∈ rest, tid ≠ first := fun tid member same => absent (same ▸ member)
      refine ih (kept.mono ?_) once ?_ ?_
      · rintro tid - ⟨differs, same | ⟨member, isLoose⟩⟩
        · exact absurd same differs
        · exact ⟨(List.mem_cons.mp member).resolve_left differs, isLoose⟩
      · intro tid member
        exact (frame.tree tid (others tid member)).mpr (listed tid (mem_cons_of_mem _ member))
      · intro tid member isLoose
        exact (strands tid (mem_cons_of_mem _ member) isLoose).of_apart frame (others tid member)
    · next skipped =>
      refine ih (kept.mono ?_) once (fun tid member => listed tid (mem_cons_of_mem _ member))
        fun tid member => strands tid (mem_cons_of_mem _ member)
      rintro tid - ⟨member, isLoose⟩
      rcases List.mem_cons.mp member with rfl | member
      · obtain ⟨fresh, id, -, session, isMds⟩ := strands _ mem_cons_self isLoose
        exact absurd ⟨by simp [fresh], by simp [session, isMds]⟩ skipped
      · exact ⟨member, isLoose⟩

theorem kickRequests_kept (sound : ∀ call, (around call).fault = none) {mds : Nat} (kept : Kept loose client)
    (strands : ∀ tid ∈ client.requestTree, loose tid → client.Strands mds tid) :
    Kept (fun _ => False) (client.kickRequests around mds) := by
  refine @kickAll_kept client loose around sound mds _ ?_ kept.tidy.treeOnce (fun _ member => member) strands
  exact ⟨kept.tidy, kept.fits, fun tid member => (kept.placed tid member).imp_left fun isLoose => ⟨member, isLoose⟩⟩

end

end MdsClient

end KmodCeph.Mds
