import KmodCeph.Mds.Client

namespace KmodCeph.Mds

open Lib Function

namespace MdsClient

def Registered (client : MdsClient) (id : SessionId) : Prop :=
  ∃ mds, client.sessions mds = some id

def Linked (client : MdsClient) (tid : Tid) : Prop :=
  tid ∈ client.waitingForMap ∨ ∃ id, tid ∈ (client.session id).waiting

def Waits (client : MdsClient) (tid : Tid) : Prop :=
  tid ∈ client.waitingForMap ∨ ∃ id, client.Registered id ∧ tid ∈ (client.session id).waiting

def Awaits (client : MdsClient) (tid : Tid) : Prop :=
  ∃ id, client.Registered id ∧ (client.request tid).session = some id ∧ (client.request tid).sentOn = some id ∧
    (client.request tid).gotSafe = false

def Placed (client : MdsClient) (tid : Tid) : Prop :=
  client.Waits tid ∨ client.Awaits tid

end MdsClient

structure MdsRequest.Live (req : MdsRequest) : Prop where
  unsafed : req.gotSafe = false
  errs : req.err ≠ 0 → req.aborted = true
  aborts : req.aborted = true → req.err ≠ 0
  unanswered : req.gotUnsafe = false → req.gotResult = false ∧ req.filling = false ∧ req.completed = false
  result : req.gotUnsafe = true → 0 ≤ req.result
  completes : req.completed = true → req.gotResult = true ∨ req.aborted = true
  returned : ∀ err, req.issuer = .returned err false → 0 ≤ err
  waits : req.issuer = .waiting → req.aborted = false

theorem MdsRequest.Live.moved {req : MdsRequest} {mode : DirectMode} {hint : Int} {numFwd : Nat}
    {session sentOn : Option SessionId} (live : req.Live) :
    ({ req with directMode := mode, resendMds := hint, numFwd := numFwd, session := session, sentOn := sentOn } :
      MdsRequest).Live :=
  ⟨live.unsafed, live.errs, live.aborts, live.unanswered, live.result, live.completes, live.returned, live.waits⟩

namespace MdsClient

structure Fits (client : MdsClient) (tid : Tid) : Prop where
  mapWaits : tid ∈ client.waitingForMap →
    tid ∈ client.requestTree ∧ (client.request tid).session = none ∧ (client.request tid).gotUnsafe = false
  waits : ∀ id, tid ∈ (client.session id).waiting →
    tid ∈ client.requestTree ∧ (client.request tid).session = some id ∧ (client.request tid).gotUnsafe = false
  replays : ∀ id, tid ∈ (client.session id).unsafeList → tid ≤ client.lastTid ∧
    (tid ∈ client.requestTree → (client.request tid).session = some id ∧ (client.request tid).gotUnsafe = true)
  live : tid ∈ client.requestTree → tid ≤ client.lastTid ∧ (client.request tid).Live

structure Tidy (client : MdsClient) : Prop where
  treeOnce : client.requestTree.Nodup
  mapOnce : client.waitingForMap.Nodup
  once : ∀ id, (client.session id).waiting.Nodup
  table : ∀ mds id, client.sessions mds = some id → (client.session id).mds = mds ∧ id < client.nextSession

/-- Every request of the tree is placed, but for the loose ones. -/
structure Kept (loose : Tid → Prop) (client : MdsClient) : Prop where
  tidy : client.Tidy
  fits : ∀ tid, client.Fits tid
  placed : ∀ tid ∈ client.requestTree, loose tid ∨ client.Placed tid

structure Apart (changed : Tid → Prop) (before after : MdsClient) : Prop where
  request : ∀ tid, ¬ changed tid → after.request tid = before.request tid
  tree : ∀ tid, ¬ changed tid → (tid ∈ after.requestTree ↔ tid ∈ before.requestTree)
  mapWaits : ∀ tid, ¬ changed tid → (tid ∈ after.waitingForMap ↔ tid ∈ before.waitingForMap)
  waits : ∀ tid id, ¬ changed tid → tid ∈ (after.session id).waiting → tid ∈ (before.session id).waiting
  keeps : ∀ tid id, ¬ changed tid → id < before.nextSession → tid ∈ (before.session id).waiting →
    tid ∈ (after.session id).waiting
  replays : ∀ tid id, ¬ changed tid → tid ∈ (after.session id).unsafeList → tid ∈ (before.session id).unsafeList
  sessions : ∀ mds id, before.sessions mds = some id → after.sessions mds = some id
  mds : ∀ id < before.nextSession, (after.session id).mds = (before.session id).mds
  next : before.nextSession ≤ after.nextSession
  lastTid : before.lastTid ≤ after.lastTid

end MdsClient

section

variable {client before between after : MdsClient} {changed : Tid → Prop} {loose loose' : Tid → Prop} {tid : Tid}
variable {id : SessionId}

namespace MdsClient

theorem Waits.linked (waits : client.Waits tid) : client.Linked tid := by
  rcases waits with onMap | ⟨id, -, member⟩
  · exact .inl onMap
  · exact .inr ⟨id, member⟩

theorem Apart.trans (first : Apart changed before between) (second : Apart changed between after) :
    Apart changed before after where
  request tid same := (second.request tid same).trans (first.request tid same)
  tree tid same := (second.tree tid same).trans (first.tree tid same)
  mapWaits tid same := (second.mapWaits tid same).trans (first.mapWaits tid same)
  waits tid id same member := first.waits tid id same (second.waits tid id same member)
  keeps tid id same old member :=
    second.keeps tid id same (old.trans_le first.next) (first.keeps tid id same old member)
  replays tid id same member := first.replays tid id same (second.replays tid id same member)
  sessions mds id found := second.sessions mds id (first.sessions mds id found)
  mds id old := (second.mds id (old.trans_le first.next)).trans (first.mds id old)
  next := first.next.trans second.next
  lastTid := first.lastTid.trans second.lastTid

theorem Apart.mono {changed' : Tid → Prop} (apart : Apart changed before after)
    (more : ∀ tid, changed tid → changed' tid) : Apart changed' before after where
  request tid same := apart.request tid fun change => same (more tid change)
  tree tid same := apart.tree tid fun change => same (more tid change)
  mapWaits tid same := apart.mapWaits tid fun change => same (more tid change)
  waits tid id same := apart.waits tid id fun change => same (more tid change)
  keeps tid id same := apart.keeps tid id fun change => same (more tid change)
  replays tid id same := apart.replays tid id fun change => same (more tid change)
  sessions := apart.sessions
  mds := apart.mds
  next := apart.next
  lastTid := apart.lastTid

theorem Apart.linked (apart : Apart changed before after) (same : ¬ changed tid) (linked : after.Linked tid) :
    before.Linked tid := by
  rcases linked with onMap | ⟨id, member⟩
  · exact .inl ((apart.mapWaits tid same).mp onMap)
  · exact .inr ⟨id, apart.waits tid id same member⟩

theorem Apart.registered (apart : Apart changed before after) (registered : before.Registered id) :
    after.Registered id := by
  obtain ⟨mds, found⟩ := registered
  exact ⟨mds, apart.sessions mds id found⟩

theorem Apart.fits (apart : Apart changed before after) (same : ¬ changed tid) (fits : before.Fits tid) :
    after.Fits tid := by
  refine ⟨?_, ?_, ?_, ?_⟩
  · intro member
    rw [apart.request tid same, apart.tree tid same]
    exact fits.mapWaits ((apart.mapWaits tid same).mp member)
  · intro id member
    rw [apart.request tid same, apart.tree tid same]
    exact fits.waits id (apart.waits tid id same member)
  · intro id member
    rw [apart.request tid same, apart.tree tid same]
    obtain ⟨below, replayed⟩ := fits.replays id (apart.replays tid id same member)
    exact ⟨below.trans apart.lastTid, replayed⟩
  · intro member
    obtain ⟨below, live⟩ := fits.live ((apart.tree tid same).mp member)
    rw [apart.request tid same]
    exact ⟨below.trans apart.lastTid, live⟩

theorem Apart.placed (apart : Apart changed before after) (tidy : before.Tidy) (same : ¬ changed tid)
    (placed : before.Placed tid) : after.Placed tid := by
  rcases placed with (onMap | ⟨id, ⟨mds, found⟩, member⟩) | ⟨id, registered, sent⟩
  · exact .inl (.inl ((apart.mapWaits tid same).mpr onMap))
  · exact .inl (.inr ⟨id, ⟨mds, apart.sessions mds id found⟩,
      apart.keeps tid id same (tidy.table mds id found).2 member⟩)
  · refine .inr ⟨id, apart.registered registered, ?_⟩
    rw [apart.request tid same]
    exact sent

theorem Kept.of_apart (kept : Kept loose before) (apart : Apart changed before after) (tidy : after.Tidy)
    (fits : ∀ tid, changed tid → after.Fits tid)
    (placed : ∀ tid, changed tid → tid ∈ after.requestTree → loose' tid ∨ after.Placed tid)
    (less : ∀ tid, ¬ changed tid → loose tid → loose' tid) : Kept loose' after := by
  refine ⟨tidy, ?_, ?_⟩
  · intro tid
    by_cases change : changed tid
    · exact fits tid change
    · exact apart.fits change (kept.fits tid)
  · intro tid member
    by_cases change : changed tid
    · exact placed tid change member
    · rcases kept.placed tid ((apart.tree tid change).mp member) with isLoose | isPlaced
      · exact .inl (less tid change isLoose)
      · exact .inr (apart.placed kept.tidy change isPlaced)

theorem Kept.of_same (kept : Kept loose before) (apart : Apart (fun _ => False) before after) (tidy : after.Tidy) :
    Kept loose after :=
  kept.of_apart apart tidy (fun _ change => change.elim) (fun _ change => change.elim) fun _ _ isLoose => isLoose

theorem Apart.of_fields (requestTree : after.requestTree = before.requestTree) (lastTid : after.lastTid = before.lastTid)
    (request : after.request = before.request) (waitingForMap : after.waitingForMap = before.waitingForMap)
    (sessions : after.sessions = before.sessions) (session : after.session = before.session)
    (nextSession : after.nextSession = before.nextSession) : Apart changed before after := by
  refine ⟨?_, ?_, ?_, ?_, ?_, ?_, ?_, ?_, nextSession.ge, lastTid.ge⟩
  · intro tid _
    rw [request]
  · intro tid _
    rw [requestTree]
  · intro tid _
    rw [waitingForMap]
  · intro tid id _ member
    rwa [session] at member
  · intro tid id _ _ member
    rwa [session]
  · intro tid id _ member
    rwa [session] at member
  · intro mds id found
    rwa [sessions]
  · intro id _
    rw [session]

variable {change : MdsRequest → MdsRequest} {state : SessionState}

theorem setReq_apart : Apart (· = tid) client (client.setReq tid change) := by
  refine ⟨?_, fun _ _ => Iff.rfl, fun _ _ => Iff.rfl, fun _ _ _ member => member, fun _ _ _ _ member => member,
    fun _ _ _ member => member, fun _ _ found => found, fun _ _ => rfl, le_rfl, le_rfl⟩
  intro other differs
  exact update_of_ne differs _ _

theorem setReq_tidy (tidy : client.Tidy) : (client.setReq tid change).Tidy :=
  ⟨tidy.treeOnce, tidy.mapOnce, tidy.once, tidy.table⟩

theorem setReq_same : (client.setReq tid change).request tid = change (client.request tid) :=
  update_self _ _ _

theorem setState_session {other : SessionId} :
    ((client.setState id state).session other).mds = (client.session other).mds ∧
      ((client.setState id state).session other).waiting = (client.session other).waiting ∧
      ((client.setState id state).session other).unsafeList = (client.session other).unsafeList := by
  by_cases same : other = id
  · subst same
    simp [setState, setSession]
  · simp [setState, setSession, update_of_ne same]

theorem setState_apart : Apart changed client (client.setState id state) := by
  refine ⟨fun _ _ => rfl, fun _ _ => Iff.rfl, fun _ _ => Iff.rfl, ?_, ?_, ?_, fun _ _ found => found, ?_, le_rfl,
    le_rfl⟩
  · intro tid other _ member
    rwa [setState_session.2.1] at member
  · intro tid other _ _ member
    rwa [setState_session.2.1]
  · intro tid other _ member
    rwa [setState_session.2.2] at member
  · intro other _
    exact setState_session.1

theorem setState_tidy (tidy : client.Tidy) : (client.setState id state).Tidy := by
  refine ⟨tidy.treeOnce, tidy.mapOnce, ?_, ?_⟩
  · intro other
    rw [setState_session.2.1]
    exact tidy.once other
  · intro mds other found
    rw [setState_session.1]
    exact tidy.table mds other found

theorem openSession_apart : Apart changed client (client.openSession id) := by
  unfold openSession
  split
  · exact setState_apart
  · exact setState_apart
  · exact .of_fields rfl rfl rfl rfl rfl rfl rfl

theorem openSession_tidy (tidy : client.Tidy) : (client.openSession id).Tidy := by
  unfold openSession
  split
  · exact setState_tidy tidy
  · exact setState_tidy tidy
  · exact tidy

theorem lookupOrRegister_apart {mds : Nat} {noMemory : Bool} (tidy : client.Tidy)
    (found : client.lookupOrRegister mds noMemory = .ok (id, after)) :
    Apart (fun _ => False) client after ∧ after.Tidy ∧ after.sessions mds = some id ∧ after.request = client.request := by
  unfold lookupOrRegister at found
  cases known : client.sessions mds with
  | some old =>
    rw [known] at found
    cases found
    exact ⟨.of_fields rfl rfl rfl rfl rfl rfl rfl, tidy, known, rfl⟩
  | none =>
    simp only [known, registerSession] at found
    split at found
    · cases found
    split at found
    · cases found
    cases found
    have old : ∀ other < client.nextSession, update client.session client.nextSession
        { mds := mds, state := .new, waiting := [], unsafeList := [] } other = client.session other := by
      intro other below
      exact update_of_ne below.ne _ _
    refine ⟨⟨fun _ _ => rfl, fun _ _ => Iff.rfl, fun _ _ => Iff.rfl, ?_, ?_, ?_, ?_, ?_, Nat.le_succ _, le_rfl⟩,
      ⟨tidy.treeOnce, tidy.mapOnce, ?_, ?_⟩, update_self _ _ _, rfl⟩
    · intro tid other _ member
      by_cases same : other = client.nextSession
      · subst same
        simp at member
      · simpa [update_of_ne same] using member
    · intro tid other _ below member
      simpa [old other below] using member
    · intro tid other _ member
      by_cases same : other = client.nextSession
      · subst same
        simp at member
      · simpa [update_of_ne same] using member
    · intro other id registered
      have differs : other ≠ mds := by
        rintro rfl
        rw [known] at registered
        cases registered
      simpa [update_of_ne differs] using registered
    · intro other below
      simp [old other below]
    · intro other
      by_cases same : other = client.nextSession
      · subst same
        simp
      · simpa [update_of_ne same] using tidy.once other
    · intro other id registered
      by_cases same : other = mds
      · subst same
        simp only [update_self, Option.some.injEq] at registered
        subst registered
        simp
      · simp only [update_of_ne same] at registered
        obtain ⟨isMds, below⟩ := tidy.table other id registered
        exact ⟨by simpa [old id below] using isMds, below.trans (Nat.lt_succ_self _)⟩

theorem unregisterRequest_apart (tidy : client.Tidy) : Apart (· = tid) client (client.unregisterRequest tid) := by
  refine ⟨fun _ _ => rfl, ?_, fun _ _ => Iff.rfl, fun _ _ _ member => member, fun _ _ _ _ member => member,
    fun _ _ _ member => member, fun _ _ found => found, fun _ _ => rfl, le_rfl, le_rfl⟩
  intro other differs
  exact List.mem_erase_of_ne differs

theorem unregisterRequest_tidy (tidy : client.Tidy) : (client.unregisterRequest tid).Tidy :=
  ⟨tidy.treeOnce.erase tid, tidy.mapOnce, tidy.once, tidy.table⟩

theorem unregisterRequest_gone (tidy : client.Tidy) : tid ∉ (client.unregisterRequest tid).requestTree :=
  fun member => (tidy.treeOnce.mem_erase_iff.mp member).1 rfl

structure Ready (client : MdsClient) (tid : Tid) : Prop where
  listed : tid ∈ client.requestTree
  unlinked : ¬ client.Linked tid
  fresh : (client.request tid).gotUnsafe = false

theorem Ready.of_apart (ready : before.Ready tid) (apart : Apart changed before after) (same : ¬ changed tid) :
    after.Ready tid where
  listed := (apart.tree tid same).mpr ready.listed
  unlinked linked := ready.unlinked (apart.linked same linked)
  fresh := by
    rw [apart.request tid same]
    exact ready.fresh

theorem Fits.not_replayed (fits : client.Fits tid) (listed : tid ∈ client.requestTree)
    (fresh : (client.request tid).gotUnsafe = false) : tid ∉ (client.session id).unsafeList := by
  intro member
  have got := ((fits.replays id member).2 listed).2
  rw [fresh] at got
  cases got

theorem Ready.fits (ready : client.Ready tid) (replays : ∀ id, tid ∉ (client.session id).unsafeList)
    (below : tid ≤ client.lastTid) (live : (client.request tid).Live) : client.Fits tid where
  mapWaits member := absurd (.inl member) ready.unlinked
  waits id member := absurd (.inr ⟨id, member⟩) ready.unlinked
  replays id member := absurd member (replays id)
  live _ := ⟨below, live⟩

end MdsClient

end

end KmodCeph.Mds
