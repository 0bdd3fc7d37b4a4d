import KmodCeph.Mds.Remembered

namespace KmodCeph.Mds

open Lib List

namespace MdsClient

/-- The wait lists and the tree are as they were, or a list of a session that nobody had is emptied. -/
structure Quiet (before after : MdsClient) : Prop where
  waitingForMap : after.waitingForMap = before.waitingForMap
  waiting : ∀ id, (after.session id).waiting = (before.session id).waiting ∨ (after.session id).waiting = []
  requestTree : after.requestTree = before.requestTree
  lastTid : after.lastTid = before.lastTid
  relinked : after.relinked = before.relinked

/-- `r_wait` was never linked twice, a request is on one list at most and once, and still in the tree then. -/
structure Disciplined (client : MdsClient) : Prop where
  relinked : client.relinked = false
  mapOnce : client.waitingForMap.Nodup
  once : ∀ id, (client.session id).waiting.Nodup
  mapOnly : ∀ tid ∈ client.waitingForMap, ∀ id, tid ∉ (client.session id).waiting
  sessionOnly : ∀ tid id other, tid ∈ (client.session id).waiting → tid ∈ (client.session other).waiting → id = other
  listed : ∀ tid, client.Linked tid → tid ∈ client.requestTree

/-- The same, with what the request tree is like. -/
structure Ordered (client : MdsClient) : Prop extends client.Disciplined where
  treeOnce : client.requestTree.Nodup
  below : ∀ tid ∈ client.requestTree, tid ≤ client.lastTid

/-- No other request is linked or unregistered. -/
structure Spares (tid : Tid) (before after : MdsClient) : Prop where
  linked : ∀ other ≠ tid, after.Linked other → before.Linked other
  tree : ∀ other ≠ tid, other ∈ before.requestTree → other ∈ after.requestTree

section

variable {client before between after : MdsClient} {tid : Tid} {id : SessionId} {mds : Nat}
variable {around : Nat → Surroundings}

theorem Quiet.refl : Quiet client client :=
  ⟨rfl, fun _ => .inl rfl, rfl, rfl, rfl⟩

theorem Quiet.trans (first : Quiet before between) (second : Quiet between after) : Quiet before after where
  waitingForMap := second.waitingForMap.trans first.waitingForMap
  waiting id := by
    rcases second.waiting id with same | empty
    · rw [same]
      exact first.waiting id
    · exact .inr empty
  requestTree := second.requestTree.trans first.requestTree
  lastTid := second.lastTid.trans first.lastTid
  relinked := second.relinked.trans first.relinked

theorem Quiet.setReq {change : MdsRequest → MdsRequest} : Quiet client (client.setReq tid change) :=
  ⟨rfl, fun _ => .inl rfl, rfl, rfl, rfl⟩

theorem Quiet.setState {state : SessionState} : Quiet client (client.setState id state) :=
  ⟨rfl, fun _ => .inl setState_session.2.1, rfl, rfl, rfl⟩

theorem Quiet.openSession : Quiet client (client.openSession id) := by
  unfold MdsClient.openSession
  split
  · exact .setState
  · exact .setState
  · exact .refl

theorem Quiet.sendRequest {fault : Option Fault} : Quiet client (client.sendRequest tid id fault) := by
  unfold MdsClient.sendRequest
  split
  · exact .setReq
  · split
    · exact .setReq
    · exact .setReq

theorem Quiet.closeSession : Quiet client (client.closeSession id) := by
  unfold MdsClient.closeSession
  split
  · exact .refl
  · exact .refl
  · exact .refl
  · exact .setState

theorem Quiet.lookupOrRegister {noMemory : Bool} (found : client.lookupOrRegister mds noMemory = .ok (id, after)) :
    Quiet client after := by
  unfold MdsClient.lookupOrRegister registerSession at found
  split at found
  · cases found
    exact .refl
  split at found
  · cases found
  split at found
  · cases found
  cases found
  refine ⟨rfl, fun other => ?_, rfl, rfl, rfl⟩
  by_cases same : other = client.nextSession
  · subst same
    exact .inr (by simp)
  · exact .inl (by simp [same])

theorem Quiet.linked (quiet : Quiet before after) (linked : after.Linked tid) : before.Linked tid := by
  rcases linked with onMap | ⟨id, member⟩
  · exact .inl (quiet.waitingForMap ▸ onMap)
  · rcases quiet.waiting id with same | empty
    · exact .inr ⟨id, same ▸ member⟩
    · rw [empty] at member
      cases member

theorem Quiet.member (quiet : Quiet before after) (member : tid ∈ (after.session id).waiting) :
    tid ∈ (before.session id).waiting := by
  rcases quiet.waiting id with same | empty
  · exact same ▸ member
  · rw [empty] at member
    cases member

theorem Ordered.quiet (ordered : before.Ordered) (quiet : Quiet before after) : after.Ordered where
  relinked := quiet.relinked.trans ordered.relinked
  mapOnce := quiet.waitingForMap ▸ ordered.mapOnce
  once id := by
    rcases quiet.waiting id with same | empty
    · exact same ▸ ordered.once id
    · exact empty ▸ nodup_nil
  mapOnly tid onMap id member := ordered.mapOnly tid (quiet.waitingForMap ▸ onMap) id (quiet.member member)
  sessionOnly tid id other first second := ordered.sessionOnly tid id other (quiet.member first) (quiet.member second)
  listed tid linked := quiet.requestTree ▸ ordered.listed tid (quiet.linked linked)
  treeOnce := quiet.requestTree ▸ ordered.treeOnce
  below tid member := quiet.lastTid ▸ ordered.below tid (quiet.requestTree ▸ member)

theorem Spares.trans (first : Spares tid before between) (second : Spares tid between after) : Spares tid before after where
  linked other differs linked := first.linked other differs (second.linked other differs linked)
  tree other differs member := second.tree other differs (first.tree other differs member)

theorem Quiet.spares (quiet : Quiet before after) : Spares tid before after where
  linked _ _ linked := quiet.linked linked
  tree _ _ member := quiet.requestTree.symm ▸ member

theorem onWaitList_of_unlinked (unlinked : ¬ client.Linked tid) : client.onWaitList tid = false := by
  rw [onWaitList, Bool.or_eq_false_iff, decide_eq_false_iff_not, any_eq_false]
  refine ⟨fun onMap => unlinked (.inl onMap), fun id _ member => unlinked (.inr ⟨id, ?_⟩)⟩
  exact of_decide_eq_true member

theorem Ordered.unregister (ordered : client.Ordered) (unlinked : ¬ client.Linked tid) :
    (client.unregisterRequest tid).Ordered ∧ Spares tid client (client.unregisterRequest tid) := by
  refine ⟨⟨⟨ordered.relinked, ordered.mapOnce, ordered.once, ordered.mapOnly, ordered.sessionOnly, ?_⟩,
    ordered.treeOnce.erase tid, ?_⟩, fun _ _ linked => linked, ?_⟩
  · intro other linked
    refine (mem_erase_of_ne ?_).mpr (ordered.listed other linked)
    rintro rfl
    exact unlinked linked
  · exact fun other member => ordered.below other (mem_of_mem_erase member)
  · exact fun other differs member => (mem_erase_of_ne differs).mpr member

theorem Ordered.linkMap (ordered : client.Ordered) (unlinked : ¬ client.Linked tid) (listed : tid ∈ client.requestTree) :
    (client.linkMap tid).Ordered ∧ Spares tid client (client.linkMap tid) := by
  have cons : ∀ other, other ∈ (client.linkMap tid).waitingForMap ↔ other = tid ∨ other ∈ client.waitingForMap :=
    fun _ => mem_cons
  refine ⟨⟨⟨?_, ?_, ordered.once, ?_, ordered.sessionOnly, ?_⟩, ordered.treeOnce, ordered.below⟩, ?_,
    fun _ _ member => member⟩
  · simp [MdsClient.linkMap, ordered.relinked, onWaitList_of_unlinked unlinked]
  · exact List.nodup_cons.mpr ⟨fun onMap => unlinked (.inl onMap), ordered.mapOnce⟩
  · intro other onMap id member
    rcases (cons other).mp onMap with rfl | old
    · exact unlinked (.inr ⟨id, member⟩)
    · exact ordered.mapOnly other old id member
  · rintro other (onMap | onSession)
    · rcases (cons other).mp onMap with rfl | old
      · exact listed
      · exact ordered.listed other (.inl old)
    · exact ordered.listed other (.inr onSession)
  · rintro other differs (onMap | onSession)
    · exact .inl (((cons other).mp onMap).resolve_left differs)
    · exact .inr onSession

theorem Ordered.linkSession (ordered : client.Ordered) (unlinked : ¬ client.Linked tid) (listed : tid ∈ client.requestTree) :
    (client.linkSession tid id).Ordered ∧ Spares tid client (client.linkSession tid id) := by
  have waiting : ∀ session, ((client.linkSession tid id).session session).waiting =
      if session = id then tid :: (client.session id).waiting else (client.session session).waiting := by
    intro session
    by_cases same : session = id
    · subst same
      simp [MdsClient.linkSession, setSession]
    · simp [MdsClient.linkSession, setSession, same]
  have member : ∀ other session, other ∈ ((client.linkSession tid id).session session).waiting →
      other = tid ∧ session = id ∨ other ∈ (client.session session).waiting := by
    intro other session member
    rw [waiting] at member
    split at member
    · next same =>
      rcases List.mem_cons.mp member with new | old
      · exact .inl ⟨new, same⟩
      · exact .inr (same ▸ old)
    · exact .inr member
  have absent : ∀ session, tid ∉ (client.session session).waiting := fun session member => unlinked (.inr ⟨session, member⟩)
  refine ⟨⟨⟨?_, ordered.mapOnce, ?_, ?_, ?_, ?_⟩, ordered.treeOnce, ordered.below⟩, ?_, fun _ _ member => member⟩
  · simp [MdsClient.linkSession, ordered.relinked, onWaitList_of_unlinked unlinked]
  · intro session
    rw [waiting]
    split
    · exact List.nodup_cons.mpr ⟨absent id, ordered.once id⟩
    · exact ordered.once session
  · intro other onMap session linked
    rcases member other session linked with ⟨rfl, -⟩ | old
    · exact unlinked (.inl onMap)
    · exact ordered.mapOnly other onMap session old
  · intro other first second inFirst inSecond
    rcases member other first inFirst with ⟨rfl, rfl⟩ | old
    · rcases member _ second inSecond with ⟨-, rfl⟩ | old
      · rfl
      · exact absurd old (absent second)
    · rcases member other second inSecond with ⟨rfl, -⟩ | old'
      · exact absurd old (absent first)
      · exact ordered.sessionOnly other first second old old'
  · rintro other (onMap | ⟨session, linked⟩)
    · exact ordered.listed other (.inl onMap)
    · rcases member other session linked with ⟨rfl, -⟩ | old
      · exact listed
      · exact ordered.listed other (.inr ⟨session, old⟩)
  · rintro other differs (onMap | ⟨session, linked⟩)
    · exact .inl onMap
    · rcases member other session linked with ⟨rfl, -⟩ | old
      · exact absurd rfl differs
      · exact .inr ⟨session, old⟩

theorem lookupOrRegister_request {noMemory : Bool} (found : client.lookupOrRegister mds noMemory = .ok (id, after)) :
    after.request = client.request := by
  unfold MdsClient.lookupOrRegister registerSession at found
  split at found
  · cases found
    rfl
  split at found
  · cases found
  split at found
  · cases found
  cases found
  rfl

theorem doRequest_waits : Quiet client (client.doRequest around tid) ∨ ∃ between, Quiet client between ∧
    (client.doRequest around tid = between.unregisterRequest tid ∨
      (between.request tid).err = (client.request tid).err ∧
        (client.doRequest around tid = between.linkMap tid ∨
          ∃ id, client.doRequest around tid = between.linkSession tid id)) := by
  have counted : Quiet client { client with calls := client.calls + 1 } := ⟨rfl, fun _ => .inl rfl, rfl, rfl, rfl⟩
  unfold doRequest
  simp only
  split
  · split
    · exact .inr ⟨_, counted, .inl rfl⟩
    · exact .inl counted
  split
  · exact .inl (counted.trans .setReq)
  have released : Quiet client (putRequestSession { client with calls := client.calls + 1 } tid) := counted.trans .setReq
  have err : ((putRequestSession { client with calls := client.calls + 1 } tid).request tid).err = (client.request tid).err := by
    rw [putRequestSession, setReq_same]
  split
  · exact .inr ⟨_, released, .inr ⟨err, .inl rfl⟩⟩
  split
  · exact .inl (released.trans .setReq)
  · next id registered found =>
    have bound := (released.trans (.lookupOrRegister found)).trans
      (@Quiet.setReq _ tid fun req => { req with session := some id })
    split
    · exact .inl ((bound.trans (@Quiet.setReq _ tid fun req => { req with resendMds := -1 })).trans .sendRequest)
    · refine .inr ⟨_, bound.trans .openSession, .inr ⟨?_, .inr ⟨id, rfl⟩⟩⟩
      rw [openSession_request, setReq_same, lookupOrRegister_request found]
      exact err

theorem doRequest_ordered (ordered : client.Ordered) (unlinked : ¬ client.Linked tid) (listed : tid ∈ client.requestTree) :
    (client.doRequest around tid).Ordered ∧ Spares tid client (client.doRequest around tid) := by
  rcases @doRequest_waits client tid around with quiet | ⟨between, quiet, ran | ⟨-, ran | ⟨id, ran⟩⟩⟩
  · exact ⟨ordered.quiet quiet, quiet.spares⟩
  all_goals
    have kept := ordered.quiet quiet
    have free : ¬ between.Linked tid := fun linked => unlinked (quiet.linked linked)
    have listed : tid ∈ between.requestTree := quiet.requestTree.symm ▸ listed
    rw [ran]
  · exact (kept.unregister free).imp_right quiet.spares.trans
  · exact (kept.linkMap free listed).imp_right quiet.spares.trans
  · exact (kept.linkSession free listed).imp_right quiet.spares.trans

variable {tids : List Tid} {outcome : Reconnect} {reconnects : Nat → Reconnect} {newmap : MdsMap}

theorem wakeRequests_ordered (ordered : client.Ordered) (once : tids.Nodup)
    (unlinked : ∀ tid ∈ tids, ¬ client.Linked tid) (listed : ∀ tid ∈ tids, tid ∈ client.requestTree) :
    (wakeRequests around tids client).Ordered := by
  induction tids generalizing client with
  | nil => exact ordered
  | cons first rest ih =>
    obtain ⟨absent, once⟩ := List.nodup_cons.mp once
    obtain ⟨kept, spares⟩ :=
      @doRequest_ordered client first around ordered (unlinked first mem_cons_self) (listed first mem_cons_self)
    have others : ∀ tid ∈ rest, tid ≠ first := fun tid member same => absent (same ▸ member)
    refine ih kept once ?_ ?_
    · exact fun tid member linked =>
        unlinked tid (mem_cons_of_mem _ member) (spares.linked tid (others tid member) linked)
    · exact fun tid member => spares.tree tid (others tid member) (listed tid (mem_cons_of_mem _ member))

theorem wakeSession_ordered (ordered : client.Ordered) : (client.wakeSession around id).Ordered := by
  have emptied : Quiet client (client.setSession id fun session => { session with waiting := [] }) := by
    refine ⟨rfl, fun other => ?_, rfl, rfl, rfl⟩
    rw [setWaiting_session.1]
    split
    · exact .inr rfl
    · exact .inl rfl
  refine wakeRequests_ordered (ordered.quiet emptied) (ordered.once id) ?_ ?_
  · rintro tid member (onMap | ⟨other, linked⟩)
    · exact ordered.mapOnly tid onMap id member
    · rw [setWaiting_session.1] at linked
      split at linked
      · cases linked
      · next differs => exact differs (ordered.sessionOnly tid other id linked member)
  · exact fun tid member => ordered.listed tid (.inr ⟨id, member⟩)

theorem wakeMap_ordered (ordered : client.Ordered) : (client.wakeMap around).Ordered := by
  refine wakeRequests_ordered ?_ ordered.mapOnce ?_ fun tid member => ordered.listed tid (.inl member)
  · refine ⟨⟨ordered.relinked, nodup_nil, ordered.once, fun _ member => absurd member not_mem_nil,
      ordered.sessionOnly, ?_⟩, ordered.treeOnce, ordered.below⟩
    rintro tid (onMap | onSession)
    · cases onMap
    · exact ordered.listed tid (.inr onSession)
  · rintro tid member (onMap | ⟨id, linked⟩)
    · cases onMap
    · exact ordered.mapOnly tid member id linked

theorem unlink_ordered (ordered : client.Ordered) : (client.unlink tid).Ordered ∧ ¬ (client.unlink tid).Linked tid ∧
    ∀ other, (client.unlink tid).Linked other → client.Linked other := by
  have linked : ∀ other, (client.unlink tid).Linked other → other ≠ tid ∧ client.Linked other := by
    rintro other (onMap | ⟨id, member⟩)
    · exact (unlink_waiting.1.mp onMap).imp_right .inl
    · exact ((unlink_waiting.2 id).mp member).imp_right fun old => .inr ⟨id, old⟩
  refine ⟨⟨⟨ordered.relinked, ordered.mapOnce.filter _, fun id => (ordered.once id).filter _, ?_, ?_, ?_⟩,
    ordered.treeOnce, ordered.below⟩, fun member => (linked tid member).1 rfl, fun other member => (linked other member).2⟩
  · exact fun other onMap id member =>
      ordered.mapOnly other (unlink_waiting.1.mp onMap).2 id ((unlink_waiting.2 id).mp member).2
  · exact fun other first second inFirst inSecond => ordered.sessionOnly other first second
      ((unlink_waiting.2 first).mp inFirst).2 ((unlink_waiting.2 second).mp inSecond).2
  · exact fun other member => ordered.listed other (linked other member).2

theorem kickAll_ordered (ordered : client.Ordered) (once : tids.Nodup)
    (listed : ∀ tid ∈ tids, tid ∈ client.requestTree) : (kickAll around mds tids client).Ordered := by
  induction tids generalizing client with
  | nil => exact ordered
  | cons first rest ih =>
    obtain ⟨absent, once⟩ := List.nodup_cons.mp once
    rw [kickAll]
    split
    · obtain ⟨unlinked, free, -⟩ := @unlink_ordered client first ordered
      obtain ⟨kept, spares⟩ := @doRequest_ordered _ first around unlinked free (listed first mem_cons_self)
      refine ih kept once fun tid member => spares.tree tid ?_ (listed tid (mem_cons_of_mem _ member))
      exact fun same => absent (same ▸ member)
    · exact ih ordered once fun tid member => listed tid (mem_cons_of_mem _ member)

theorem kickRequests_ordered (ordered : client.Ordered) : (client.kickRequests around mds).Ordered :=
  kickAll_ordered ordered ordered.treeOnce fun _ member => member

theorem registerRequest_ordered (ordered : client.Ordered) {req : MdsRequest} :
    (client.registerRequest req).Ordered ∧ ¬ (client.registerRequest req).Linked (client.lastTid + 1) ∧
      client.lastTid + 1 ∈ (client.registerRequest req).requestTree := by
  have absent : client.lastTid + 1 ∉ client.requestTree := fun member =>
    absurd (ordered.below _ member) (Nat.not_succ_le_self _)
  have member : ∀ tid, tid ∈ (client.registerRequest req).requestTree ↔ tid ∈ client.requestTree ∨ tid = client.lastTid + 1 := by
    simp [registerRequest]
  refine ⟨⟨⟨ordered.relinked, ordered.mapOnce, ordered.once, ordered.mapOnly, ordered.sessionOnly, ?_⟩, ?_, ?_⟩,
    fun linked => absent (ordered.listed _ linked), (member _).mpr (.inr rfl)⟩
  · exact fun tid linked => (member tid).mpr (.inl (ordered.listed tid linked))
  · exact List.Nodup.append ordered.treeOnce (nodup_singleton _) (by simpa using absent)
  · intro tid listed
    rcases (member tid).mp listed with old | rfl
    · exact (ordered.below tid old).trans (Nat.le_succ _)
    · exact le_rfl

theorem startRequest_ordered {mode : DirectMode} (ordered : client.Ordered) :
    (client.startRequest around mode).Ordered := by
  obtain ⟨registered, unlinked, listed⟩ := @registerRequest_ordered client ordered (.create mode .waiting)
  have done := (@doRequest_ordered _ _ around registered unlinked listed).1
  unfold startRequest
  simp only
  split
  · next failed =>
    refine Ordered.quiet (Ordered.unregister done ?_).1 .setReq
    rcases @doRequest_waits (client.registerRequest (.create mode .waiting)) (client.lastTid + 1) around with
      quiet | ⟨between, quiet, ran | ⟨err, ran⟩⟩
    · exact fun linked => unlinked (quiet.linked linked)
    · rw [ran]
      exact fun linked => unlinked (quiet.linked linked)
    · have fresh : (between.request (client.lastTid + 1)).err = 0 := by
        have new : (client.registerRequest (.create mode .waiting)).request (client.lastTid + 1) = .create mode .waiting :=
          Function.update_self _ _ _
        rw [err, new]
        rfl
      rcases ran with ran | ⟨id, ran⟩
      · rw [ran] at failed
        exact absurd fresh failed
      · rw [ran] at failed
        exact absurd fresh failed
  · exact done

theorem returnRequest_quiet {ending : WaitEnd} (ran : client.returnRequest tid ending = .ok after) : Quiet client after := by
  obtain ⟨_, -, done⟩ := ok_of_bind ran
  cases done
  exact .setReq

theorem fillReply_quiet {err : Int} (ran : client.fillReply tid err = .ok after) : Quiet client after := by
  obtain ⟨_, -, done⟩ := ok_of_bind ran
  cases done
  exact .setReq

theorem handleReply_ordered {head : ReplyHead} {auth : Int} (ordered : client.Ordered)
    (unlinked : client.ignoresReply id tid head ∨
      (client.resendsStale id tid head auth ∨ head.safe = true → ¬ client.Linked tid)) :
    (client.handleReply around id tid (some head) auth).Ordered := by
  unfold handleReply
  simp only
  split
  · exact ordered
  next acts =>
  have free := unlinked.resolve_left acts
  have listed : tid ∈ client.requestTree := by
    by_contra missing
    exact acts (.inl missing)
  split
  · next stale =>
    have hinted := @Quiet.setReq client tid fun req => { req with resendMds := -1, directMode := .authMds, sentOn := none }
    exact (doRequest_ordered (ordered.quiet hinted) (fun linked => free (.inl stale) (hinted.linked linked)) listed).1
  have hinted := @Quiet.setReq client tid fun req => if head.result = -estale then { req with resendMds := -1 } else req
  split
  · next safe =>
    have noted := hinted.trans (@Quiet.setReq _ tid fun req => { req with gotSafe := true })
    have removed := ((ordered.quiet noted).unregister fun linked => free (.inr safe) (noted.linked linked)).1
    by_cases replied : ((client.setReq tid fun req =>
        if head.result = -estale then { req with resendMds := -1 } else req).request tid).gotUnsafe = true
    · rw [if_pos replied]
      exact removed.quiet ⟨rfl, fun _ => .inl rfl, rfl, rfl, rfl⟩
    · rw [if_neg replied]
      exact removed.quiet .setReq
  · refine (ordered.quiet hinted).quiet (.trans ?_ .setReq)
    refine ⟨rfl, fun other => .inl ?_, rfl, rfl, rfl⟩
    by_cases same : other = id
    · subst same
      simp [setSession]
    · simp [setSession, same]

theorem handleForward_ordered {nextMds : BitVec 32} {fwdSeq : Nat} (ordered : client.Ordered)
    (unlinked : tid ∈ client.requestTree → (client.request tid).aborted = true ∨ (client.request tid).numFwd < fwdSeq →
      ¬ client.Linked tid)
    (ran : client.handleForward around tid nextMds fwdSeq = .ok after) : after.Ordered := by
  unfold handleForward at ran
  simp only at ran
  split at ran
  · cases ran
    exact ordered
  next listed =>
  rw [not_not] at listed
  split at ran
  · next aborted =>
    cases ran
    exact (ordered.unregister (unlinked listed (.inl aborted))).1
  split at ran
  · cases ran
    exact ordered
  next later =>
  obtain ⟨_, -, done⟩ := ok_of_bind ran
  cases done
  have moved := (@Quiet.setReq client tid fun req => { req with numFwd := fwdSeq, resendMds := nextMds.toInt }).trans
    (@Quiet.setReq _ tid fun req => { req with session := none, sentOn := none })
  exact (doRequest_ordered (ordered.quiet moved)
    (fun linked => unlinked listed (.inr (not_le.mp later)) (moved.linked linked)) listed).1

theorem unregisterSession_quiet (ran : client.unregisterSession id = .ok after) : Quiet client after := by
  obtain ⟨_, -, done⟩ := ok_of_bind ran
  cases done
  exact ⟨rfl, fun _ => .inl rfl, rfl, rfl, rfl⟩

theorem handleSession_ordered {op : SessionOp} (ordered : client.Ordered)
    (ran : client.handleSession around id op = .ok after) : after.Ordered := by
  have unhung : ∀ {session : MdsClient}, session.Ordered →
      (if (session.session id).state = .hung then session.setState id .opened else session).Ordered := by
    intro session ordered
    split
    · exact ordered.quiet .setState
    · exact ordered
  unfold handleSession at ran
  cases op with
  | opened =>
    cases ran
    have stopped : ∀ {session : MdsClient}, session.Ordered →
        (if session.stopping then session.closeSession id else session).Ordered := by
      intro session ordered
      split
      · exact ordered.quiet .closeSession
      · exact ordered
    exact wakeSession_ordered (stopped ((unhung ordered).quiet .setState))
  | close =>
    obtain ⟨between, unregistered, done⟩ := ok_of_bind ran
    cases done
    exact kickRequests_ordered (wakeSession_ordered (unhung (ordered.quiet (unregisterSession_quiet unregistered))))
  | other =>
    cases ran
    exact unhung ordered

theorem replayUnsafeRequests_quiet : Quiet client (client.replayUnsafeRequests id) := by
  have replays : ∀ (tids : List Tid) (client : MdsClient),
      Quiet client (tids.foldl (fun client tid => client.sendRequest tid id none) client) := by
    intro tids
    induction tids with
    | nil => exact fun _ => .refl
    | cons first rest ih => exact fun client => .trans .sendRequest (ih _)
  exact replays _ client

theorem sendMdsReconnect_ordered (ordered : client.Ordered) :
    (client.sendMdsReconnect around id outcome).Ordered := by
  have reconnecting := @Quiet.setState client id .reconnecting
  have replayed := (ordered.quiet reconnecting).quiet (@replayUnsafeRequests_quiet _ id)
  cases outcome with
  | noMemory => exact ordered
  | failed => exact replayed
  | sent => exact wakeSession_ordered replayed

theorem recoverSession_ordered {oldstate newstate : Int} (ordered : client.Ordered) :
    (client.recoverSession around outcome oldstate newstate mds id).Ordered := by
  have recovered : (if (client.session id).state = .restarting ∧ MdsMap.stateReconnect ≤ newstate then
      client.sendMdsReconnect around id outcome else client).Ordered := by
    split
    · exact sendMdsReconnect_ordered ordered
    · exact ordered
  unfold recoverSession
  simp only
  split
  · exact kickRequests_ordered recovered
  · exact recovered

theorem checkMds_ordered {oldmap : MdsMap} (ordered : client.Ordered)
    (ran : checkMds around reconnects oldmap newmap client mds = .ok after) : after.Ordered := by
  unfold checkMds at ran
  split at ran
  · cases ran
    exact ordered
  simp only at ran
  split at ran
  · split at ran
    · obtain ⟨between, unregistered, done⟩ := ok_of_bind ran
      cases done
      exact recoverSession_ordered
        (kickRequests_ordered ((wakeSession_ordered ordered).quiet (unregisterSession_quiet unregistered)))
    · cases ran
      exact recoverSession_ordered (kickRequests_ordered (ordered.quiet .setState))
  split at ran
  · cases ran
    exact ordered
  · cases ran
    exact recoverSession_ordered ordered

theorem openExportTargets_quiet {noMemory : Nat → Nat → Bool} :
    Quiet client (client.openExportTargets noMemory newmap mds) := by
  have opens : ∀ (targets : List Nat) (client : MdsClient),
      Quiet client (targets.foldl (openExportTargetSession (noMemory mds)) client) := by
    intro targets
    induction targets with
    | nil => exact fun _ => .refl
    | cons target rest ih =>
      intro client
      refine .trans ?_ (ih _)
      unfold openExportTargetSession
      split
      · exact .refl
      · next found => exact .trans (.lookupOrRegister found) .openSession
  unfold openExportTargets
  split
  · exact .refl
  split
  · exact .refl
  split
  · exact opens _ _
  · exact opens _ _
  · exact opens _ _
  · exact .refl

theorem handleMap_ordered {noMemory : Nat → Nat → Bool} {epoch : Nat}
    (ordered : client.Ordered) (ran : client.handleMap around reconnects noMemory epoch newmap = .ok after) :
    after.Ordered := by
  have checks : ∀ (list : List Nat) (oldmap : MdsMap) (client : MdsClient), client.Ordered →
      ∀ after, list.foldlM (checkMds around reconnects oldmap newmap) client = .ok after → after.Ordered := by
    intro list oldmap
    induction list with
    | nil =>
      intro client ordered after ran
      cases ran
      exact ordered
    | cons first rest ih =>
      intro client ordered after ran
      obtain ⟨between, checked, ran⟩ := ok_of_bind ran
      exact ih between (checkMds_ordered ordered checked) after ran
  have opens : ∀ (list : List Nat) (client : MdsClient), client.Ordered →
      (list.foldl (openExportTargets noMemory newmap) client).Ordered := by
    intro list
    induction list with
    | nil => exact fun _ ordered => ordered
    | cons first rest ih => exact fun client ordered => ih _ (ordered.quiet openExportTargets_quiet)
  unfold handleMap at ran
  split at ran
  · cases ran
    exact ordered
  · obtain ⟨checked, compared, done⟩ := ok_of_bind ran
    cases done
    obtain ⟨between, checkedAll, done⟩ := ok_of_bind compared
    cases done
    have swapped : Quiet client { client with mdsmap := newmap } := ⟨rfl, fun _ => .inl rfl, rfl, rfl, rfl⟩
    exact wakeMap_ordered (opens _ _ (checks _ _ _ (ordered.quiet swapped) _ checkedAll))

end

end MdsClient

/-- A reply or a forward that has the request resent or unregistered finds it on no wait list. -/
def MdsCall.Unlinked : MdsCall → MdsClient → Prop
  | .reply _ id tid (some head) auth, client =>
    client.ignoresReply id tid head ∨ (client.resendsStale id tid head auth ∨ head.safe = true → ¬ client.Linked tid)
  | .forward _ tid _ fwdSeq, client =>
    tid ∈ client.requestTree → (client.request tid).aborted = true ∨ (client.request tid).numFwd < fwdSeq →
      ¬ client.Linked tid
  | _, _ => True

section

variable {client after : MdsClient}

theorem MdsCall.ordered {call : MdsCall} (unlinked : call.Unlinked client) (ordered : client.Ordered)
    (ran : call.run client = .ok after) : after.Ordered := by
  have started : MdsClient.Ordered { client with calls := 0 } := ordered.quiet ⟨rfl, fun _ => .inl rfl, rfl, rfl, rfl⟩
  cases call with
  | submit around mode =>
    cases ran
    obtain ⟨registered, unlinked, listed⟩ := @MdsClient.registerRequest_ordered _ started (.create mode .callback)
    exact (MdsClient.doRequest_ordered registered unlinked listed).1
  | start around mode =>
    cases ran
    exact MdsClient.startRequest_ordered started
  | wait tid ending => exact started.quiet (MdsClient.returnRequest_quiet ran)
  | reply around id tid head auth =>
    cases ran
    cases head with
    | none => exact started
    | some head => exact MdsClient.handleReply_ordered started unlinked
  | fill tid err => exact started.quiet (MdsClient.fillReply_quiet ran)
  | forward around tid nextMds fwdSeq => exact MdsClient.handleForward_ordered started unlinked ran
  | session around id op => exact MdsClient.handleSession_ordered started ran
  | map around reconnects noMemory epoch newmap => exact MdsClient.handleMap_ordered started ran
  | hang id =>
    cases ran
    split
    · exact started.quiet .setState
    · exact started
  | close id =>
    cases ran
    exact started.quiet .closeSession
  | stop =>
    cases ran
    exact started.quiet ⟨rfl, fun _ => .inl rfl, rfl, rfl, rfl⟩

theorem init_ordered : MdsClient.init.Ordered where
  relinked := rfl
  mapOnce := nodup_nil
  once _ := nodup_nil
  mapOnly _ member := absurd member not_mem_nil
  sessionOnly _ _ _ member := absurd member not_mem_nil
  listed tid linked := by
    rcases linked with onMap | ⟨id, member⟩
    · exact absurd onMap not_mem_nil
    · exact absurd member not_mem_nil
  treeOnce := nodup_nil
  below _ member := absurd member not_mem_nil

/-- As long as replies and forwards come for requests that are on no list, `r_wait` is linked once. -/
theorem waitLists_disciplined (reached : Reached MdsCall.run MdsCall.Unlinked .init client) : client.Disciplined :=
  (reached.preserved (fun _ _ _ unlinked ordered ran => MdsCall.ordered unlinked ordered ran) init_ordered).toDisciplined

end

def mdsMoved : MdsMap where
  epoch := 2
  info := [{ state := 8, addr := 8, laggy := false, exportTargets := [] }]

theorem waitLists_disciplined_forwarded :
    ∃ client, Reached MdsCall.run MdsCall.Unlinked .init client ∧ client.waitingForMap = [1] ∧ client.Disciplined := by
  have sent : Reached MdsCall.run MdsCall.Unlinked .init sentClient := sentClient_started trivial trivial trivial
  have forwarded := sent.next (.forward (fun _ => { choice := -1, fault := none }) 1 5 1)
    (fun _ _ => sentClient_unlinked) rfl
  exact ⟨_, forwarded, rfl, waitLists_disciplined forwarded⟩

/-- The forward was on its way when the map had the request kicked. -/
theorem waitLists_undisciplined :
    ∃ client, Reached MdsCall.run (fun _ _ => True) .init client ∧ client.relinked = true ∧
      client.waitingForMap = [1, 1] := by
  have sent : Reached MdsCall.run (fun _ _ => True) .init sentClient := sentClient_started trivial trivial trivial
  have kicked := sent.next (.map calm (fun _ => .sent) (fun _ _ => false) 2 mdsMoved) trivial rfl
  exact ⟨_, kicked.next (.forward calm 1 1 1) trivial rfl, rfl, rfl⟩

end KmodCeph.Mds
