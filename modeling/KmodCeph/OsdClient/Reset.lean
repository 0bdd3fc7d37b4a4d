import KmodCeph.OsdClient.Resend
import Mathlib.Data.List.TakeWhile

namespace KmodCeph.OsdClient

open Lib CephOsdClient List

variable {μ : Type}

section

variable {ops : MapOps μ} {map : μ} {osdc next : CephOsdClient μ} {req : ReqId} {osd : OsdNum} {call : OsdCall μ}

variable {reqs : List ReqId}

/-- Once its requests are taken off the queue, a session's linger requests are put at its end. -/
theorem kickLingers_queue (linked : Linked osdc) (on : ∀ req ∈ reqs, On osd osdc req) (distinct : reqs.Nodup) :
    (reqs.foldl kickLingerRequest osdc).reqUnsent = osdc.reqUnsent.filter (· ∉ reqs) ++ reqs ∧
    (∀ other ∉ reqs, (reqs.foldl kickLingerRequest osdc).req other = osdc.req other) ∧
    (∀ req ∈ reqs, ((reqs.foldl kickLingerRequest osdc).req req).osd = some osd ∧
      osdc.lastTid < ((reqs.foldl kickLingerRequest osdc).req req).tid) ∧
    (∀ other, ((reqs.foldl kickLingerRequest osdc).session other).incarnation = (osdc.session other).incarnation) ∧
    (reqs.foldl kickLingerRequest osdc).log = osdc.log := by
  induction reqs generalizing osdc with
  | nil => simp
  | cons req rest ih =>
    obtain ⟨first, distinct⟩ := List.nodup_cons.mp distinct
    have here := on req mem_cons_self
    have equal := linked.kickLinger_eq here.1 here.2
    obtain ⟨unsent, others, kicked, incarnation, log⟩ := ih (linked.kickLinger here.1 here.2)
      (fun other listed => (on other (mem_cons_of_mem _ listed)).kickLinger linked here) distinct
    have same : ∀ other, other ≠ req → (osdc.kickLingerRequest req).req other = osdc.req other := by
      intro other differs
      simp [equal, place, registerRequest, setReq, detach, differs]
    rw [foldl_cons]
    refine ⟨?_, ?_, ?_, ?_, ?_⟩
    · rw [unsent, equal]
      simp only [place, registerRequest, setReq, detach,
        filter_append, filter_filter, append_assoc]
      congr 1
      · refine filter_congr fun other _ => ?_
        simp [Bool.and_comm]
      · simp [first]
    · intro other away
      simp only [mem_cons, not_or] at away
      exact (others other away.2).trans (same other away.1)
    · intro other listed
      have more : osdc.lastTid < (osdc.kickLingerRequest req).lastTid := by
        simp [equal, place, registerRequest, detach]
      rcases List.mem_cons.mp listed with rfl | listed
      · rw [others other first, equal]
        simp [place, registerRequest, setReq, detach]
      · exact ⟨(kicked other listed).1, more.trans (kicked other listed).2⟩
    · intro other
      rw [incarnation, equal]
      by_cases at' : other = osd
      · subst at'
        simp [place, registerRequest, setReq, detach]
      · simp [place, registerRequest, setReq, detach, at']
    · rw [log, equal]
      rfl

structure Requeued (before after : CephOsdClient μ) : Prop where
  req : ∀ req, ∃ flags, after.req req = { before.req req with flags := flags }
  session : after.session = before.session
  osds : after.osds = before.osds
  lastTid : after.lastTid = before.lastTid
  log : after.log = before.log

theorem Requeued.refl : Requeued osdc osdc :=
  ⟨fun req => ⟨(osdc.req req).flags, rfl⟩, rfl, rfl, rfl, rfl⟩

theorem Requeued.trans {before middle after : CephOsdClient μ} (first : Requeued before middle)
    (second : Requeued middle after) : Requeued before after where
  req := by
    intro req
    obtain ⟨_, same⟩ := first.req req
    obtain ⟨flags, same'⟩ := second.req req
    exact ⟨flags, by rw [same', same]⟩
  session := second.session.trans first.session
  osds := second.osds.trans first.osds
  lastTid := second.lastTid.trans first.lastTid
  log := second.log.trans first.log

theorem requeueRequest_requeued : Requeued osdc (osdc.requeueRequest req) where
  req := by
    intro other
    by_cases same : other = req
    · subst same
      exact ⟨{ (osdc.req other).flags with retry := true }, by
        simp [requeueRequest, setReq, delLruItem]⟩
    · exact ⟨(osdc.req other).flags, by
        simp [requeueRequest, setReq, delLruItem, same]⟩
  session := rfl
  osds := rfl
  lastTid := rfl
  log := rfl

theorem delLruItem_requeued : Requeued osdc (osdc.delLruItem req) :=
  ⟨fun req => ⟨(osdc.req req).flags, rfl⟩, rfl, rfl, rfl, rfl⟩

theorem foldl_requeued {step : CephOsdClient μ → ReqId → CephOsdClient μ}
    (requeues : ∀ osdc req, Requeued osdc (step osdc req)) : Requeued osdc (reqs.foldl step osdc) :=
  @foldlRecOn _ _ (fun now => Requeued osdc now) reqs step osdc .refl
    fun now requeued req _ => requeued.trans (requeues now req)

theorem requeueSent_requeued : Requeued osdc (osdc.requeueSent osd).2 := by
  have requeued : Requeued osdc (foldl delLruItem
      (foldl requeueRequest osdc (resendRequests osd osdc)) (osdc.requeueSent osd).1) :=
    (foldl_requeued fun _ _ => requeueRequest_requeued).trans (foldl_requeued fun _ _ => delLruItem_requeued)
  exact ⟨requeued.req, requeued.session, requeued.osds, requeued.lastTid, requeued.log⟩

theorem Queued.requeued (queued : Queued osdc) : Queued (osdc.requeueSent osd).2 := by
  obtain ⟨middle, same, equal, unsent, linked⟩ := @Linked.requeueSent _ osdc osd queued.linked
  have requeued := @requeueSent_requeued _ osdc osd
  have fields : ∀ req, ((osdc.requeueSent osd).2.req req).osd = (osdc.req req).osd ∧
      ((osdc.requeueSent osd).2.req req).sent = (osdc.req req).sent ∧
      ((osdc.requeueSent osd).2.req req).tid = (osdc.req req).tid := by
    intro req
    obtain ⟨_, same⟩ := requeued.req req
    rw [same]
    exact ⟨rfl, rfl, rfl⟩
  have registries : (osdc.requeueSent osd).2.requests = osdc.requests ∧
      (osdc.requeueSent osd).2.reqLinger = osdc.reqLinger := by
    rw [equal]
    exact ⟨same.requests, same.reqLinger⟩
  refine ⟨linked, ?_, ?_, ?_, ?_, ?_, ?_⟩
  · intro where' req listed
    rw [requeued.session] at listed
    rw [(fields req).2.1]
    by_cases sent : (osdc.req req).sent = 0
    · right
      rw [equal]
      refine mem_append_right _ ?_
      rw [unsent]
      refine List.mem_filter.mpr ⟨(queued.pending where' req listed).resolve_left (not_not.mpr sent), ?_⟩
      have not : req ∉ osdc.sentRequests osd := fun among => by
        have nonzero := mem_takeWhile_imp among
        simp [sent] at nonzero
      simpa using not
    · exact .inl sent
  · intro req listed
    rw [registries.1] at listed
    rw [(fields req).1, (fields req).2.1]
    exact queued.idle req listed
  · rw [requeued.session, requeued.osds]
    exact queued.alive
  · rw [requeued.osds]
    exact queued.numbers
  · intro req
    rw [registries.1, registries.2, (fields req).2.2, requeued.lastTid]
    exact queued.tids req
  · intro where' req on
    rw [On, registries.1, registries.2, (fields req).1] at on
    rw [(fields req).2.1, requeued.session]
    exact queued.past where' req on

theorem Queued.rekicks (queued : Queued osdc) (on : ∀ req ∈ reqs, On osd osdc req) :
    Queued (reqs.foldl kickLingerRequest osdc) := by
  induction reqs generalizing osdc with
  | nil => exact queued
  | cons req rest ih =>
    have here := on req mem_cons_self
    refine ih (queued.rekick here) ?_
    exact fun other listed => (on other (mem_cons_of_mem _ listed)).kickLinger queued.linked here

def rekicked (osd : OsdNum) (osdc : CephOsdClient μ) : List ReqId :=
  (osdc.session osd).lingerRequests ++ (osdc.sentRequests osd).filter fun req => (osdc.req req).linger

theorem kickOsdRequests_done {now : CephOsdClient μ} (done : osdc.resetOsd ops map osd = (.done, now)) :
    osdc.kickOsdRequests ops map osd =
      (rekicked osd now).foldl kickLingerRequest (now.requeueSent osd).2 := by
  have session := (@requeueSent_requeued _ now osd).session
  unfold kickOsdRequests
  rw [done]
  dsimp only
  rw [session, rekicked, foldl_append]
  rfl

theorem Linked.kicked_on (linked : Linked osdc) :
    ∀ req ∈ rekicked osd osdc, On osd (osdc.requeueSent osd).2 req := by
  obtain ⟨on, onLinger⟩ := @Linked.requeueSent_on _ osdc osd linked
  rw [(@requeueSent_requeued _ osdc osd).session] at onLinger
  intro req listed
  exact (List.mem_append.mp listed).elim (onLinger req) (on req)

theorem Kept.osdReset (kept : Kept osdc) : Kept (osdc.osdReset ops map osd) := by
  have reset := @Kept.reset _ ops map _ osd kept
  cases done : osdc.resetOsd ops map osd with
  | mk result now =>
    rw [done] at reset
    have queued : Queued (osdc.kickOsdRequests ops map osd) := by
      cases result with
      | noDev =>
        rw [CephOsdClient.kickOsdRequests, done]
        exact reset.queued
      | again =>
        rw [CephOsdClient.kickOsdRequests, done]
        exact reset.queued
      | done =>
        rw [kickOsdRequests_done done]
        exact reset.queued.requeued.rekicks reset.queued.linked.kicked_on
    exact ⟨queued.send.1, queued.send.2⟩

theorem Kept.cancelled (kept : Kept osdc) : Kept (osdc.cephOsdcCancelRequest req) := by
  unfold cephOsdcCancelRequest
  split
  · exact kept.unlingered.unregistered
  · exact kept.unregistered

def OsdCall.Keeps (ops : MapOps μ) : OsdCall μ → CephOsdClient μ → Prop
  | .newMap map _ forceResend forceResendWrites, osdc => osdc.Keeps ops map (forceResend || forceResendWrites)
  | _, _ => True

theorem OsdCall.kept (kept : Kept osdc) (proper : call.Proper osdc) (keeps : call.Keeps ops osdc)
    (ran : call.run ops osdc = .ok next) : Kept next := by
  cases call with
  | start req new nofail memory =>
    obtain ⟨map, -, done⟩ := ok_of_bind ran
    cases done
    obtain ⟨-, unregistered, off, fresh⟩ := proper
    have set' := kept.setUnknown unregistered off fun _ => new
    refine (set'.of_same note_queue).started unregistered off ?_
    simpa [setReq, CephOsdClient.note] using fresh.idle.1
  | cancel req =>
    cases ran
    exact kept.cancelled
  | reply message memory =>
    obtain ⟨map, -, done⟩ := ok_of_bind ran
    cases done
    exact kept.replied
  | reset osd =>
    obtain ⟨map, -, done⟩ := ok_of_bind ran
    cases done
    exact kept.osdReset
  | newMap map memory forceResend forceResendWrites =>
    cases ran
    have kept' : Kept { osdc with osdmap := some map } := kept.of_same setMap_queue
    exact kept'.kickedRequests keeps
  | spoilMap map =>
    cases ran
    exact kept.of_same setMap_queue
  | sendQueued =>
    cases ran
    exact ⟨kept.queued.send.1, kept.queued.send.2⟩
  | connection osd opened =>
    cases ran
    exact kept.of_same (setSession_queue ⟨rfl, rfl⟩ rfl)
  | removeIdle osd =>
    cases ran
    exact ⟨kept.queued.removed proper, kept.inOrder⟩

theorem takeWhile_ordered {α : Type} {holds : α → Bool} {items : List α}
    (ordered : items.Pairwise fun earlier later => holds later → holds earlier) :
    items.takeWhile holds = items.filter holds := by
  induction items with
  | nil => rfl
  | cons item rest ih =>
    obtain ⟨first, ordered⟩ := List.pairwise_cons.mp ordered
    cases here : holds item with
    | true => rw [takeWhile_cons_of_pos here, filter_cons_of_pos here, ih ordered]
    | false =>
      rw [takeWhile_cons_of_neg (by simp [here]), filter_cons_of_neg (by simp [here])]
      refine (List.filter_eq_nil_iff.mpr fun later listed holds' => ?_).symm
      have before := first later listed holds'
      rw [here] at before
      cases before

/-- The sends that a reset of the session repeats, on its next incarnation. -/
def CephOsdClient.resent (osd : OsdNum) (osdc : CephOsdClient μ) : List OsdEvent :=
  ((osdc.session osd).requests.filter fun req => (osdc.req req).sent ≠ 0 ∧ (osdc.req req).linger = false).map fun req =>
    .sent osd ((osdc.session osd).incarnation + 1) req (osdc.req req).tid

def OsdEvent.sends? : OsdEvent → Option ReqId
  | .sent _ _ req _ => some req
  | _ => none

/-- A reset of the session sends again what was sent, then the rest of the queue. -/
structure Resends (osd : OsdNum) (before after : CephOsdClient μ) (later : List OsdEvent) : Prop where
  log : after.log = before.log ++ before.resent osd ++ later
  waiting : ∀ req ∈ (before.session osd).requests, (before.req req).sent = 0 →
    .sent osd ((before.session osd).incarnation + 1) req (before.req req).tid ∈ later
  linger : ∀ req, req ∈ (before.session osd).lingerRequests ∨
      req ∈ (before.session osd).requests ∧ (before.req req).linger ∧ (before.req req).sent ≠ 0 →
    ∃ tid, (before.req req).tid < tid ∧ .sent osd ((before.session osd).incarnation + 1) req tid ∈ later
  once : ((before.resent osd ++ later).filterMap OsdEvent.sends?).Nodup
  past : ∀ req, req ∈ (before.session osd).requests ∨ req ∈ (before.session osd).lingerRequests →
    (before.req req).sent ≤ (before.session osd).incarnation

theorem Resends.again {before after : CephOsdClient μ} {later : List OsdEvent} {event : OsdEvent}
    (resends : Resends osd before after later) (again : event ∈ before.resent osd) : event ∈ after.log := by
  rw [resends.log]
  exact mem_append_left _ (mem_append_right _ again)

theorem sends_sentEvents : ((reqs.flatMap osdc.sentEvents).filterMap OsdEvent.sends?).Sublist reqs := by
  induction reqs with
  | nil => simp
  | cons req rest ih =>
    rw [flatMap_cons, filterMap_append]
    unfold sentEvents
    cases (osdc.req req).osd with
    | none => exact ih.cons req
    | some osd => exact ih.cons_cons req

theorem resetOsd_done {now : CephOsdClient μ} (done : osdc.resetOsd ops map osd = (.done, now)) :
    now = osdc.setSession osd fun s => { s with
      peerAddr := ops.addr map osd
      opened := false
      incarnation := s.incarnation + 1 } := by
  unfold resetOsd at done
  dsimp only at done
  split at done
  · cases done
  · split at done
    · cases done
    · cases done
      rfl

theorem Kept.sentRequests_eq (kept : Kept osdc) :
    osdc.sentRequests osd = (osdc.session osd).requests.filter fun req => (osdc.req req).sent ≠ 0 :=
  takeWhile_ordered ((kept.inOrder osd).imp fun ordered later => by simpa using ordered (by simpa using later))

theorem Kept.rekicked_nodup (kept : Kept osdc) : (rekicked osd osdc).Nodup := by
  have linked := kept.queued.linked
  refine nodup_append'.mpr ⟨(linked.distinctHere osd).2, ?_, ?_⟩
  · exact ((linked.distinctHere osd).1.sublist (takeWhile_sublist _)).filter _
  · intro req lingers sent
    have registered := (linked.on_sent req (List.mem_filter.mp sent).1).1
    exact linked.apart req registered ((linked.hereLinger osd req).mp lingers).1

theorem Linked.not_rekicked (linked : Linked osdc) (registered : req ∈ osdc.requests)
    (stays : (osdc.req req).linger = false ∨ (osdc.req req).sent = 0) : req ∉ rekicked osd osdc := by
  intro listed
  rcases List.mem_append.mp listed with lingers | sent
  · exact linked.apart req registered ((linked.hereLinger osd req).mp lingers).1
  · obtain ⟨sent, lingers⟩ := List.mem_filter.mp sent
    have nonzero := mem_takeWhile_imp sent
    rcases stays with regular | zero
    · simp [regular] at lingers
    · simp [zero] at nonzero

/-- The queue when `__kick_osd_requests` is done, and the requests in it. -/
theorem Kept.kickOsdRequests_queue (kept : Kept osdc) {after : CephOsdClient μ}
    (kicked : after = (rekicked osd osdc).foldl kickLingerRequest (osdc.requeueSent osd).2) :
    Linked after ∧ after.log = osdc.log ∧ (∀ other, (after.session other).incarnation = (osdc.session other).incarnation) ∧
    (∀ other ∉ rekicked osd osdc, (after.req other).osd = (osdc.req other).osd ∧
      (after.req other).tid = (osdc.req other).tid) ∧
    (∀ req ∈ rekicked osd osdc, (after.req req).osd = some osd ∧ osdc.lastTid < (after.req req).tid) ∧
    ∃ rest, after.reqUnsent = resendRequests osd osdc ++ rest ++ rekicked osd osdc ∧
      ∀ req ∈ osdc.reqUnsent, req ∉ osdc.sentRequests osd → req ∉ rekicked osd osdc → req ∈ rest := by
  have linked := kept.queued.linked
  obtain ⟨middle, same, equal, unsent, linked'⟩ := @Linked.requeueSent _ osdc osd linked
  have requeued := @requeueSent_requeued _ osdc osd
  have on := @Linked.kicked_on _ osdc osd linked
  obtain ⟨queue, others, rekicked', incarnation, log⟩ := kickLingers_queue linked' on kept.rekicked_nodup
  subst kicked
  refine ⟨(linked'.kickLingers on on).1, log.trans requeued.log, ?_, ?_, ?_, ?_⟩
  · intro other
    rw [incarnation, requeued.session]
  · intro other away
    obtain ⟨_, same⟩ := requeued.req other
    rw [others other away, same]
    exact ⟨rfl, rfl⟩
  · intro req listed
    rw [← requeued.lastTid]
    exact rekicked' req listed
  · have stays : (resendRequests osd osdc).filter (· ∉ rekicked osd osdc) = resendRequests osd osdc := by
      refine List.filter_eq_self.mpr fun req listed => ?_
      obtain ⟨sent, regular⟩ := List.mem_filter.mp listed
      have away := @Linked.not_rekicked _ osdc req osd linked (linked.on_sent req sent).1 (.inl (by simpa using regular))
      simpa using away
    refine ⟨middle.reqUnsent.filter (· ∉ rekicked osd osdc), ?_, ?_⟩
    · rw [queue, equal, filter_append, stays]
    · intro req waits unsent' away
      rw [unsent]
      refine List.mem_filter.mpr ⟨List.mem_filter.mpr ⟨waits, ?_⟩, ?_⟩
      · simpa using unsent'
      · simpa using away

theorem Kept.resends (kept : Kept osdc) (done : (osdc.resetOsd ops map osd).1 = .done) :
    ∃ later, Resends osd osdc (osdc.osdReset ops map osd) later := by
  cases reset : osdc.resetOsd ops map osd with
  | mk result now =>
    rw [reset] at done
    cases done
    have kept' : Kept now := by
      have kept' := @Kept.reset _ ops map _ osd kept
      rw [reset] at kept'
      exact kept'
    have equal := resetOsd_done reset
    have session : (now.session osd).requests = (osdc.session osd).requests ∧
        (now.session osd).lingerRequests = (osdc.session osd).lingerRequests ∧
        (now.session osd).incarnation = (osdc.session osd).incarnation + 1 := by
      simp [equal, CephOsdClient.setSession]
    have fields : now.req = osdc.req ∧ now.reqUnsent = osdc.reqUnsent ∧ now.requests = osdc.requests ∧
        now.lastTid = osdc.lastTid ∧ now.log = osdc.log := by
      rw [equal]
      exact ⟨rfl, rfl, rfl, rfl, rfl⟩
    obtain ⟨linked, log, incarnation, others, rekicked', rest, queue, waits⟩ :=
      kept'.kickOsdRequests_queue (kickOsdRequests_done reset)
    have sentRequests : now.sentRequests osd =
        (osdc.session osd).requests.filter fun req => (osdc.req req).sent ≠ 0 := by
      rw [kept'.sentRequests_eq, session.1, fields.1]
    unfold CephOsdClient.osdReset
    generalize osdc.kickOsdRequests ops map osd = after at linked log incarnation others rekicked' queue
    have event : ∀ req, (after.req req).osd = some osd →
        after.sentEvents req = [.sent osd ((osdc.session osd).incarnation + 1) req (after.req req).tid] := by
      intro req hangs
      simp only [CephOsdClient.sentEvents, hangs, incarnation, session.2.2]
    -- What is not kicked keeps its session and its tid.
    have calm : ∀ req ∈ (osdc.session osd).requests, req ∉ rekicked osd now →
        after.sentEvents req = [.sent osd ((osdc.session osd).incarnation + 1) req (osdc.req req).tid] := by
      intro req listed away
      obtain ⟨hangs, tid⟩ := others req away
      rw [fields.1] at hangs tid
      rw [event req (hangs.trans ((kept.queued.linked.here osd req).mp listed).2), tid]
    have away : ∀ req ∈ (osdc.session osd).requests, (osdc.req req).linger = false ∨ (osdc.req req).sent = 0 →
        req ∉ rekicked osd now := by
      intro req listed stays
      refine kept'.queued.linked.not_rekicked ?_ ?_
      · rw [fields.2.2.1]
        exact ((kept.queued.linked.here osd req).mp listed).1
      · rw [fields.1]
        exact stays
    have again : (resendRequests osd now).flatMap after.sentEvents = osdc.resent osd := by
      have requests : resendRequests osd now = (osdc.session osd).requests.filter fun req =>
          (osdc.req req).sent ≠ 0 ∧ (osdc.req req).linger = false := by
        rw [resendRequests, sentRequests, fields.1, filter_filter]
        refine filter_congr fun req _ => ?_
        simp [Bool.and_comm]
      rw [requests, CephOsdClient.resent, ← flatMap_pure_eq_map]
      refine flatMap_congr fun req listed => ?_
      obtain ⟨listed, sent⟩ := List.mem_filter.mp listed
      simp only [decide_eq_true_eq] at sent
      exact calm req listed (away req listed (.inl sent.2))
    have sends : (osdc.resent osd ++ (rest ++ rekicked osd now).flatMap after.sentEvents) =
        after.reqUnsent.flatMap after.sentEvents := by
      rw [queue, ← again, append_assoc, flatMap_append, flatMap_append, flatMap_append]
    refine ⟨(rest ++ rekicked osd now).flatMap after.sentEvents, ?_, ?_, ?_, ?_, ?_⟩
    · rw [append_assoc, sends, ← fields.2.2.2.2, ← log]
      exact sends_log
    · intro req listed unsent
      have stays := away req listed (.inr unsent)
      refine List.mem_flatMap.mpr ⟨req, mem_append_left _ (waits req ?_ ?_ stays), ?_⟩
      · rw [fields.2.1]
        exact (kept.queued.pending osd req listed).resolve_left (not_not.mpr unsent)
      · rw [sentRequests]
        simp [unsent]
      · rw [calm req listed stays]
        exact mem_singleton_self _
    · intro req lingers
      have listed : req ∈ rekicked osd now := by
        rcases lingers with lingers | ⟨listed, lingers, sent⟩
        · refine mem_append_left _ ?_
          rw [session.2.1]
          exact lingers
        · refine mem_append_right _ ?_
          rw [sentRequests, fields.1]
          simp [listed, lingers, sent]
      have known : req ∈ osdc.requests ∨ req ∈ osdc.reqLinger := by
        rcases lingers with lingers | ⟨listed, -, -⟩
        · exact .inr ((kept.queued.linked.hereLinger osd req).mp lingers).1
        · exact .inl ((kept.queued.linked.here osd req).mp listed).1
      obtain ⟨hangs, later⟩ := rekicked' req listed
      refine ⟨(after.req req).tid, ?_, ?_⟩
      · rw [fields.2.2.2.1] at later
        exact (kept.queued.tids req known).trans_lt later
      · refine List.mem_flatMap.mpr ⟨req, mem_append_right _ listed, ?_⟩
        rw [event req hangs]
        exact mem_singleton_self _
    · rw [sends]
      exact linked.distinct.2.2.sublist sends_sentEvents
    · rintro req (listed | lingers)
      · have on := (kept.queued.linked.here osd req).mp listed
        exact kept.queued.past osd req ⟨.inl on.1, on.2⟩
      · have on := (kept.queued.linked.hereLinger osd req).mp lingers
        exact kept.queued.past osd req ⟨.inr on.1, on.2⟩

theorem Kept.init {req : ReqId → OsdRequest} : Kept (CephOsdClient.init req : CephOsdClient μ) := by
  refine ⟨⟨Linked.init, ?_, ?_, ?_, ?_, ?_, ?_⟩, ?_⟩
  · simp [CephOsdClient.init]
  · simp [CephOsdClient.init]
  · simp [CephOsdClient.init]
  · simp [CephOsdClient.init]
  · simp [CephOsdClient.init]
  · simp [On, CephOsdClient.init]
  · intro osd
    simp [CephOsdClient.init]

/-- If every map that is handled keeps the queue, a reset sends everything of its session again, in
order. -/
theorem osdReset_resends {req : ReqId → OsdRequest} (reached : Reached (OsdCall.run ops)
    (fun call osdc => call.Proper osdc ∧ call.Keeps ops osdc) (.init req) osdc)
    (have' : osdc.osdmap = some map) (done : (osdc.resetOsd ops map osd).1 = .done) :
    ∃ after later, OsdCall.run ops (.reset osd) osdc = .ok after ∧ Resends osd osdc after later := by
  have kept : Kept osdc := by
    refine @Reached.preserved _ _ _ _ _ (fun osdc => Kept osdc) _ _ ?_ Kept.init reached
    exact fun call before after meets holds ran => OsdCall.kept holds meets.1 meets.2 ran
  obtain ⟨later, resends⟩ := kept.resends done
  refine ⟨osdc.osdReset ops map osd, later, ?_, resends⟩
  simp only [OsdCall.run, CephOsdClient.map, have']
  rfl

end

def twoPools : PoolMap := { epoch := 1, pools := [(1, 3), (2, 3)] }

/-- Two writes are sent again in their order. -/
theorem osdReset_resends_writes : ∃ (osdc after : CephOsdClient PoolMap) (later : List OsdEvent),
    osdc.resent 3 = [.sent 3 2 7 1, .sent 3 2 8 2] ∧ Resends 3 osdc after later := by
  have mapped : Reached (OsdCall.run poolOps) (fun call osdc => call.Proper osdc ∧ call.Keeps poolOps osdc)
      (.init fun _ => poolWrite 1 false) _ :=
    Reached.start.next (.newMap twoPools (fun _ => true) false false) ⟨trivial, by
      refine ⟨?_, ?_, ?_⟩ <;> intro req listed <;> cases listed⟩ rfl
  have first := mapped.next (.start 7 (poolWrite 1 false) false true)
    ⟨⟨by decide, by decide, by decide, poolWrite_fresh 1 false⟩, trivial⟩ rfl
  have second := first.next (.start 8 (poolWrite 2 false) false true)
    ⟨⟨by decide +kernel, by decide +kernel, by decide +kernel, poolWrite_fresh 2 false⟩, trivial⟩ rfl
  have opened := second.next (.connection 3 true) ⟨trivial, trivial⟩ rfl
  obtain ⟨after, later, -, resends⟩ := @osdReset_resends _ poolOps twoPools _ 3 _ opened rfl (by decide +kernel)
  exact ⟨_, after, later, by decide +kernel, resends⟩

/-- Two incrementals come in one message: the first moves the pool of a write to another osd, and the
second deletes the pool. The write stays before a later one on its session. -/
theorem osdReset_forgets : ∃ osdc after : CephOsdClient PoolMap,
    Reached (OsdCall.run poolOps) OsdCall.Proper (.init fun _ => poolWrite 1 false) osdc ∧
    (osdc.resetOsd poolOps { epoch := 3, pools := [(1, 4)] } 4).1 = .done ∧
    OsdCall.run poolOps (.reset 4) osdc = .ok after ∧ ¬ ∃ later, Resends 4 osdc after later := by
  have mapped : Reached (OsdCall.run poolOps) OsdCall.Proper (.init fun _ => poolWrite 1 false) _ :=
    Reached.start.next (.newMap twoPools (fun _ => true) false false) trivial rfl
  have first := mapped.next (.start 7 (poolWrite 2 false) false true)
    ⟨by decide, by decide, by decide, poolWrite_fresh 2 false⟩ rfl
  have moved := first.next (.newMap { epoch := 2, pools := [(1, 3), (2, 4)] } (fun _ => true) false false) trivial rfl
  have deleted := moved.next (.newMap { epoch := 3, pools := [(1, 4)] } (fun _ => true) false false) trivial rfl
  have second := deleted.next (.start 8 (poolWrite 1 false) false true)
    ⟨by decide +kernel, by decide +kernel, by decide +kernel, poolWrite_fresh 1 false⟩ rfl
  have opened := second.next (.connection 4 true) trivial rfl
  refine ⟨_, _, opened, by decide +kernel, rfl, ?_⟩
  rintro ⟨later, resends⟩
  have lost := @Resends.again _ _ _ _ _ (.sent 4 2 8 2) resends (by decide +kernel)
  revert lost
  decide +kernel

end KmodCeph.OsdClient
