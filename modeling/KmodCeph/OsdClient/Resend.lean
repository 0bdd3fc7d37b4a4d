import KmodCeph.OsdClient.Queue

namespace KmodCeph.OsdClient

open Lib CephOsdClient List

variable {μ : Type}

structure Kept (osdc : CephOsdClient μ) : Prop where
  queued : Queued osdc
  inOrder : InOrder osdc

section

variable {ops : MapOps μ} {map : μ} {osdc before after : CephOsdClient μ} {req : ReqId} {osd : OsdNum}

theorem Kept.of_same (kept : Kept before) (same : SameQueue before after) : Kept after :=
  ⟨kept.queued.of_same same, kept.inOrder.of_same same⟩

theorem Kept.detach (kept : Kept osdc) : Kept (osdc.detach req) :=
  ⟨kept.queued.detach, kept.inOrder.detach⟩

theorem Kept.unregistered (kept : Kept osdc) : Kept (osdc.unregisterRequest req) := by
  by_cases registered : req ∈ osdc.requests
  · rw [kept.queued.linked.unregister registered]
    exact kept.detach
  · rw [unregisterRequest, if_pos registered]
    exact kept

theorem Kept.unlingered (kept : Kept osdc) : Kept (osdc.unregisterLingerRequest req) := by
  by_cases lingers : req ∈ osdc.reqLinger
  · rw [kept.queued.linked.unregisterLinger lingers]
    exact kept.detach
  · rw [unregisterLingerRequest, if_pos lingers]
    exact kept

theorem Kept.unplace (kept : Kept osdc) {acting : List Int} : Kept (osdc.unplace acting req) :=
  ⟨kept.queued.unplace, kept.inOrder.unplace⟩

theorem Kept.place (kept : Kept osdc) (registered : req ∈ osdc.requests) (free : (osdc.req req).osd = none)
    (there : osd ∈ osdc.osds) : Kept (osdc.place osd req) :=
  ⟨kept.queued.place registered free there, kept.inOrder.place (kept.queued.idle req registered free)⟩

theorem Kept.createOsd (kept : Kept osdc) (absent : osd ∉ osdc.osds) (number : 0 ≤ osd) {addr : EntityAddr} :
    Kept (osdc.createOsd osd addr) :=
  ⟨kept.queued.createOsd absent number, kept.inOrder.createOsd⟩

theorem Kept.notarget (kept : Kept osdc)
    (settled : ∀ osd, req ∈ (osdc.session osd).requests → (osdc.req req).sent ≠ 0) : Kept (osdc.moveNotarget req) :=
  ⟨kept.queued.notarget settled, kept.inOrder⟩

theorem setNotarget_queue {list : List ReqId} : SameQueue osdc { osdc with reqNotarget := list } :=
  ⟨⟨rfl, rfl, fun _ => id, id, rfl, fun _ => rfl, fun _ => ⟨rfl, rfl⟩⟩, rfl, rfl, fun _ => ⟨rfl, rfl⟩, fun _ => rfl⟩

variable {acting : List Int} {o : OsdNum} {reply : OsdReply} {other : ReqId} {force forceWrites : Bool}

theorem Kept.moved (kept : Kept osdc) {memory : Bool}
    (registered : req ∈ osdc.requests) : Kept (osdc.moveRequest ops map memory acting o req).2 := by
  have unplaced := @Kept.unplace _ _ req kept acting
  have free : ((osdc.unplace acting req).req req).osd = none := by simp [CephOsdClient.unplace]
  rw [kept.queued.linked.move]
  split
  next there => exact unplaced.place registered free there
  next absent =>
    split
    next number =>
      split
      · have created : Kept ((osdc.unplace acting req).createOsd o (ops.addr map o)) := unplaced.createOsd absent number
        exact created.place registered free (by simp [CephOsdClient.createOsd])
      · exact unplaced.of_same setNotarget_queue
    next => exact unplaced.of_same setNotarget_queue

theorem requestMapping_error {forceResend : Bool} {session : OsdNum → OsdSession} {r : OsdRequest}
    (failed : (requestMapping ops map forceResend session r).2 = .error) : (calcRequestPg ops map r).2 = none := by
  unfold requestMapping at failed
  cases found : calcRequestPg ops map r with
  | mk mapped pg =>
    rw [found] at failed
    cases pg with
    | none => rfl
    | some pgid =>
      rw [apply_ite Prod.snd] at failed
      rcases ite_eq_iff.mp failed with ⟨-, equal⟩ | ⟨-, equal⟩ <;> cases equal

/-- The mapping of a request that waits on a session does not fail. -/
def Maps (ops : MapOps μ) (map : μ) (r : OsdRequest) : Prop :=
  r.osd.isSome → r.sent = 0 → (calcRequestPg ops map r).2.isSome

theorem requestMapping_kept {forceResend : Bool} {session : OsdNum → OsdSession} {r : OsdRequest} :
    (requestMapping ops map forceResend session r).1.osd = r.osd ∧
    (requestMapping ops map forceResend session r).1.sent = r.sent ∧
    (requestMapping ops map forceResend session r).1.tid = r.tid ∧
    (requestMapping ops map forceResend session r).1.linger = r.linger := by
  obtain ⟨_, _, _, _, same⟩ := @requestMapping_fields μ ops map forceResend session r
  rw [same]
  exact ⟨rfl, rfl, rfl, rfl⟩

theorem Kept.mapped (kept : Kept osdc) {memory forceResend : Bool} (registered : req ∈ osdc.requests)
    (maps : Maps ops map (osdc.req req)) : Kept (osdc.mapRequest ops map memory forceResend req).2 := by
  have fields := @requestMapping_kept _ ops map forceResend osdc.session (osdc.req req)
  have failed := @requestMapping_error _ ops map forceResend osdc.session (osdc.req req)
  unfold mapRequest
  generalize requestMapping ops map forceResend osdc.session (osdc.req req) = result at fields failed
  obtain ⟨r, mapping⟩ := result
  have set' : Kept (osdc.setReq req fun _ => r) := kept.of_same (setReq_queue ⟨fields.1, fields.2.1, fields.2.2.1⟩)
  cases mapping with
  | error =>
    refine set'.notarget fun osd listed unsent => ?_
    have hangs := ((kept.queued.linked.here osd req).mp listed).2
    have sent : (osdc.req req).sent = 0 := fields.2.1.symm.trans (by simpa [setReq] using unsent)
    have found := maps (by rw [hangs]; rfl) sent
    rw [failed rfl] at found
    cases found
  | unchanged => exact set'
  | moved acting o => exact set'.moved registered

section

variable (kept : Kept osdc) (unregistered : req ∉ osdc.requests) (off : req ∉ osdc.reqLinger)
include kept unregistered off

theorem Kept.setUnknown (change : OsdRequest → OsdRequest) : Kept (osdc.setReq req change) := by
  have away : ∀ osd, req ∉ (osdc.session osd).requests := fun osd listed =>
    unregistered ((kept.queued.linked.here osd req).mp listed).1
  have same : ∀ other, other ≠ req → (osdc.setReq req change).req other = osdc.req other :=
    fun other differs => by simp [setReq, differs]
  refine ⟨⟨kept.queued.linked.setUnknown unregistered off _, ?_, ?_, kept.queued.alive, kept.queued.numbers, ?_, ?_⟩, ?_⟩
  · intro osd other listed
    rw [same other fun equal => away osd (equal ▸ listed)]
    exact kept.queued.pending osd other listed
  · intro other listed
    rw [same other fun equal => unregistered (equal ▸ listed)]
    exact kept.queued.idle other listed
  · intro other listed
    rw [same other fun equal => by
      subst equal
      exact listed.elim unregistered off]
    exact kept.queued.tids other listed
  · intro osd other on
    have differs : other ≠ req := by
      rintro rfl
      exact on.1.elim unregistered off
    rw [same other differs]
    exact kept.queued.past osd other ⟨on.1, by rw [← same other differs]; exact on.2⟩
  · intro osd
    refine (kept.inOrder osd).imp_of_mem fun {earlier later} first second ordered => ?_
    rw [same later fun equal => away osd (equal ▸ second), same earlier fun equal => away osd (equal ▸ first)]
    exact ordered

theorem Kept.registered (free : (osdc.req req).osd = none) :
    Kept ((osdc.registerRequest req).setReq req fun r => { r with sent := 0, gotReply := false }) := by
  have equal : (osdc.registerRequest req).setReq req (fun r => { r with sent := 0, gotReply := false }) =
      (osdc.setReq req fun r => { r with sent := 0, gotReply := false }).registerRequest req := by
    simp only [registerRequest, setReq, Function.update_self, Function.update_idem]
  have cleared := kept.setUnknown unregistered off fun r => { r with sent := 0, gotReply := false }
  rw [equal]
  have free' : ((osdc.setReq req fun r => { r with sent := 0, gotReply := false }).req req).osd = none := by
    simpa [setReq] using free
  exact ⟨cleared.queued.register unregistered off free' (by simp [setReq]), cleared.inOrder.setTid⟩

theorem Kept.started {memory nofail : Bool} (free : (osdc.req req).osd = none) :
    Kept (osdc.startRequest ops map memory nofail req) := by
  have new := kept.registered unregistered off free
  have free' : (((osdc.registerRequest req).setReq req fun r => { r with sent := 0, gotReply := false }).req req).osd =
      none := by
    simpa [setReq, registerRequest] using free
  have mapped := @Kept.mapped _ ops map _ req new memory false
    (mem_append_right _ (mem_singleton_self req)) (fun waits => by rw [free'] at waits; cases waits)
  unfold startRequest
  dsimp only
  split
  next now result =>
    rw [result] at mapped
    split
    · exact mapped
    · exact mapped.unregistered
  next now _ result =>
    rw [result] at mapped
    split
    · exact mapped
    · exact ⟨mapped.queued.send.1, mapped.queued.send.2⟩

end

theorem Kept.settled (kept : Kept osdc) (registered : req ∈ osdc.requests) : Kept (osdc.settleReply reply req) := by
  unfold CephOsdClient.settleReply
  by_cases lingers : (osdc.req req).linger ∧ reply.flagsOndisk
  · rw [if_pos lingers, if_pos (.inr (.inl lingers.2)), kept.queued.linked.linger_eq registered]
    have detached := @Kept.detach _ _ req kept
    split
    · have tid : ((osdc.detach req).req req).tid ≤ (osdc.detach req).lastTid := by
        simpa [CephOsdClient.detach] using kept.queued.tids req (.inl registered)
      have free : ((osdc.detach req).req req).osd = none := by simp [CephOsdClient.detach]
      exact ⟨detached.queued.registerLinger (by simp [CephOsdClient.detach]) (by simp [CephOsdClient.detach]) free tid,
        detached.inOrder.registerLinger free⟩
    · next osd hangs => exact ⟨kept.queued.lingered registered hangs, kept.inOrder.lingered⟩
  · rw [if_neg lingers]
    split
    · exact kept.unregistered
    · exact kept

theorem Kept.replied (kept : Kept osdc) {memory : Bool} : Kept (osdc.handleReply ops map memory reply) := by
  unfold CephOsdClient.handleReply
  split
  · exact kept
  · cases found : osdc.lookup reply.tid with
    | none => exact kept
    | some req =>
      have registered := lookup_registered found
      dsimp only
      split
      · have failed : Kept (osdc.setReq req fun r => { r with result := -5 }) := kept.of_same (setReq_queue ⟨rfl, rfl, rfl⟩)
        exact failed.unregistered.of_same note_queue
      · split
        · unfold CephOsdClient.redirectReply
          rw [kept.queued.linked.unregister registered]
          refine Kept.started (kept.detach.of_same (setReq_queue ⟨rfl, rfl, rfl⟩)) ?_ ?_ ?_ <;>
            simp [CephOsdClient.detach, CephOsdClient.setReq]
        · unfold CephOsdClient.plainReply
          split
          · have set' : Kept (osdc.setReq req reply.answer) := kept.of_same (setReq_queue ⟨rfl, rfl, rfl⟩)
            exact (set'.settled registered).of_same note_queue
          · split
            · exact kept
            · exact (kept.settled registered).of_same note_queue

theorem Kept.reset (kept : Kept osdc) : Kept (osdc.resetOsd ops map osd).2 := by
  have linked := @Linked.reset _ ops map _ osd kept.queued.linked
  unfold resetOsd at linked ⊢
  dsimp only at linked ⊢
  split at linked
  next idle =>
    rw [if_pos idle]
    exact ⟨kept.queued.removed idle, kept.inOrder⟩
  next busy =>
    rw [if_neg busy]
    split at linked
    next never =>
      rw [if_pos never]
      exact kept
    next changed =>
      rw [if_neg changed]
      have lists : ∀ other, ((osdc.setSession osd fun s => { s with
          peerAddr := ops.addr map osd
          opened := false
          incarnation := s.incarnation + 1 }).session other).requests = (osdc.session other).requests := by
        intro other
        by_cases here : other = osd
        · subst here
          simp [setSession]
        · simp [setSession, here]
      refine ⟨⟨linked, ?_, kept.queued.idle, ?_, kept.queued.numbers, kept.queued.tids, ?_⟩, ?_⟩
      · intro other req listed
        rw [lists] at listed
        exact kept.queued.pending other req listed
      · intro other listed
        by_cases here : other = osd
        · subst here
          simp [setSession]
        · simpa [setSession, here] using kept.queued.alive other listed
      · intro other req on
        have below := kept.queued.past other req on
        by_cases here : other = osd
        · subst here
          simp only [setSession, Function.update_self]
          omega
        · simpa [setSession, here] using below
      · intro other
        rw [lists]
        exact kept.inOrder other

theorem Kept.resetChanged (kept : Kept osdc) : Kept (osdc.resetChangedOsds ops map) := by
  refine @foldlRecOn _ _ (fun now => Kept now) _ _ _ kept ?_
  intro now kept osd _
  split
  · exact kept.reset
  · exact kept

theorem requestMapping_congr {forceResend : Bool} {first second : OsdNum → OsdSession} {r : OsdRequest}
    (same : ∀ osd, r.osd = some osd → (first osd).incarnation = (second osd).incarnation) :
    requestMapping ops map forceResend first r = requestMapping ops map forceResend second r := by
  have hangs : (calcRequestPg ops map r).1.osd = r.osd := by
    obtain ⟨_, _, same⟩ := @calcRequestPg_fields _ ops map r
    rw [same]
  unfold requestMapping
  cases found : calcRequestPg ops map r with
  | mk mapped pg =>
    rw [found] at hangs
    cases pg with
    | none => rfl
    | some pgid =>
      cases on : mapped.osd with
      | none => simp only [on]
      | some osd =>
        have equal := same osd (hangs.symm.trans on)
        simp only [on, equal]

def Stays (ops : MapOps μ) (map : μ) (forceResend : Bool) (session : OsdNum → OsdSession) (r : OsdRequest) : Prop :=
  ∀ acting o, (requestMapping ops map forceResend session r).2 = .moved acting o → o < 0

structure Others (req : ReqId) (before after : CephOsdClient μ) : Prop where
  req : ∀ other, other ≠ req → after.req other = before.req other
  osds : ∀ osd ∈ before.osds, osd ∈ after.osds
  incarnation : ∀ osd ∈ before.osds, (after.session osd).incarnation = (before.session osd).incarnation

theorem Others.trans {middle : CephOsdClient μ} (first : Others req before middle) (second : Others req middle after) :
    Others req before after where
  req := fun other differs => (second.req other differs).trans (first.req other differs)
  osds := fun osd there => second.osds osd (first.osds osd there)
  incarnation := fun osd there => (second.incarnation osd (first.osds osd there)).trans (first.incarnation osd there)

theorem Others.setReq {change : OsdRequest → OsdRequest} : Others req osdc (osdc.setReq req change) :=
  ⟨fun other differs => by simp [CephOsdClient.setReq, differs], fun _ => id, fun _ _ => rfl⟩

theorem Others.moveNotarget : Others req osdc (osdc.moveNotarget req) :=
  ⟨fun _ _ => rfl, fun _ => id, fun _ _ => rfl⟩

theorem Others.moved (linked : Linked osdc) {memory : Bool} :
    Others req osdc (osdc.moveRequest ops map memory acting o req).2 := by
  rw [linked.move]
  split
  next there =>
    refine ⟨fun other differs => by simp [place, unplace, differs], fun _ => id, ?_⟩
    intro osd _
    by_cases here : osd = o
    · subst here
      simp [place, unplace]
    · simp [place, unplace, here]
  next absent =>
    split
    · split
      · refine ⟨?_, ?_, ?_⟩
        · intro other differs
          simp [place, unplace, createOsd, differs]
        · intro osd there
          have differs : osd ≠ o := fun same => absent (same ▸ there)
          rcases lt_or_gt_of_ne differs with below | above
          · simp [place, unplace, createOsd, there, below]
          · simp [place, unplace, createOsd, there, above]
        · intro osd there
          have differs : osd ≠ o := fun same => absent (same ▸ there)
          simp [place, unplace, createOsd, differs]
      · exact ⟨fun other differs => by simp [unplace, differs], fun _ => id, fun _ _ => rfl⟩
    · exact ⟨fun other differs => by simp [unplace, differs], fun _ => id, fun _ _ => rfl⟩

theorem Others.mapped (linked : Linked osdc) {memory forceResend : Bool} :
    Others req osdc (osdc.mapRequest ops map memory forceResend req).2 := by
  have kept := @requestMapping_kept _ ops map forceResend osdc.session (osdc.req req)
  unfold mapRequest
  generalize requestMapping ops map forceResend osdc.session (osdc.req req) = result at kept
  obtain ⟨r, mapping⟩ := result
  have set' : Linked (osdc.setReq req fun _ => r) := linked.of_same (setReq_same kept.1)
  cases mapping with
  | error => exact Others.setReq.trans .moveNotarget
  | unchanged =>
    have set'' : Others req osdc (osdc.setReq req fun _ => r) := .setReq
    exact set''
  | moved acting o => exact Others.setReq.trans (.moved set')

theorem Stays.later {forceResend : Bool} (stays : Stays ops map forceResend before.session (before.req req))
    (others : Others other before after) (differs : req ≠ other)
    (there : ∀ osd, (before.req req).osd = some osd → osd ∈ before.osds) :
    Stays ops map forceResend after.session (after.req req) := by
  intro acting o moved
  rw [others.req req differs, @requestMapping_congr _ ops map forceResend after.session before.session _
    fun osd hangs => others.incarnation osd (there osd hangs)] at moved
  exact stays acting o moved

theorem Kept.kicked (kept : Kept osdc) {memory : ReqId → Bool} {force forceWrites : Bool} (registered : req ∈ osdc.requests)
    (maps : (osdc.req req).linger = false → Maps ops map (osdc.req req)) :
    Kept (osdc.kickRequest ops map memory force forceWrites req) := by
  unfold CephOsdClient.kickRequest
  split
  next lingers =>
    rw [kept.queued.linked.unregister registered]
    have detached := @Kept.detach _ _ req kept
    have tid : ((osdc.detach req).req req).tid ≤ (osdc.detach req).lastTid := by
      simpa [CephOsdClient.detach] using kept.queued.tids req (.inl registered)
    have free : ((osdc.detach req).req req).osd = none := by simp [CephOsdClient.detach]
    exact ⟨detached.queued.registerLinger (by simp [CephOsdClient.detach]) (by simp [CephOsdClient.detach]) free tid,
      detached.inOrder.registerLinger free⟩
  next regular =>
    have stays : (osdc.req req).linger = false := by
      cases lingers : (osdc.req req).linger with
      | false => rfl
      | true => exact absurd ⟨lingers, kept.queued.linked.apart req registered⟩ regular
    have mapped := @Kept.mapped _ ops map _ req kept (memory req)
      (force || (forceWrites && (osdc.req req).flags.write)) registered (maps stays)
    dsimp only
    split
    next now result =>
      rw [result] at mapped
      split
      · exact mapped.of_same (setReq_queue ⟨rfl, rfl, rfl⟩)
      · exact mapped
    next now _ result =>
      rw [result] at mapped
      exact mapped

theorem Others.kicked (linked : Linked osdc) {memory : ReqId → Bool} {force forceWrites : Bool}
    (registered : req ∈ osdc.requests) : Others req osdc (osdc.kickRequest ops map memory force forceWrites req) := by
  unfold kickRequest
  split
  next lingers =>
    rw [linked.unregister registered]
    have equal : (osdc.detach req).registerLingerRequest req =
        { osdc.detach req with reqLinger := (osdc.detach req).reqLinger ++ [req] } := by
      simp only [registerLingerRequest, detach, Function.update_self]
    rw [equal]
    exact ⟨fun other differs => by simp [detach, differs], fun _ => id, fun _ _ => rfl⟩
  next =>
    have mapped := @Others.mapped _ ops map _ req linked (memory req)
      (force || (forceWrites && (osdc.req req).flags.write))
    dsimp only
    split
    next now result =>
      rw [result] at mapped
      split
      · exact mapped.trans .setReq
      · exact mapped
    next now _ result =>
      rw [result] at mapped
      exact mapped

theorem kickRequest_lingers (linked : Linked osdc) {memory : ReqId → Bool} (registered : req ∈ osdc.requests)
    (lingers : other ∈ (osdc.kickRequest ops map memory force forceWrites req).reqLinger) :
    other ∈ osdc.reqLinger ∨ other = req ∧ (osdc.req req).linger ∧
      (osdc.kickRequest ops map memory force forceWrites req).req req = { osdc.req req with osd := none } := by
  by_cases stays : (osdc.req req).linger ∧ req ∉ osdc.reqLinger
  · have equal : osdc.kickRequest ops map memory force forceWrites req =
        { osdc.detach req with reqLinger := (osdc.detach req).reqLinger ++ [req] } := by
      rw [kickRequest, if_pos stays, linked.unregister registered]
      simp only [registerLingerRequest, detach, Function.update_self]
    rw [equal] at lingers ⊢
    rcases List.mem_append.mp lingers with was | last
    · exact .inl (List.mem_filter.mp was).1
    · exact .inr ⟨List.mem_singleton.mp last, stays.1, by simp [detach]⟩
  · left
    have mapped := @ledger_mapRequest _ ops map osdc req (memory req)
      (force || (forceWrites && (osdc.req req).flags.write))
    rw [kickRequest, if_neg stays] at lingers
    dsimp only at lingers
    split at lingers
    next now result =>
      rw [result] at mapped
      rw [← (requests_of_ledger mapped).2]
      split at lingers
      · exact lingers
      · exact lingers
    next now _ result =>
      rw [result] at mapped
      rw [← (requests_of_ledger mapped).2]
      exact lingers

def LingersStay (ops : MapOps μ) (map : μ) (forceResend : Bool) (osdc : CephOsdClient μ) : Prop :=
  ∀ req ∈ osdc.reqLinger, Stays ops map forceResend osdc.session (osdc.req req)

theorem Kept.kickedAll {reqs : List ReqId} (kept : Kept osdc) {memory : ReqId → Bool} {force forceWrites : Bool}
    (registered : ∀ req ∈ reqs, req ∈ osdc.requests) (distinct : reqs.Nodup)
    (maps : ∀ req ∈ reqs, (osdc.req req).linger = false → Maps ops map (osdc.req req))
    (stay : ∀ req ∈ reqs, (osdc.req req).linger →
      Stays ops map (force || forceWrites) osdc.session { osdc.req req with osd := none })
    (linger : LingersStay ops map (force || forceWrites) osdc) :
    Kept (reqs.foldl (kickRequest ops map memory force forceWrites) osdc) ∧
    LingersStay ops map (force || forceWrites) (reqs.foldl (kickRequest ops map memory force forceWrites) osdc) := by
  induction reqs generalizing osdc with
  | nil => exact ⟨kept, linger⟩
  | cons req rest ih =>
    obtain ⟨first, distinct⟩ := List.nodup_cons.mp distinct
    have known := registered req mem_cons_self
    have others := @Others.kicked _ ops map _ req kept.queued.linked memory force forceWrites known
    have differs : ∀ other ∈ rest, other ≠ req := fun other listed same => first (same ▸ listed)
    refine ih (kept.kicked known (maps req mem_cons_self)) ?_ distinct ?_ ?_ ?_
    · exact fun other listed => kickRequest_registered (registered other (mem_cons_of_mem _ listed))
        (differs other listed)
    · intro other listed
      rw [others.req other (differs other listed)]
      exact maps other (mem_cons_of_mem _ listed)
    · intro other listed
      rw [others.req other (differs other listed)]
      intro lingers acting o moved
      refine stay other (mem_cons_of_mem _ listed) lingers acting o ?_
      rw [← moved, requestMapping_congr fun osd hangs => by cases hangs]
    · intro other lingers
      rcases kickRequest_lingers kept.queued.linked known lingers with was | ⟨rfl, lingers, free⟩
      · have apart : other ≠ req := fun same => kept.queued.linked.apart req known (same ▸ was)
        exact (linger other was).later others apart (kept.queued.linked.there (.inr was))
      · intro acting o moved
        refine stay other mem_cons_self lingers acting o ?_
        rw [← moved, free, requestMapping_congr fun osd hangs => by cases hangs]

/-- A lingering request without a session to move to keeps its place or loses it. -/
theorem Kept.kickedLinger (kept : Kept osdc) {memory : ReqId → Bool} {force : Bool} (lingers : req ∈ osdc.reqLinger)
    (stays : Stays ops map force osdc.session (osdc.req req)) : Kept (osdc.kickLinger ops map memory force req) ∧
      Others req osdc (osdc.kickLinger ops map memory force req) ∧
      (osdc.kickLinger ops map memory force req).reqLinger = osdc.reqLinger := by
  have fields := @requestMapping_kept _ ops map force osdc.session (osdc.req req)
  have off : ∀ osd, req ∉ (osdc.session osd).requests := fun osd listed =>
    kept.queued.linked.apart req ((kept.queued.linked.here osd req).mp listed).1 lingers
  unfold Stays at stays
  unfold CephOsdClient.kickLinger CephOsdClient.mapRequest
  generalize requestMapping ops map force osdc.session (osdc.req req) = result at fields stays
  obtain ⟨r, mapping⟩ := result
  have set' : Kept (osdc.setReq req fun _ => r) := kept.of_same (setReq_queue ⟨fields.1, fields.2.1, fields.2.2.1⟩)
  have others : Others req osdc (osdc.setReq req fun _ => r) := .setReq
  cases mapping with
  | error => exact ⟨set'.notarget fun osd listed => absurd listed (off osd), others.trans .moveNotarget, rfl⟩
  | unchanged => exact ⟨set', others, rfl⟩
  | moved acting o =>
    have below : o < 0 := stays acting o rfl
    have absent : o ∉ (osdc.setReq req fun _ => r).osds := fun there =>
      absurd (set'.queued.numbers o there) (not_le.mpr below)
    have unplaced := @Kept.unplace _ _ req set' acting
    have equal := @Linked.move _ ops map (memory req) acting o _ req set'.queued.linked
    rw [if_neg (by exact absent), if_neg (not_le.mpr below)] at equal
    dsimp only
    rw [equal]
    dsimp only
    rw [if_pos (by simp [CephOsdClient.unplace])]
    exact ⟨unplaced.of_same setNotarget_queue, others.trans
      ⟨fun other differs => by simp [CephOsdClient.unplace, differs], fun _ => id, fun _ _ => rfl⟩, rfl⟩

theorem Kept.kickedLingers {reqs : List ReqId} (kept : Kept osdc) {memory : ReqId → Bool}
    (lingers : ∀ req ∈ reqs, req ∈ osdc.reqLinger) (distinct : reqs.Nodup)
    (stay : ∀ req ∈ reqs, Stays ops map force osdc.session (osdc.req req)) :
    Kept (reqs.foldl (kickLinger ops map memory force) osdc) := by
  induction reqs generalizing osdc with
  | nil => exact kept
  | cons req rest ih =>
    obtain ⟨first, distinct⟩ := List.nodup_cons.mp distinct
    have here := lingers req mem_cons_self
    obtain ⟨kept', others, same⟩ := @Kept.kickedLinger _ ops map _ req kept memory force here (stay req mem_cons_self)
    refine ih kept' ?_ distinct ?_
    · rw [same]
      exact fun other listed => lingers other (mem_cons_of_mem _ listed)
    · intro other listed
      have differs : other ≠ req := fun same => first (same ▸ listed)
      exact (stay other (mem_cons_of_mem _ listed)).later others differs
        (kept.queued.linked.there (.inr (lingers other (mem_cons_of_mem _ listed))))

/-- A map keeps the queue if what waits on a session can be mapped and no lingering request moves to a
session. -/
def CephOsdClient.Keeps (ops : MapOps μ) (map : μ) (forceResend : Bool) (osdc : CephOsdClient μ) : Prop :=
  (∀ req ∈ osdc.requests, (osdc.req req).linger = false → Maps ops map (osdc.req req)) ∧
  (∀ req ∈ osdc.requests, (osdc.req req).linger →
    Stays ops map forceResend osdc.session { osdc.req req with osd := none }) ∧
  LingersStay ops map forceResend osdc

theorem Kept.kickedRequests (kept : Kept osdc) {memory : ReqId → Bool}
    (keeps : osdc.Keeps ops map (force || forceWrites)) : Kept (osdc.kickRequests ops map memory force forceWrites) := by
  obtain ⟨first, stay⟩ := @Kept.kickedAll _ ops map _ _ kept memory force forceWrites (fun _ => id)
    kept.queued.linked.distinct.1 keeps.1 keeps.2.1 keeps.2.2
  exact (first.kickedLingers (fun _ => id) first.queued.linked.distinct.2.1 stay).resetChanged

end

end KmodCeph.OsdClient
