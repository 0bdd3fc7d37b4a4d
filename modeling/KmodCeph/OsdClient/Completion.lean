import KmodCeph.OsdClient.Linked

namespace KmodCeph.OsdClient

open Lib CephOsdClient List OsdEvent

variable {μ : Type}

/-- Nothing is completed twice, and what is registered or lingers is completed only with a reply. -/
structure Ledger.Once (ledger : Ledger) : Prop where
  known : ∀ req, req ∈ ledger.requests ∨ req ∈ ledger.reqLinger → .started req ∈ ledger.noted
  begun : ∀ req, .completed req ∈ ledger.noted → .started req ∈ ledger.noted
  once : ∀ req, ledger.noted.count (.completed req) ≤ 1
  replied : ∀ req, .completed req ∈ ledger.noted → req ∈ ledger.requests ∨ req ∈ ledger.reqLinger →
    ledger.gotReply req = true

structure Ledger.Shrinks (before after : Ledger) : Prop where
  within : ∀ req, req ∈ after.requests ∨ req ∈ after.reqLinger → req ∈ before.requests ∨ req ∈ before.reqLinger
  gotReply : after.gotReply = before.gotReply
  noted : after.noted = before.noted

section

variable {before middle after ledger : Ledger} {req : ReqId} {ops : MapOps μ} {map : μ} {osdc : CephOsdClient μ}
variable {osd : OsdNum}

theorem Ledger.Shrinks.refl : ledger.Shrinks ledger :=
  ⟨fun _ => id, rfl, rfl⟩

theorem Ledger.Shrinks.trans (first : before.Shrinks middle) (second : middle.Shrinks after) : before.Shrinks after :=
  ⟨fun req listed => first.within req (second.within req listed), second.gotReply.trans first.gotReply,
    second.noted.trans first.noted⟩

theorem Ledger.Shrinks.of_eq (same : after = before) : before.Shrinks after := by
  rw [same]
  exact .refl

theorem Ledger.Once.shrinks (once : before.Once) (shrinks : before.Shrinks after) : after.Once where
  known := by
    rw [shrinks.noted]
    exact fun req listed => once.known req (shrinks.within req listed)
  begun := by
    rw [shrinks.noted]
    exact once.begun
  once := by
    rw [shrinks.noted]
    exact once.once
  replied := by
    rw [shrinks.noted, shrinks.gotReply]
    exact fun req completed listed => once.replied req completed (shrinks.within req listed)

theorem shrinks_unregister : ledger.Shrinks (ledger.unregister req) :=
  ⟨fun _ listed => listed.imp (fun member => (List.mem_filter.mp member).1) id, rfl, rfl⟩

theorem shrinks_unlinger : ledger.Shrinks (ledger.unlinger req) :=
  ⟨fun _ listed => listed.imp id fun member => (List.mem_filter.mp member).1, rfl, rfl⟩

theorem shrinks_register (lingers : req ∈ ledger.requests ∨ req ∈ ledger.reqLinger) : ledger.Shrinks (ledger.register req) := by
  refine ⟨?_, rfl, rfl⟩
  rintro other (listed | listed)
  · rcases List.mem_append.mp listed with member | same
    · exact .inl member
    · cases List.mem_singleton.mp same
      exact lingers
  · exact .inr listed

theorem shrinks_linger (registered : req ∈ ledger.requests ∨ req ∈ ledger.reqLinger) : ledger.Shrinks (ledger.linger req) := by
  refine ⟨?_, rfl, rfl⟩
  rintro other (listed | listed)
  · exact .inl listed
  · rcases List.mem_append.mp listed with member | same
    · exact .inr member
    · cases List.mem_singleton.mp same
      exact registered

theorem shrinks_exchange (known : req ∈ ledger.requests ∨ req ∈ ledger.reqLinger) :
    ledger.Shrinks ((ledger.unregister req).register req) ∧ ledger.Shrinks ((ledger.unlinger req).register req) ∧
    ledger.Shrinks ((ledger.unregister req).linger req) := by
  refine ⟨⟨?_, rfl, rfl⟩, ⟨?_, rfl, rfl⟩, ⟨?_, rfl, rfl⟩⟩ <;>
  · intro other listed
    by_cases same : other = req
    · rw [same]
      exact known
    · simpa [Ledger.register, Ledger.unregister, Ledger.linger, Ledger.unlinger, same] using listed

theorem kickLingerRequest_shrinks (known : req ∈ osdc.requests ∨ req ∈ osdc.reqLinger) :
    osdc.ledger.Shrinks (osdc.kickLingerRequest req).ledger := by
  have known' : req ∈ osdc.ledger.requests ∨ req ∈ osdc.ledger.reqLinger := known
  unfold kickLingerRequest
  rw [ledger_enqueueRequest, ledger_setReq]
  · rw [ledger_registerRequest]
    split
    · rw [ledger_unregisterLingerRequest]
      exact (shrinks_exchange known').2.1
    · rw [ledger_unregisterRequest]
      exact (shrinks_exchange known').1
  · rfl

variable {reqs : List ReqId} {force forceWrites unsafeCallback : Bool}

theorem kickLingers_shrinks (linked : Linked osdc) (on : ∀ req ∈ reqs, On osd osdc req) :
    osdc.ledger.Shrinks (reqs.foldl kickLingerRequest osdc).ledger := by
  induction reqs generalizing osdc with
  | nil => exact .refl
  | cons req rest ih =>
    have first := on req mem_cons_self
    refine (kickLingerRequest_shrinks first.1).trans (ih (linked.kickLinger first.1 first.2) ?_)
    exact fun other listed => (on other (mem_cons_of_mem _ listed)).kickLinger linked first

theorem kickOsdRequests_shrinks (linked : Linked osdc) :
    osdc.ledger.Shrinks (osdc.kickOsdRequests ops map osd).ledger := by
  have reset := @Linked.reset _ ops map _ osd linked
  have same := @ledger_resetOsd _ ops map osdc osd
  unfold kickOsdRequests
  generalize osdc.resetOsd ops map osd = result at reset same
  obtain ⟨answer, now⟩ := result
  cases answer with
  | noDev => exact .of_eq same
  | again => exact .of_eq same
  | done =>
    obtain ⟨_, _, _, _, requeued⟩ := @Linked.requeueSent _ now osd reset
    obtain ⟨on, onLinger⟩ := @Linked.requeueSent_on _ now osd reset
    obtain ⟨linked', on'⟩ := requeued.kickLingers onLinger on
    have moved : (now.requeueSent osd).2.ledger = osdc.ledger := ledger_requeueSent.trans same
    refine (Ledger.Shrinks.of_eq moved).trans ?_
    exact (kickLingers_shrinks requeued onLinger).trans (kickLingers_shrinks linked' on')

theorem kickRequest_shrinks {memory : ReqId → Bool} (registered : req ∈ osdc.requests) :
    osdc.ledger.Shrinks (osdc.kickRequest ops map memory force forceWrites req).ledger := by
  have known : req ∈ osdc.ledger.requests ∨ req ∈ osdc.ledger.reqLinger := .inl registered
  rcases @kickRequest_requests _ ops map osdc req memory force forceWrites with same | same
  · exact .of_eq same
  · rw [same]
    exact (shrinks_exchange known).2.2

theorem kickLinger_shrinks {memory : ReqId → Bool} (lingers : req ∈ osdc.reqLinger) :
    osdc.ledger.Shrinks (osdc.kickLinger ops map memory force req).ledger := by
  have known : req ∈ osdc.ledger.requests ∨ req ∈ osdc.ledger.reqLinger := .inr lingers
  rcases @kickLinger_ledger _ ops map osdc req memory force with same | same
  · exact .of_eq same
  · rw [same]
    exact (shrinks_register known).trans shrinks_unlinger

theorem settleReply_shrinks {reply : OsdReply} (registered : req ∈ osdc.requests) :
    osdc.ledger.Shrinks (osdc.settleReply reply req).ledger := by
  have known : req ∈ osdc.ledger.requests ∨ req ∈ osdc.ledger.reqLinger := .inl registered
  have lingered : osdc.ledger.Shrinks
      (if (osdc.req req).linger ∧ reply.flagsOndisk then osdc.registerLingerRequest req else osdc).ledger := by
    split
    · rw [ledger_registerLingerRequest]
      exact shrinks_linger known
    · exact .refl
  unfold settleReply
  dsimp only
  split
  · rw [ledger_unregisterRequest]
    exact lingered.trans shrinks_unregister
  · exact lingered

theorem kickAll_shrinks {memory : ReqId → Bool}
    (registered : ∀ req ∈ reqs, req ∈ osdc.requests) (distinct : reqs.Nodup) :
    osdc.ledger.Shrinks (reqs.foldl (kickRequest ops map memory force forceWrites) osdc).ledger := by
  induction reqs generalizing osdc with
  | nil => exact .refl
  | cons req rest ih =>
    obtain ⟨first, distinct⟩ := List.nodup_cons.mp distinct
    refine (kickRequest_shrinks (registered req mem_cons_self)).trans (ih ?_ distinct)
    exact fun other listed => kickRequest_registered (registered other (mem_cons_of_mem _ listed))
      fun same => first (same ▸ listed)

theorem kickLingerAll_shrinks {memory : ReqId → Bool}
    (lingers : ∀ req ∈ reqs, req ∈ osdc.reqLinger) (distinct : reqs.Nodup) :
    osdc.ledger.Shrinks (reqs.foldl (kickLinger ops map memory force) osdc).ledger := by
  induction reqs generalizing osdc with
  | nil => exact .refl
  | cons req rest ih =>
    obtain ⟨first, distinct⟩ := List.nodup_cons.mp distinct
    refine (kickLinger_shrinks (lingers req mem_cons_self)).trans (ih ?_ distinct)
    exact fun other listed => kickLinger_lingers (lingers other (mem_cons_of_mem _ listed))
      fun same => first (same ▸ listed)

theorem kickRequests_shrinks (linked : Linked osdc) {memory : ReqId → Bool} {force forceWrites : Bool} :
    osdc.ledger.Shrinks (osdc.kickRequests ops map memory force forceWrites).ledger := by
  have first : Linked (osdc.requests.foldl (kickRequest ops map memory force forceWrites) osdc) :=
    linked.kickedAll (fun _ => id) linked.distinct.1
  have kicked : osdc.ledger.Shrinks
      (osdc.requests.foldl (kickRequest ops map memory force forceWrites) osdc).ledger :=
    kickAll_shrinks (fun _ => id) linked.distinct.1
  refine kicked.trans ?_
  unfold kickRequests
  rw [ledger_resetChangedOsds]
  exact kickLingerAll_shrinks (fun _ => id) first.distinct.2.1

theorem ledger_startRequest {memory nofail : Bool} :
    let begun := (osdc.ledger.register req).reply req false
    (osdc.startRequest ops map memory nofail req).ledger = begun ∨
      (osdc.startRequest ops map memory nofail req).ledger = begun.unregister req := by
  have mapped := @ledger_mapRequest _ ops map ((osdc.registerRequest req).setReq req fun r =>
    { r with sent := 0, gotReply := false }) req memory false
  rw [ledger_reply rfl, ledger_registerRequest] at mapped
  unfold startRequest
  dsimp only
  split
  next now result =>
    rw [result] at mapped
    split
    · exact .inl mapped
    · right
      rw [ledger_unregisterRequest]
      exact congrArg (Ledger.unregister req) mapped
  next now _ result =>
    rw [result] at mapped
    left
    split
    · exact mapped
    · exact ledger_sendQueued.trans mapped

theorem Ledger.Once.start (once : ledger.Once) (known : .started req ∈ ledger.noted)
    (incomplete : .completed req ∉ ledger.noted) : ((ledger.register req).reply req false).Once where
  known := by
    rintro other (listed | listed)
    · rcases List.mem_append.mp listed with member | same
      · exact once.known other (.inl member)
      · cases List.mem_singleton.mp same
        exact known
    · exact once.known other (.inr listed)
  begun := once.begun
  once := once.once
  replied := by
    intro other completed listed
    by_cases same : other = req
    · subst same
      exact absurd completed incomplete
    · have was : other ∈ ledger.requests ∨ other ∈ ledger.reqLinger := by
        simpa [Ledger.register, Ledger.reply, same] using listed
      simpa [Ledger.reply, Ledger.register, same] using once.replied other completed was

theorem startRequest_once {memory nofail : Bool} (once : osdc.ledger.Once) (known : .started req ∈ osdc.ledger.noted)
    (incomplete : .completed req ∉ osdc.ledger.noted) :
    (osdc.startRequest ops map memory nofail req).ledger.Once ∧
    (osdc.startRequest ops map memory nofail req).ledger.noted = osdc.ledger.noted := by
  have started := once.start known incomplete
  rcases @ledger_startRequest _ req ops map osdc memory nofail with same | same
  · rw [same]
    exact ⟨started, rfl⟩
  · rw [same]
    exact ⟨started.shrinks shrinks_unregister, rfl⟩

theorem Ledger.Once.complete {events : List OsdEvent} (once : ledger.Once) (known : .started req ∈ ledger.noted)
    (incomplete : .completed req ∉ ledger.noted) (single : events.count (.completed req) ≤ 1)
    (own : ∀ other, other ≠ req → .completed other ∉ events)
    (replied : req ∈ ledger.requests ∨ req ∈ ledger.reqLinger → ledger.gotReply req = true) :
    (ledger.note events).Once where
  known := fun other listed => mem_append_left _ (once.known other listed)
  begun := by
    intro other completed
    rcases List.mem_append.mp completed with before | now
    · exact mem_append_left _ (once.begun other before)
    · by_cases same : other = req
      · rw [same]
        exact mem_append_left _ known
      · exact absurd now (own other same)
  once := by
    intro other
    rw [Ledger.note, count_append]
    by_cases same : other = req
    · subst same
      rw [count_eq_zero_of_not_mem incomplete]
      omega
    · rw [count_eq_zero_of_not_mem (own other same)]
      exact once.once other
  replied := by
    intro other completed listed
    by_cases same : other = req
    · subst same
      exact replied listed
    · rcases List.mem_append.mp completed with before | now
      · exact once.replied other before listed
      · exact absurd now (own other same)

theorem Ledger.Once.note {events : List OsdEvent} (once : ledger.Once) (nothing : ∀ other, .completed other ∉ events) :
    (ledger.note events).Once where
  known := fun other listed => mem_append_left _ (once.known other listed)
  begun := fun other completed =>
    mem_append_left _ (once.begun other ((List.mem_append.mp completed).resolve_right (nothing other)))
  once := by
    intro other
    rw [Ledger.note, count_append, count_eq_zero_of_not_mem (nothing other)]
    exact once.once other
  replied := fun other completed listed =>
    once.replied other ((List.mem_append.mp completed).resolve_right (nothing other)) listed

theorem started_mem {req : ReqId} : .started req ∈ osdc.ledger.noted ↔ .started req ∈ osdc.log := by
  simp [ledger, isSent]

theorem completed_count {req : ReqId} :
    osdc.ledger.noted.count (.completed req) = osdc.log.count (.completed req) := by
  exact count_filter (by simp [isSent])

/-- The requests that are registered in both states of a client complete once; `linked` and `once` together. -/
structure Completes (osdc : CephOsdClient μ) : Prop where
  linked : Linked osdc
  once : osdc.ledger.Once

def OsdCall.Clean : OsdCall μ → CephOsdClient μ → Prop
  | .reply message _, osdc => ∀ req, message.front = true → osdc.lookup message.tid = some req →
      (osdc.req req).gotReply = true → message.accepted (osdc.req req).numOps = some (-1)
  | _, _ => True

theorem incomplete_of_noReply (completes : Completes osdc) (registered : req ∈ osdc.requests)
    (noReply : (osdc.req req).gotReply = false) : .completed req ∉ osdc.ledger.noted := by
  intro completed
  have got := completes.once.replied req completed (.inl registered)
  have same : osdc.ledger.gotReply req = (osdc.req req).gotReply := rfl
  rw [same, noReply] at got
  cases got

theorem events_unsent {reply : OsdReply} {alreadyCompleted : Bool} :
    ∀ event ∈ reply.events alreadyCompleted unsafeCallback req, event.isSent = false := by
  intro event member
  have kinds : event = .completed req ∨ event = .safe req ∨ ∃ isUnsafe, event = .unsafeCallback req isUnsafe := by
    unfold OsdReply.events at member
    simp only [mem_append] at member
    rcases member with member | member
    · split at member
      · cases member
      · split at member <;> simp at member <;> tauto
    · split at member
      · split at member <;> simp at member <;> tauto
      · cases member
  rcases kinds with rfl | rfl | ⟨_, rfl⟩ <;> rfl

theorem events_completed {reply : OsdReply} {alreadyCompleted : Bool} {other : ReqId} :
    (reply.events alreadyCompleted unsafeCallback req).count (.completed other) =
      if other = req ∧ alreadyCompleted = false then 1 else 0 := by
  unfold OsdReply.events
  by_cases same : other = req
  · subst same
    cases alreadyCompleted <;> cases unsafeCallback <;> cases reply.flagsOndisk <;> simp [count_cons] <;> split <;> simp
  · have differs : ¬ req = other := fun equal => same equal.symm
    simp only [same, false_and, if_false]
    apply count_eq_zero_of_not_mem
    intro member
    simp only [mem_append] at member
    rcases member with member | member
    · split at member
      · cases member
      · split at member <;> simp [same] at member
    · split at member
      · split at member <;> simp at member
      · cases member

structure Replied (osdc after : CephOsdClient μ) (req : ReqId) : Prop where
  once : after.ledger.Once
  others : ∀ other, other ≠ req → after.ledger.noted.count (.completed other) = osdc.ledger.noted.count (.completed other)

theorem Replied.spared {after : CephOsdClient μ} (replied : Replied osdc after req) :
    after.ledger.Once ∧ ∀ other, some req ≠ some other →
      after.ledger.noted.count (.completed other) = osdc.ledger.noted.count (.completed other) :=
  ⟨replied.once, fun other differs => replied.others other fun same => differs (congrArg some same.symm)⟩

theorem badReply_replied (completes : Completes osdc) (registered : req ∈ osdc.requests)
    (noReply : (osdc.req req).gotReply = false) : Replied osdc (osdc.badReply req) req := by
  have incomplete := incomplete_of_noReply completes registered noReply
  have ledger : (osdc.badReply req).ledger = (osdc.ledger.unregister req).note [.completed req, .safe req] := by
    unfold badReply
    rw [ledger_note (by simp [isSent]), ledger_unregisterRequest, ledger_setReq rfl]
  have off : req ∉ osdc.reqLinger := completes.linked.apart req registered
  constructor
  · rw [ledger]
    refine (completes.once.shrinks shrinks_unregister).complete (completes.once.known req (.inl registered)) incomplete
      (by simp) (by simp) ?_
    rintro (listed | listed)
    · simp [Ledger.unregister] at listed
    · exact absurd listed off
  · intro other differs
    rw [ledger]
    simp [Ledger.note, Ledger.unregister, count_cons, differs.symm]

theorem finishReply_replied {reply : OsdReply} {alreadyCompleted : Bool} (linked : Linked osdc) (once : osdc.ledger.Once)
    (registered : req ∈ osdc.requests) (got : (osdc.req req).gotReply = true)
    (incomplete : alreadyCompleted = false → .completed req ∉ osdc.ledger.noted) :
    Replied osdc (osdc.finishReply reply alreadyCompleted req) req := by
  have shrinks := @settleReply_shrinks _ req osdc reply registered
  have ledger : (osdc.finishReply reply alreadyCompleted req).ledger =
      (osdc.settleReply reply req).ledger.note (reply.events alreadyCompleted (osdc.req req).unsafeCallback req) :=
    ledger_note events_unsent
  have settled := once.shrinks shrinks
  have known : .started req ∈ (osdc.settleReply reply req).ledger.noted := by
    rw [shrinks.noted]
    exact once.known req (.inl registered)
  constructor
  · rw [ledger]
    cases alreadyCompleted with
    | false =>
      refine settled.complete known ?_ ?_ ?_ ?_
      · rw [shrinks.noted]
        exact incomplete rfl
      · rw [events_completed]
        split <;> omega
      · intro other differs
        rw [← count_eq_zero, events_completed, if_neg fun both => differs both.1]
      · intro _
        rw [shrinks.gotReply]
        exact got
    | true =>
      refine settled.note fun other => ?_
      rw [← count_eq_zero, events_completed, if_neg (by simp)]
  · intro other differs
    rw [ledger, Ledger.note, count_append, events_completed, if_neg fun both => differs both.1, shrinks.noted]
    rfl

theorem redirectReply_replied {memory : Bool} {pool : Int} (completes : Completes osdc) (registered : req ∈ osdc.requests)
    (noReply : (osdc.req req).gotReply = false) : Replied osdc (osdc.redirectReply ops map memory pool req) req := by
  have incomplete := incomplete_of_noReply completes registered noReply
  have ledger : ((osdc.unregisterRequest req).setReq req fun r => { r with targetPool := pool }).ledger =
      osdc.ledger.unregister req := by
    rw [ledger_setReq rfl, ledger_unregisterRequest]
  have once : (osdc.ledger.unregister req).Once := completes.once.shrinks shrinks_unregister
  rw [← ledger] at once
  obtain ⟨started, noted⟩ := @startRequest_once _ req ops map _ memory true once
    (by rw [ledger]; exact completes.once.known req (.inl registered)) (by rw [ledger]; exact incomplete)
  refine ⟨started, fun other _ => ?_⟩
  have same : (osdc.redirectReply ops map memory pool req).ledger.noted = osdc.ledger.noted := by
    refine Eq.trans noted ?_
    rw [ledger]
    rfl
  rw [same]

theorem answered_replied {reply : OsdReply} (completes : Completes osdc) (registered : req ∈ osdc.requests)
    (noReply : (osdc.req req).gotReply = false) :
    Replied osdc ((osdc.setReq req reply.answer).finishReply reply false req) req := by
  have incomplete := incomplete_of_noReply completes registered noReply
  have ledger : (osdc.setReq req reply.answer).ledger = osdc.ledger.reply req true := ledger_reply rfl
  have linked : Linked (osdc.setReq req reply.answer) := completes.linked.of_same (setReq_same rfl)
  have once : (osdc.setReq req reply.answer).ledger.Once := by
    rw [ledger]
    refine ⟨completes.once.known, completes.once.begun, completes.once.once, ?_⟩
    intro other completed listed
    by_cases same : other = req
    · subst same
      simp [Ledger.reply]
    · simpa [Ledger.reply, same] using completes.once.replied other completed listed
  have got : ((osdc.setReq req reply.answer).req req).gotReply = true := by
    simp [setReq, OsdReply.answer]
  have replied := @finishReply_replied _ req _ reply false linked once registered got fun _ => incomplete
  exact ⟨replied.once, replied.others⟩

theorem handleReply_replied {memory : Bool} {message : OsdReply} (completes : Completes osdc)
    (clean : (OsdCall.reply message memory : OsdCall μ).Clean osdc) :
    (osdc.handleReply ops map memory message).ledger.Once ∧ ∀ other, osdc.lookup message.tid ≠ some other →
      (osdc.handleReply ops map memory message).ledger.noted.count (.completed other) =
        osdc.ledger.noted.count (.completed other) := by
  unfold handleReply
  split
  next => exact ⟨completes.once, fun _ _ => rfl⟩
  next front =>
    cases found : osdc.lookup message.tid with
    | none => exact ⟨completes.once, fun _ _ => rfl⟩
    | some req =>
      have registered := lookup_registered found
      have clean' := clean req (by simpa using front) found
      refine Replied.spared ?_
      dsimp only
      cases got : (osdc.req req).gotReply with
      | true =>
        rw [clean' got]
        dsimp only
        rw [if_neg (by simp), plainReply, if_neg (by simp [got])]
        split
        · exact ⟨completes.once, fun _ _ => rfl⟩
        · exact finishReply_replied completes.linked completes.once registered got (by simp)
      | false =>
        split
        next => exact badReply_replied completes registered got
        next redirect _ =>
          split
          · exact redirectReply_replied completes registered got
          · rw [plainReply, if_pos got]
            exact answered_replied completes registered got

end

section

variable {ops : MapOps μ} {osdc next : CephOsdClient μ} {call : OsdCall μ}

def OsdCall.RepliesTo (call : OsdCall μ) (osdc : CephOsdClient μ) (req : ReqId) : Prop :=
  ∃ message memory, call = .reply message memory ∧ osdc.lookup message.tid = some req

/-- One call completes a request at most once, and only with a reply. -/
theorem OsdCall.completes (completes : Completes osdc) (proper : call.Proper osdc) (clean : call.Clean osdc)
    (ran : call.run ops osdc = .ok next) : Completes next ∧ ∀ req, ¬ call.RepliesTo osdc req →
      next.log.count (.completed req) = osdc.log.count (.completed req) := by
  have linked := OsdCall.linked completes.linked proper ran
  suffices settled : next.ledger.Once ∧ ∀ req, ¬ call.RepliesTo osdc req →
      next.ledger.noted.count (.completed req) = osdc.ledger.noted.count (.completed req) by
    refine ⟨⟨linked, settled.1⟩, fun req elsewhere => ?_⟩
    rw [← completed_count, ← completed_count]
    exact settled.2 req elsewhere
  have shrunk : osdc.ledger.Shrinks next.ledger → next.ledger.Once ∧ ∀ req, ¬ call.RepliesTo osdc req →
      next.ledger.noted.count (.completed req) = osdc.ledger.noted.count (.completed req) := by
    intro shrinks
    refine ⟨completes.once.shrinks shrinks, fun req _ => ?_⟩
    rw [shrinks.noted]
  cases call with
  | start req new nofail memory =>
    obtain ⟨map, -, done⟩ := ok_of_bind ran
    cases done
    obtain ⟨unstarted, unregistered, off, fresh⟩ := proper
    have incomplete : .completed req ∉ osdc.ledger.noted := fun completed =>
      unstarted (started_mem.mp (completes.once.begun req completed))
    have ledger : ((osdc.setReq req fun _ => new).note [.started req]).ledger =
        (osdc.ledger.reply req false).note [.started req] := by
      rw [ledger_note (by simp [isSent]), ledger_reply fresh.idle.2.2.1]
    have once : ((osdc.ledger.reply req false).note [.started req]).Once := by
      refine Ledger.Once.note ⟨completes.once.known, completes.once.begun, completes.once.once, ?_⟩ (by simp)
      intro other completed listed
      have differs : other ≠ req := fun same => incomplete (same ▸ completed)
      simpa [Ledger.reply, differs] using completes.once.replied other completed listed
    rw [← ledger] at once
    obtain ⟨started, noted⟩ := @startRequest_once _ req ops map _ memory nofail once
      (by rw [ledger]; simp [Ledger.note]) (by rw [ledger]; simpa [Ledger.note, Ledger.reply] using incomplete)
    refine ⟨started, fun other _ => ?_⟩
    rw [noted, ledger]
    simp [Ledger.note, Ledger.reply]
  | cancel req =>
    cases ran
    apply shrunk
    unfold cephOsdcCancelRequest
    rw [ledger_unregisterRequest]
    split
    · rw [ledger_unregisterLingerRequest]
      exact shrinks_unlinger.trans shrinks_unregister
    · exact shrinks_unregister
  | reply message memory =>
    obtain ⟨map, -, done⟩ := ok_of_bind ran
    cases done
    obtain ⟨once, others⟩ := @handleReply_replied _ ops map _ memory message completes clean
    exact ⟨once, fun req elsewhere => others req fun found => elsewhere ⟨message, memory, rfl, found⟩⟩
  | reset osd =>
    obtain ⟨map, -, done⟩ := ok_of_bind ran
    cases done
    exact shrunk ((kickOsdRequests_shrinks completes.linked).trans (.of_eq ledger_sendQueued))
  | newMap map memory forceResend forceResendWrites =>
    cases ran
    have linked' : Linked { osdc with osdmap := some map } := completes.linked.of_same SameLinks.setMap
    have shrinks := @kickRequests_shrinks _ ops map _ linked' memory forceResend forceResendWrites
    exact shrunk shrinks
  | spoilMap map =>
    cases ran
    exact shrunk .refl
  | sendQueued =>
    cases ran
    exact shrunk (.of_eq ledger_sendQueued)
  | connection osd opened =>
    cases ran
    exact shrunk .refl
  | removeIdle osd =>
    cases ran
    exact shrunk .refl

theorem init_completes {req : ReqId → OsdRequest} : Completes (init req : CephOsdClient μ) where
  linked := Linked.init
  once := by
    refine ⟨?_, ?_, ?_, ?_⟩ <;> simp [ledger, init]

/-- If no request gets a malformed reply or a redirect after its first reply, every request completes
at most once, and only with a reply to it while it is registered. -/
theorem requests_complete_once {req : ReqId → OsdRequest} (reached : Reached (OsdCall.run ops)
    (fun call osdc => call.Proper osdc ∧ call.Clean osdc) (.init req) osdc) :
    (∀ req, osdc.log.count (.completed req) ≤ 1) ∧
    ∀ call next, OsdCall.Proper call osdc ∧ OsdCall.Clean call osdc → OsdCall.run ops call osdc = .ok next →
      ∀ req, osdc.log.count (.completed req) < next.log.count (.completed req) → call.RepliesTo osdc req := by
  have completes : Completes osdc := by
    refine @Reached.preserved _ _ _ _ _ (fun osdc => Completes osdc) _ _ ?_ init_completes reached
    exact fun call before after meets holds ran => (OsdCall.completes holds meets.1 meets.2 ran).1
  refine ⟨fun req => ?_, fun call next meets ran req more => ?_⟩
  · rw [← completed_count]
    exact completes.once.once req
  · by_contra elsewhere
    rw [(OsdCall.completes completes meets.1 meets.2 ran).2 req elsewhere] at more
    exact absurd more (lt_irrefl _)

end

def writeReply (tid : Nat) (ondisk : Bool) : OsdReply where
  tid := tid
  front := true
  flagsOndisk := ondisk
  flagsWrite := true
  result := 0
  reassertVersion := (1, 1)
  numops := some 1
  opLens := some [0]
  dataLen := 0
  opResults := some [0]
  redirect := some (-1)

/-- A write is acknowledged and then safe. -/
theorem requests_complete_once_written : ∃ osdc : CephOsdClient PoolMap, osdc.log.count (.completed 7) = 1 ∧
    .safe 7 ∈ osdc.log ∧ ∀ req, osdc.log.count (.completed req) ≤ 1 := by
  have mapped : Reached (OsdCall.run poolOps) (fun call osdc => call.Proper osdc ∧ call.Clean osdc)
      (.init fun _ => poolWrite 1 false) _ :=
    Reached.start.next (.newMap { epoch := 1, pools := [(1, 3)] } (fun _ => true) false false) ⟨trivial, trivial⟩ rfl
  have begun := mapped.next (.start 7 (poolWrite 1 false) false true)
    ⟨⟨by decide, by decide, by decide, poolWrite_fresh 1 false⟩, trivial⟩ rfl
  have acked := begun.next (.reply (writeReply 1 false) true)
    ⟨trivial, fun req _ found got => by cases found; cases got⟩ rfl
  have safe := acked.next (.reply (writeReply 1 true) true)
    ⟨trivial, fun req _ found _ => by cases found; rfl⟩ rfl
  exact ⟨_, by decide +kernel, by decide +kernel, (requests_complete_once safe).1⟩

/-- A malformed reply follows the acknowledgement of a write. -/
theorem requests_complete_twice : ∃ osdc : CephOsdClient PoolMap,
    Reached (OsdCall.run poolOps) OsdCall.Proper (.init fun _ => poolWrite 1 false) osdc ∧
    ¬ osdc.log.count (.completed 7) ≤ 1 := by
  have mapped : Reached (OsdCall.run poolOps) OsdCall.Proper (.init fun _ => poolWrite 1 false) _ :=
    Reached.start.next (.newMap { epoch := 1, pools := [(1, 3)] } (fun _ => true) false false) trivial rfl
  have begun := mapped.next (.start 7 (poolWrite 1 false) false true)
    ⟨by decide, by decide, by decide, poolWrite_fresh 1 false⟩ rfl
  have acked := begun.next (.reply (writeReply 1 false) true) trivial rfl
  have malformed := acked.next (.reply { writeReply 1 true with numops := none } true) trivial rfl
  exact ⟨_, malformed, by decide +kernel⟩

end KmodCeph.OsdClient
