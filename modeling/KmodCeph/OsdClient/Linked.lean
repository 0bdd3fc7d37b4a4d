import KmodCeph.OsdClient.Ledger

namespace KmodCeph.OsdClient

open Lib CephOsdClient List

variable {μ : Type}

/-- Registries, session lists and `r_osd` agree. -/
structure Linked (osdc : CephOsdClient μ) : Prop where
  apart : ∀ req ∈ osdc.requests, req ∉ osdc.reqLinger
  here : ∀ osd req, req ∈ (osdc.session osd).requests ↔ req ∈ osdc.requests ∧ (osdc.req req).osd = some osd
  hereLinger : ∀ osd req,
    req ∈ (osdc.session osd).lingerRequests ↔ req ∈ osdc.reqLinger ∧ (osdc.req req).osd = some osd
  unsent : ∀ req ∈ osdc.reqUnsent, req ∈ osdc.requests ∧ (osdc.req req).osd.isSome
  open' : ∀ osd req, req ∈ (osdc.session osd).requests ∨ req ∈ (osdc.session osd).lingerRequests → osd ∈ osdc.osds
  distinct : osdc.requests.Nodup ∧ osdc.reqLinger.Nodup ∧ osdc.reqUnsent.Nodup
  distinctHere : ∀ osd, (osdc.session osd).requests.Nodup ∧ (osdc.session osd).lingerRequests.Nodup

namespace CephOsdClient

def detach (req : ReqId) (osdc : CephOsdClient μ) : CephOsdClient μ :=
  { osdc with
    requests := osdc.requests.filter (· ≠ req)
    reqLinger := osdc.reqLinger.filter (· ≠ req)
    reqLru := osdc.reqLru.filter (· ≠ req)
    reqUnsent := osdc.reqUnsent.filter (· ≠ req)
    reqNotarget := osdc.reqNotarget.filter (· ≠ req)
    req := Function.update osdc.req req { osdc.req req with osd := none }
    session := fun osd =>
      { osdc.session osd with
        requests := (osdc.session osd).requests.filter (· ≠ req)
        lingerRequests := (osdc.session osd).lingerRequests.filter (· ≠ req) } }

end CephOsdClient

section

variable {osdc : CephOsdClient μ} {req : ReqId}

theorem nodup_snoc {α : Type} {items : List α} {item : α} (distinct : items.Nodup) (absent : item ∉ items) :
    (items ++ [item]).Nodup :=
  List.nodup_append_comm.mp (List.nodup_cons.mpr ⟨absent, distinct⟩)

theorem Linked.detach (linked : Linked osdc) : Linked (osdc.detach req) := by
  obtain ⟨apart, here, hereLinger, unsent, open', distinct, distinctHere⟩ := linked
  refine ⟨?_, ?_, ?_, ?_, ?_, ?_, ?_⟩
  · grind [CephOsdClient.detach]
  · intro osd other
    by_cases same : other = req
    · subst same
      simp [CephOsdClient.detach]
    · simp [CephOsdClient.detach, same, here]
  · intro osd other
    by_cases same : other = req
    · subst same
      simp [CephOsdClient.detach]
    · simp [CephOsdClient.detach, same, hereLinger]
  · intro other listed
    simp only [CephOsdClient.detach, mem_filter, decide_eq_true_eq] at listed ⊢
    rw [Function.update_of_ne listed.2]
    exact ⟨⟨(unsent other listed.1).1, listed.2⟩, (unsent other listed.1).2⟩
  · intro osd other listed
    simp only [CephOsdClient.detach, mem_filter] at listed
    exact open' osd other (listed.imp (·.1) (·.1))
  · exact ⟨distinct.1.filter _, distinct.2.1.filter _, distinct.2.2.filter _⟩
  · exact fun osd => ⟨(distinctHere osd).1.filter _, (distinctHere osd).2.filter _⟩

/-- A request without session is on the lists of none. -/
theorem Linked.nowhere (linked : Linked osdc) (hangs : (osdc.req req).osd = none) (osd : OsdNum) :
    req ∉ (osdc.session osd).requests ∧ req ∉ (osdc.session osd).lingerRequests :=
  ⟨fun listed => absurd (hangs.symm.trans ((linked.here osd req).mp listed).2) nofun,
    fun listed => absurd (hangs.symm.trans ((linked.hereLinger osd req).mp listed).2) nofun⟩

theorem update_none (hangs : (osdc.req req).osd = none) :
    Function.update osdc.req req { osdc.req req with osd := none } = osdc.req := by
  rw [← hangs]
  exact Function.update_eq_self req osdc.req

theorem Linked.unregister (linked : Linked osdc) (registered : req ∈ osdc.requests) :
    osdc.unregisterRequest req = osdc.detach req := by
  have noLinger : osdc.reqLinger.filter (· ≠ req) = osdc.reqLinger := filter_ne_self (linked.apart req registered)
  have noLinger' : ∀ osd, (osdc.session osd).lingerRequests.filter (· ≠ req) = (osdc.session osd).lingerRequests :=
    fun osd => filter_ne_self fun listed => linked.apart req registered ((linked.hereLinger osd req).mp listed).1
  unfold CephOsdClient.unregisterRequest CephOsdClient.detach
  rw [if_neg (not_not.mpr registered)]
  cases hangs : (osdc.req req).osd with
  | none =>
    have nowhere osd := filter_ne_self (linked.nowhere hangs osd).1
    simp only [CephOsdClient.delLruItem, hangs, noLinger, noLinger', nowhere, update_none hangs]
  | some osd =>
    have off : req ∉ (osdc.session osd).lingerRequests :=
      fun listed => linked.apart req registered ((linked.hereLinger osd req).mp listed).1
    simp only [CephOsdClient.delLruItem, CephOsdClient.delOsdItem, CephOsdClient.setReq, hangs, noLinger, noLinger',
      off, ↓reduceIte]

theorem Linked.unregisterLinger (linked : Linked osdc) (lingers : req ∈ osdc.reqLinger) :
    osdc.unregisterLingerRequest req = osdc.detach req := by
  have unregistered : req ∉ osdc.requests := fun registered => linked.apart req registered lingers
  have noRequest : osdc.requests.filter (· ≠ req) = osdc.requests := filter_ne_self unregistered
  have noRequest' : ∀ osd, (osdc.session osd).requests.filter (· ≠ req) = (osdc.session osd).requests :=
    fun osd => filter_ne_self fun listed => unregistered ((linked.here osd req).mp listed).1
  unfold CephOsdClient.unregisterLingerRequest CephOsdClient.detach
  rw [if_neg (not_not.mpr lingers)]
  cases hangs : (osdc.req req).osd with
  | none =>
    have nowhere osd := filter_ne_self (linked.nowhere hangs osd).2
    simp only [CephOsdClient.delLruItem, hangs, noRequest, noRequest', nowhere, update_none hangs]
  | some osd =>
    have off : req ∉ (osdc.session osd).requests := fun listed => unregistered ((linked.here osd req).mp listed).1
    simp only [CephOsdClient.delLruItem, CephOsdClient.delLingerOsdItem, CephOsdClient.setReq, hangs, noRequest,
      noRequest', off, ↓reduceIte]

end

namespace CephOsdClient

/-- A registered or lingering request off its session, with the acting set that it moves to. -/
def unplace (acting : List Int) (req : ReqId) (osdc : CephOsdClient μ) : CephOsdClient μ :=
  let r := osdc.req req
  { osdc with
    reqLru := osdc.reqLru.filter (· ≠ req)
    reqUnsent := osdc.reqUnsent.filter (· ≠ req)
    reqNotarget := osdc.reqNotarget.filter (· ≠ req)
    req := Function.update osdc.req req
      { r with
        osd := none
        pgOsds := acting
        sent := if r.osd.isSome then 0 else r.sent }
    session := fun osd =>
      { osdc.session osd with
        requests := (osdc.session osd).requests.filter (· ≠ req)
        lingerRequests := (osdc.session osd).lingerRequests.filter (· ≠ req) } }

def place (osd : OsdNum) (req : ReqId) (osdc : CephOsdClient μ) : CephOsdClient μ :=
  { osdc with
    reqUnsent := osdc.reqUnsent ++ [req]
    req := Function.update osdc.req req { osdc.req req with osd := some osd }
    session := Function.update osdc.session osd
      { osdc.session osd with requests := (osdc.session osd).requests ++ [req] } }

end CephOsdClient

section

variable {ops : MapOps μ} {map : μ} {memory : Bool} {acting : List Int} {o : OsdNum} {osdc : CephOsdClient μ} {req : ReqId}

theorem Linked.move (linked : Linked osdc) : osdc.moveRequest ops map memory acting o req =
    if o ∈ osdc.osds then (.changed, (osdc.unplace acting req).place o req)
    else if 0 ≤ o then
      if memory then (.changed, ((osdc.unplace acting req).createOsd o (ops.addr map o)).place o req)
      else (.error, { osdc.unplace acting req with reqNotarget := req :: (osdc.unplace acting req).reqNotarget })
    else (.changed, { osdc.unplace acting req with reqNotarget := (osdc.unplace acting req).reqNotarget ++ [req] }) := by
  unfold moveRequest leaveOsd
  cases hangs : (osdc.req req).osd with
  | none =>
    have nowhere osd := filter_ne_self (linked.nowhere hangs osd).1
    have nowhere' osd := filter_ne_self (linked.nowhere hangs osd).2
    simp only [setReq, unplace, place, enqueueRequest,
      moveNotarget, delLruItem, createOsd, setSession,
      Function.update_self, Function.update_idem, hangs, nowhere, nowhere', Option.isSome_none]
    simp [hangs]
  | some osd =>
    by_cases unsent : (osdc.req req).sent = 0
    · simp only [setReq, unplace, place, enqueueRequest,
        moveNotarget, delLruItem, createOsd, setSession,
        cancelRequest, delOsdItem, delLingerOsdItem,
        Function.update_self, Function.update_idem, hangs, unsent, Option.isSome_some]
      simp [unsent]
    · simp only [setReq, unplace, place, enqueueRequest,
        moveNotarget, delLruItem, createOsd, setSession,
        cancelRequest, delOsdItem, delLingerOsdItem,
        Function.update_self, Function.update_idem, hangs, unsent, Option.isSome_some]
      simp [unsent]

end

section

variable {osdc : CephOsdClient μ} {req : ReqId} {osd : OsdNum}

structure SameLinks (before after : CephOsdClient μ) : Prop where
  requests : after.requests = before.requests
  reqLinger : after.reqLinger = before.reqLinger
  unsent : ∀ req ∈ after.reqUnsent, req ∈ before.reqUnsent
  distinct : before.reqUnsent.Nodup → after.reqUnsent.Nodup
  osds : after.osds = before.osds
  osd : ∀ req, (after.req req).osd = (before.req req).osd
  session : ∀ osd, (after.session osd).requests = (before.session osd).requests ∧
    (after.session osd).lingerRequests = (before.session osd).lingerRequests

theorem Linked.of_same {before after : CephOsdClient μ} (linked : Linked before) (same : SameLinks before after) :
    Linked after where
  apart := by
    rw [same.requests, same.reqLinger]
    exact linked.apart
  here := by
    intro osd req
    rw [(same.session osd).1, same.requests, same.osd]
    exact linked.here osd req
  hereLinger := by
    intro osd req
    rw [(same.session osd).2, same.reqLinger, same.osd]
    exact linked.hereLinger osd req
  unsent := by
    intro req listed
    rw [same.requests, same.osd]
    exact linked.unsent req (same.unsent req listed)
  open' := by
    intro osd req
    rw [(same.session osd).1, (same.session osd).2, same.osds]
    exact linked.open' osd req
  distinct := by
    rw [same.requests, same.reqLinger]
    exact ⟨linked.distinct.1, linked.distinct.2.1, same.distinct linked.distinct.2.2⟩
  distinctHere := by
    intro osd
    rw [(same.session osd).1, (same.session osd).2]
    exact linked.distinctHere osd

theorem Linked.unplace (linked : Linked osdc) {acting : List Int} : Linked (osdc.unplace acting req) := by
  obtain ⟨apart, here, hereLinger, unsent, open', distinct, distinctHere⟩ := linked
  refine ⟨apart, ?_, ?_, ?_, ?_, ?_, ?_⟩
  · intro osd other
    by_cases same : other = req
    · subst same
      simp [CephOsdClient.unplace]
    · simp [CephOsdClient.unplace, same, here]
  · intro osd other
    by_cases same : other = req
    · subst same
      simp [CephOsdClient.unplace]
    · simp [CephOsdClient.unplace, same, hereLinger]
  · intro other listed
    simp only [CephOsdClient.unplace, mem_filter, decide_eq_true_eq] at listed ⊢
    rw [Function.update_of_ne listed.2]
    exact unsent other listed.1
  · intro osd other listed
    simp only [CephOsdClient.unplace, mem_filter] at listed
    exact open' osd other (listed.imp (·.1) (·.1))
  · exact ⟨distinct.1, distinct.2.1, distinct.2.2.filter _⟩
  · exact fun osd => ⟨(distinctHere osd).1.filter _, (distinctHere osd).2.filter _⟩

section

variable (linked : Linked osdc)
include linked

theorem Linked.place (registered : req ∈ osdc.requests) (free : (osdc.req req).osd = none)
    (there : osd ∈ osdc.osds) : Linked (osdc.place osd req) := by
  have absent osd := (linked.nowhere free osd).1
  have unlisted : req ∉ osdc.reqUnsent := by
    intro listed
    have placed := (linked.unsent req listed).2
    rw [free] at placed
    cases placed
  obtain ⟨apart, here, hereLinger, unsent, open', distinct, distinctHere⟩ := linked
  refine ⟨apart, ?_, ?_, ?_, ?_, ?_, ?_⟩
  · intro where' other
    by_cases same : other = req
    · subst same
      by_cases at' : where' = osd
      · subst at'
        simp [CephOsdClient.place, registered]
      · simp [CephOsdClient.place, at', absent, Ne.symm at']
    · by_cases at' : where' = osd
      · subst at'
        simp [CephOsdClient.place, same, here]
      · simp [CephOsdClient.place, same, at', here]
  · intro where' other
    have listed := hereLinger where' other
    by_cases same : other = req
    · subst same
      have outside := apart other registered
      by_cases at' : where' = osd
      · subst at'
        simp [CephOsdClient.place, listed, outside]
      · simp [CephOsdClient.place, at', listed, outside]
    · by_cases at' : where' = osd
      · subst at'
        simp [CephOsdClient.place, same, listed]
      · simp [CephOsdClient.place, same, at', listed]
  · intro other listed
    by_cases same : other = req
    · subst same
      simp [CephOsdClient.place, registered]
    · simp only [CephOsdClient.place, mem_append, mem_singleton, same, or_false,
        Function.update_of_ne same] at listed ⊢
      exact unsent other listed
  · intro where' other
    by_cases at' : where' = osd
    · subst at'
      exact fun _ => there
    · simp only [CephOsdClient.place, Function.update_of_ne at']
      exact open' where' other
  · refine ⟨distinct.1, distinct.2.1, ?_⟩
    exact nodup_snoc distinct.2.2 unlisted
  · intro where'
    by_cases at' : where' = osd
    · subst at'
      simp only [CephOsdClient.place, Function.update_self]
      refine ⟨?_, (distinctHere where').2⟩
      exact nodup_snoc (distinctHere where').1 (absent where')
    · simp only [CephOsdClient.place, Function.update_of_ne at']
      exact distinctHere where'

theorem Linked.createOsd (absent : osd ∉ osdc.osds) {addr : EntityAddr} : Linked (osdc.createOsd osd addr) := by
  obtain ⟨apart, here, hereLinger, unsent, open', distinct, distinctHere⟩ := linked
  have nobody : ∀ other, (osdc.req other).osd = some osd → other ∉ osdc.requests ∧ other ∉ osdc.reqLinger :=
    fun other hangs => ⟨fun listed => absent (open' osd other (.inl ((here osd other).mpr ⟨listed, hangs⟩))),
      fun listed => absent (open' osd other (.inr ((hereLinger osd other).mpr ⟨listed, hangs⟩)))⟩
  refine ⟨apart, ?_, ?_, unsent, ?_, distinct, ?_⟩
  · intro where' other
    by_cases at' : where' = osd
    · subst at'
      simp only [CephOsdClient.createOsd, Function.update_self, not_mem_nil, false_iff]
      exact fun listed => (nobody other listed.2).1 listed.1
    · simp only [CephOsdClient.createOsd, Function.update_of_ne at']
      exact here where' other
  · intro where' other
    by_cases at' : where' = osd
    · subst at'
      simp only [CephOsdClient.createOsd, Function.update_self, not_mem_nil, false_iff]
      exact fun listed => (nobody other listed.2).2 listed.1
    · simp only [CephOsdClient.createOsd, Function.update_of_ne at']
      exact hereLinger where' other
  · intro where' other
    by_cases at' : where' = osd
    · subst at'
      simp [CephOsdClient.createOsd]
    · simp only [CephOsdClient.createOsd, Function.update_of_ne at']
      intro listed
      have there := open' where' other listed
      rcases lt_or_gt_of_ne at' with below | above
      · simp [there, below]
      · simp [there, above]
  · intro where'
    by_cases at' : where' = osd
    · subst at'
      simp [CephOsdClient.createOsd]
    · simp only [CephOsdClient.createOsd, Function.update_of_ne at']
      exact distinctHere where'

theorem Linked.register (unregistered : req ∉ osdc.requests) (off : req ∉ osdc.reqLinger)
    (free : (osdc.req req).osd = none) : Linked (osdc.registerRequest req) := by
  obtain ⟨apart, here, hereLinger, unsent, open', distinct, distinctHere⟩ := linked
  refine ⟨?_, ?_, ?_, ?_, open', ?_, distinctHere⟩
  · intro other listed
    rcases List.mem_append.mp listed with listed | listed
    · exact apart other listed
    · cases List.mem_singleton.mp listed
      exact off
  · intro where' other
    by_cases same : other = req
    · subst same
      simp [registerRequest, setReq, here, free]
    · simp [registerRequest, setReq, same, here]
  · intro where' other
    by_cases same : other = req
    · subst same
      simp [registerRequest, setReq, hereLinger]
    · simp [registerRequest, setReq, same, hereLinger]
  · intro other listed
    have was := unsent other listed
    have same : other ≠ req := fun same => unregistered (same ▸ was.1)
    simp only [registerRequest, setReq, Function.update_of_ne same]
    exact ⟨mem_append_left _ was.1, was.2⟩
  · refine ⟨?_, distinct.2⟩
    exact nodup_snoc distinct.1 unregistered

theorem Linked.registerLinger (unregistered : req ∉ osdc.requests) (off : req ∉ osdc.reqLinger)
    (free : (osdc.req req).osd = none) : Linked (osdc.registerLingerRequest req) := by
  obtain ⟨apart, here, hereLinger, unsent, open', distinct, distinctHere⟩ := linked
  have equal : osdc.registerLingerRequest req = { osdc with reqLinger := osdc.reqLinger ++ [req] } := by
    simp only [registerLingerRequest, free]
  rw [equal]
  refine ⟨?_, here, ?_, unsent, open', ?_, distinctHere⟩
  · intro other listed
    have differs : other ≠ req := fun same => unregistered (same ▸ listed)
    simp [differs, apart other listed]
  · intro where' other
    by_cases same : other = req
    · subst same
      simp [hereLinger, free]
    · simp [same, hereLinger]
  · refine ⟨distinct.1, ?_, distinct.2.2⟩
    exact nodup_snoc distinct.2.1 off

end

end

section

variable {ops : MapOps μ} {map : μ} {osdc : CephOsdClient μ} {req : ReqId} {osd : OsdNum}

theorem filter_same {α : Type} [DecidableEq α] {items : List α} {item : α} :
    (items.filter (· ≠ item)).filter (· ≠ item) = items.filter (· ≠ item) := by
  simp

theorem requestMapping_osd {forceResend : Bool} {session : OsdNum → OsdSession} {r : OsdRequest} :
    (requestMapping ops map forceResend session r).1.osd = r.osd := by
  obtain ⟨_, _, _, _, same⟩ := @requestMapping_fields μ ops map forceResend session r
  rw [same]

theorem setReq_same {change : OsdRequest → OsdRequest} (same : (change (osdc.req req)).osd = (osdc.req req).osd) :
    SameLinks osdc (osdc.setReq req change) where
  requests := rfl
  reqLinger := rfl
  unsent := fun _ => id
  distinct := id
  osds := rfl
  osd := by
    intro other
    by_cases here : other = req
    · subst here
      simpa [setReq] using same
    · simp [setReq, here]
  session := fun _ => ⟨rfl, rfl⟩

theorem SameLinks.trans {before middle after : CephOsdClient μ} (first : SameLinks before middle)
    (second : SameLinks middle after) : SameLinks before after where
  requests := second.requests.trans first.requests
  reqLinger := second.reqLinger.trans first.reqLinger
  unsent := fun req listed => first.unsent req (second.unsent req listed)
  distinct := fun distinct => second.distinct (first.distinct distinct)
  osds := second.osds.trans first.osds
  osd := fun req => (second.osd req).trans (first.osd req)
  session := fun osd => ⟨(second.session osd).1.trans (first.session osd).1,
    (second.session osd).2.trans (first.session osd).2⟩

theorem SameLinks.refl {osdc : CephOsdClient μ} : SameLinks osdc osdc :=
  ⟨rfl, rfl, fun _ => id, id, rfl, fun _ => rfl, fun _ => ⟨rfl, rfl⟩⟩

theorem delLruItem_same : SameLinks osdc (osdc.delLruItem req) :=
  ⟨rfl, rfl, fun _ listed => (List.mem_filter.mp listed).1, fun distinct => distinct.filter _, rfl, fun _ => rfl,
    fun _ => ⟨rfl, rfl⟩⟩

theorem moveNotarget_same : SameLinks osdc (osdc.moveNotarget req) :=
  ⟨rfl, rfl, fun _ listed => (List.mem_filter.mp listed).1, fun distinct => distinct.filter _, rfl, fun _ => rfl,
    fun _ => ⟨rfl, rfl⟩⟩

theorem note_same {events : List OsdEvent} : SameLinks osdc (osdc.note events) :=
  ⟨rfl, rfl, fun _ => id, id, rfl, fun _ => rfl, fun _ => ⟨rfl, rfl⟩⟩

theorem sendRequest_same : SameLinks osdc (osdc.sendRequest req) := by
  unfold sendRequest
  cases (osdc.req req).osd with
  | none => exact .refl
  | some osd =>
    refine ⟨rfl, rfl, fun _ listed => (List.mem_filter.mp listed).1, fun distinct => distinct.filter _, rfl, ?_,
      fun _ => ⟨rfl, rfl⟩⟩
    intro other
    by_cases here : other = req
    · subst here
      simp [setReq, CephOsdClient.note, delLruItem]
    · simp [setReq, CephOsdClient.note, delLruItem, here]

variable {reqs : List ReqId} {acting : List Int} {o : OsdNum} {other : ReqId} {force forceWrites : Bool}
variable {reply : OsdReply}

theorem foldl_same {step : CephOsdClient μ → ReqId → CephOsdClient μ}
    (same : ∀ osdc req, SameLinks osdc (step osdc req)) : SameLinks osdc (reqs.foldl step osdc) :=
  foldlRecOn reqs step SameLinks.refl fun now since req _ => since.trans (same now req)

theorem sendQueued_same : SameLinks osdc osdc.sendQueued :=
  foldl_same fun _ _ => sendRequest_same

theorem Linked.moved (linked : Linked osdc) {memory : Bool}
    (registered : req ∈ osdc.requests) : Linked (osdc.moveRequest ops map memory acting o req).2 := by
  have unplaced := @Linked.unplace _ _ req linked acting
  have free : ((osdc.unplace acting req).req req).osd = none := by simp [CephOsdClient.unplace]
  rw [linked.move]
  split
  next there => exact unplaced.place registered free there
  next absent =>
    split
    · split
      · have created : Linked ((osdc.unplace acting req).createOsd o (ops.addr map o)) := unplaced.createOsd absent
        exact created.place registered free (by simp [CephOsdClient.createOsd])
      · exact unplaced.of_same ⟨rfl, rfl, fun _ => id, id, rfl, fun _ => rfl, fun _ => ⟨rfl, rfl⟩⟩
    · exact unplaced.of_same ⟨rfl, rfl, fun _ => id, id, rfl, fun _ => rfl, fun _ => ⟨rfl, rfl⟩⟩

theorem Linked.mapped (linked : Linked osdc) {memory forceResend : Bool} (registered : req ∈ osdc.requests) :
    Linked (osdc.mapRequest ops map memory forceResend req).2 := by
  have kept := @requestMapping_osd _ ops map forceResend osdc.session (osdc.req req)
  unfold mapRequest
  generalize requestMapping ops map forceResend osdc.session (osdc.req req) = result at kept
  obtain ⟨r, mapping⟩ := result
  have set' : Linked (osdc.setReq req fun _ => r) := linked.of_same (setReq_same kept)
  cases mapping with
  | error => exact set'.of_same moveNotarget_same
  | unchanged => exact set'
  | moved acting o => exact set'.moved registered

theorem Linked.unregistered (linked : Linked osdc) : Linked (osdc.unregisterRequest req) := by
  by_cases registered : req ∈ osdc.requests
  · rw [linked.unregister registered]
    exact linked.detach
  · rw [unregisterRequest, if_pos registered]
    exact linked

theorem Linked.unlingered (linked : Linked osdc) : Linked (osdc.unregisterLingerRequest req) := by
  by_cases lingers : req ∈ osdc.reqLinger
  · rw [linked.unregisterLinger lingers]
    exact linked.detach
  · rw [unregisterLingerRequest, if_pos lingers]
    exact linked

theorem Linked.removed (linked : Linked osdc)
    (idle : (osdc.session osd).requests = [] ∧ (osdc.session osd).lingerRequests = []) : Linked (osdc.removeOsd osd) := by
  obtain ⟨apart, here, hereLinger, unsent, open', distinct, distinctHere⟩ := linked
  refine ⟨apart, here, hereLinger, unsent, ?_, distinct, distinctHere⟩
  intro where' other listed
  have differs : where' ≠ osd := by
    rintro rfl
    simp [removeOsd, idle] at listed
  simp [removeOsd, differs, open' where' other listed]

theorem setSession_same {change : OsdSession → OsdSession}
    (same : (change (osdc.session osd)).requests = (osdc.session osd).requests ∧
      (change (osdc.session osd)).lingerRequests = (osdc.session osd).lingerRequests) :
    SameLinks osdc (osdc.setSession osd change) := by
  refine ⟨rfl, rfl, fun _ => id, id, rfl, fun _ => rfl, ?_⟩
  intro other
  by_cases here : other = osd
  · subst here
    simpa [setSession] using same
  · simp [setSession, here]

theorem Linked.reset (linked : Linked osdc) : Linked (osdc.resetOsd ops map osd).2 := by
  unfold resetOsd
  dsimp only
  split
  next idle => exact linked.removed idle
  next =>
    split
    · exact linked
    · have same := @setSession_same _ osdc osd (fun s => { s with
        peerAddr := ops.addr map osd
        opened := false
        incarnation := s.incarnation + 1 }) ⟨rfl, rfl⟩
      exact linked.of_same same

theorem Linked.resetChanged (linked : Linked osdc) : Linked (osdc.resetChangedOsds ops map) := by
  refine @foldlRecOn _ _ (fun now => Linked now) _ _ _ linked ?_
  intro now linked osd _
  split
  · exact linked.reset
  · exact linked

section

variable (linked : Linked osdc) (known : req ∈ osdc.requests ∨ req ∈ osdc.reqLinger)
variable (hangs : (osdc.req req).osd = some osd)
include linked known hangs

theorem Linked.kickLinger_eq :
    osdc.kickLingerRequest req = ((osdc.detach req).registerRequest req).place osd req := by
  have off : (if req ∈ osdc.reqLinger then osdc.unregisterLingerRequest req else osdc.unregisterRequest req) =
      osdc.detach req := by
    split
    next lingers => exact linked.unregisterLinger lingers
    next regular => exact linked.unregister (known.resolve_right regular)
  unfold CephOsdClient.kickLingerRequest
  simp only [off, hangs]
  simp only [CephOsdClient.enqueueRequest, CephOsdClient.setReq, CephOsdClient.setSession, CephOsdClient.delLruItem,
    CephOsdClient.place, CephOsdClient.registerRequest, CephOsdClient.detach, Function.update_self, Function.update_idem,
    filter_same]

theorem Linked.kickLinger : Linked (osdc.kickLingerRequest req) := by
  rw [linked.kickLinger_eq known hangs]
  have there : osd ∈ osdc.osds := by
    rcases known with registered | lingers
    · exact linked.open' osd req (.inl ((linked.here osd req).mpr ⟨registered, hangs⟩))
    · exact linked.open' osd req (.inr ((linked.hereLinger osd req).mpr ⟨lingers, hangs⟩))
  have registered : Linked ((osdc.detach req).registerRequest req) :=
    linked.detach.register (by simp [CephOsdClient.detach]) (by simp [CephOsdClient.detach])
      (by simp [CephOsdClient.detach])
  refine registered.place ?_ ?_ there
  · simp [CephOsdClient.registerRequest]
  · simp [CephOsdClient.registerRequest, CephOsdClient.setReq, CephOsdClient.detach]

end

def On (osd : OsdNum) (osdc : CephOsdClient μ) (req : ReqId) : Prop :=
  (req ∈ osdc.requests ∨ req ∈ osdc.reqLinger) ∧ (osdc.req req).osd = some osd

theorem On.kickLinger (linked : Linked osdc) (on : On osd osdc other) (on' : On osd osdc req) :
    On osd (osdc.kickLingerRequest req) other := by
  rw [linked.kickLinger_eq on'.1 on'.2]
  obtain ⟨known, hangs⟩ := on
  by_cases same : other = req
  · subst same
    simp [On, place, registerRequest]
  · simp [On, place, registerRequest, detach, setReq, same,
      known, hangs]

theorem Linked.kickLingers {others : List ReqId} (linked : Linked osdc) (on : ∀ req ∈ reqs, On osd osdc req)
    (on' : ∀ req ∈ others, On osd osdc req) : Linked (reqs.foldl kickLingerRequest osdc) ∧
      ∀ req ∈ others, On osd (reqs.foldl kickLingerRequest osdc) req := by
  induction reqs generalizing osdc with
  | nil => exact ⟨linked, on'⟩
  | cons req rest ih =>
    have first := on req mem_cons_self
    refine ih (linked.kickLinger first.1 first.2) ?_ ?_
    · exact fun other listed => (on other (mem_cons_of_mem _ listed)).kickLinger linked first
    · exact fun other listed => (on' other listed).kickLinger linked first

theorem Linked.there (linked : Linked osdc) (known : req ∈ osdc.requests ∨ req ∈ osdc.reqLinger) :
    ∀ osd, (osdc.req req).osd = some osd → osd ∈ osdc.osds := by
  intro osd hangs
  refine linked.open' osd req ?_
  exact known.imp (fun registered => (linked.here osd req).mpr ⟨registered, hangs⟩)
    fun lingers => (linked.hereLinger osd req).mpr ⟨lingers, hangs⟩

theorem requeueRequest_same : SameLinks osdc (osdc.requeueRequest req) :=
  delLruItem_same.trans (setReq_same rfl)

theorem requeue_unsent : (reqs.foldl requeueRequest osdc).reqUnsent = osdc.reqUnsent.filter (· ∉ reqs) := by
  induction reqs generalizing osdc with
  | nil => simp
  | cons req rest ih =>
    rw [foldl_cons, ih]
    simp only [requeueRequest, setReq, delLruItem, filter_filter,
      mem_cons, not_or]
    congr 1
    funext other
    simp [Bool.and_comm]

theorem delLru_unsent : (reqs.foldl delLruItem osdc).reqUnsent = osdc.reqUnsent.filter (· ∉ reqs) := by
  induction reqs generalizing osdc with
  | nil => simp
  | cons req rest ih =>
    rw [foldl_cons, ih]
    simp only [delLruItem, filter_filter, mem_cons, not_or]
    congr 1
    funext other
    simp [Bool.and_comm]

theorem Linked.requeued (linked : Linked osdc) {resend : List ReqId} (listed : ∀ req ∈ resend, On osd osdc req)
    (registered : ∀ req ∈ resend, req ∈ osdc.requests) (distinct : resend.Nodup)
    (apart : ∀ req ∈ resend, req ∉ osdc.reqUnsent) : Linked { osdc with reqUnsent := resend ++ osdc.reqUnsent } := by
  refine ⟨linked.apart, linked.here, linked.hereLinger, ?_, linked.open', ?_, linked.distinctHere⟩
  · intro req member
    rcases List.mem_append.mp member with requeued | unsent
    · exact ⟨registered req requeued, by rw [(listed req requeued).2]; rfl⟩
    · exact linked.unsent req unsent
  · refine ⟨linked.distinct.1, linked.distinct.2.1, ?_⟩
    exact nodup_append'.mpr ⟨distinct, linked.distinct.2.2, fun req requeued unsent => apart req requeued unsent⟩

theorem SameLinks.on {before after : CephOsdClient μ} (same : SameLinks before after) (on : On osd before req) :
    On osd after req := by
  rw [On, same.requests, same.reqLinger, same.osd]
  exact on

theorem Linked.on_sent (linked : Linked osdc) : ∀ req ∈ osdc.sentRequests osd, req ∈ osdc.requests ∧ On osd osdc req := by
  intro req sent
  have listed := (linked.here osd req).mp ((takeWhile_sublist _).subset sent)
  exact ⟨listed.1, .inl listed.1, listed.2⟩

def resendRequests (osd : OsdNum) (osdc : CephOsdClient μ) : List ReqId :=
  (osdc.sentRequests osd).filter fun req => (osdc.req req).linger = false

theorem Linked.requeueSent (linked : Linked osdc) : ∃ now, SameLinks osdc now ∧
    (osdc.requeueSent osd).2 = { now with reqUnsent := resendRequests osd osdc ++ now.reqUnsent } ∧
    now.reqUnsent = osdc.reqUnsent.filter (· ∉ osdc.sentRequests osd) ∧ Linked (osdc.requeueSent osd).2 := by
  have same : SameLinks osdc (foldl CephOsdClient.delLruItem
      (foldl CephOsdClient.requeueRequest osdc (resendRequests osd osdc)) (osdc.requeueSent osd).1) :=
    (foldl_same fun _ _ => requeueRequest_same).trans (foldl_same fun _ _ => delLruItem_same)
  have unsent : (foldl CephOsdClient.delLruItem (foldl CephOsdClient.requeueRequest osdc
      (resendRequests osd osdc)) (osdc.requeueSent osd).1).reqUnsent =
      osdc.reqUnsent.filter (· ∉ osdc.sentRequests osd) := by
    rw [delLru_unsent, requeue_unsent, filter_filter]
    congr 1
    funext req
    cases lingers : (osdc.req req).linger <;> simp [resendRequests, CephOsdClient.requeueSent, lingers]
  refine ⟨_, same, rfl, unsent, ?_⟩
  have known := @Linked.on_sent _ osdc osd linked
  have within : ∀ req ∈ resendRequests osd osdc, req ∈ osdc.sentRequests osd :=
    fun req requeued => (List.mem_filter.mp requeued).1
  refine (linked.of_same same).requeued (fun req requeued => same.on (known req (within req requeued)).2) ?_ ?_ ?_
  · intro req requeued
    rw [same.requests]
    exact (known req (within req requeued)).1
  · exact ((linked.distinctHere osd).1.sublist (takeWhile_sublist _)).filter _
  · intro req requeued listed
    rw [unsent] at listed
    simp [within req requeued] at listed

theorem Linked.requeueSent_on (linked : Linked osdc) : (∀ req ∈ (osdc.requeueSent osd).1, On osd (osdc.requeueSent osd).2 req) ∧
    ∀ req ∈ ((osdc.requeueSent osd).2.session osd).lingerRequests, On osd (osdc.requeueSent osd).2 req := by
  obtain ⟨middle, same, equal, -, requeued⟩ := @Linked.requeueSent _ osdc osd linked
  constructor
  · intro req sent
    rw [equal]
    exact same.on (linked.on_sent req (List.mem_filter.mp sent).1).2
  · exact fun req listed => ((requeued.hereLinger osd req).mp listed).imp .inr id

theorem Linked.kickedOsd (linked : Linked osdc) : Linked (osdc.kickOsdRequests ops map osd) := by
  have reset := @Linked.reset _ ops map _ osd linked
  unfold kickOsdRequests
  generalize osdc.resetOsd ops map osd = result at reset
  obtain ⟨answer, now⟩ := result
  cases answer with
  | noDev => exact reset
  | again => exact reset
  | done =>
    obtain ⟨_, _, _, _, requeued⟩ := @Linked.requeueSent _ now osd reset
    obtain ⟨on, onLinger⟩ := @Linked.requeueSent_on _ now osd reset
    obtain ⟨linked', on'⟩ := requeued.kickLingers onLinger on
    exact (linked'.kickLingers on' on').1

theorem Linked.started (linked : Linked osdc) {memory nofail : Bool} (unregistered : req ∉ osdc.requests)
    (off : req ∉ osdc.reqLinger) (free : (osdc.req req).osd = none) :
    Linked (osdc.startRequest ops map memory nofail req) := by
  have registered := linked.register unregistered off free
  have new : Linked ((osdc.registerRequest req).setReq req fun r => { r with sent := 0, gotReply := false }) :=
    registered.of_same (setReq_same rfl)
  have mapped := @Linked.mapped _ ops map _ req new memory false (mem_append_right _ (mem_singleton_self req))
  unfold startRequest
  dsimp only
  split
  next now result =>
    rw [result] at mapped
    split
    · exact mapped
    · exact mapped.unregistered
  next now _ result =>
    rw [result] at mapped
    split
    · exact mapped
    · exact mapped.of_same sendQueued_same

theorem requests_of_ledger {before after : CephOsdClient μ} (same : after.ledger = before.ledger) :
    after.requests = before.requests ∧ after.reqLinger = before.reqLinger :=
  ⟨congrArg Ledger.requests same, congrArg Ledger.reqLinger same⟩

theorem Linked.kicked (linked : Linked osdc) {memory : ReqId → Bool} {force forceWrites : Bool}
    (registered : req ∈ osdc.requests) : Linked (osdc.kickRequest ops map memory force forceWrites req) := by
  unfold CephOsdClient.kickRequest
  split
  next lingers =>
    rw [linked.unregister registered]
    exact linked.detach.registerLinger (by simp [CephOsdClient.detach]) (by simp [CephOsdClient.detach])
      (by simp [CephOsdClient.detach])
  next =>
    dsimp only
    split
    next now result =>
      have mapped := @Linked.mapped _ ops map _ req linked (memory req)
        (force || (forceWrites && (osdc.req req).flags.write)) registered
      rw [result] at mapped
      split
      · exact mapped.of_same (setReq_same rfl)
      · exact mapped
    next now _ result =>
      have mapped := @Linked.mapped _ ops map _ req linked (memory req)
        (force || (forceWrites && (osdc.req req).flags.write)) registered
      rw [result] at mapped
      exact mapped

theorem kickRequest_requests {memory : ReqId → Bool} {force forceWrites : Bool} :
    (osdc.kickRequest ops map memory force forceWrites req).ledger = osdc.ledger ∨
    (osdc.kickRequest ops map memory force forceWrites req).ledger = (osdc.ledger.unregister req).linger req := by
  unfold kickRequest
  split
  · right
    rw [ledger_registerLingerRequest, ledger_unregisterRequest]
  · left
    dsimp only
    have mapped := @ledger_mapRequest _ ops map osdc req (memory req)
      (force || (forceWrites && (osdc.req req).flags.write))
    split
    next now result =>
      rw [result] at mapped
      split
      · rw [ledger_setReq]
        · exact mapped
        · rfl
      · exact mapped
    next now _ result =>
      rw [result] at mapped
      exact mapped

theorem kickRequest_registered {memory : ReqId → Bool} (registered : other ∈ osdc.requests) (differs : other ≠ req) :
    other ∈ (osdc.kickRequest ops map memory force forceWrites req).requests := by
  rcases @kickRequest_requests _ ops map osdc req memory force forceWrites with same | same
  · rw [(requests_of_ledger same).1]
    exact registered
  · have requests : (osdc.kickRequest ops map memory force forceWrites req).requests = osdc.requests.filter (· ≠ req) :=
      congrArg Ledger.requests same
    rw [requests]
    exact List.mem_filter.mpr ⟨registered, by simpa using differs⟩

theorem Linked.kickedAll {reqs : List ReqId} (linked : Linked osdc) {memory : ReqId → Bool} {force forceWrites : Bool}
    (registered : ∀ req ∈ reqs, req ∈ osdc.requests) (distinct : reqs.Nodup) :
    Linked (reqs.foldl (kickRequest ops map memory force forceWrites) osdc) := by
  induction reqs generalizing osdc with
  | nil => exact linked
  | cons req rest ih =>
    obtain ⟨first, distinct⟩ := List.nodup_cons.mp distinct
    refine ih (linked.kicked (registered req mem_cons_self)) ?_ distinct
    exact fun other listed => kickRequest_registered (registered other (mem_cons_of_mem _ listed))
      fun same => first (same ▸ listed)

/-- A linger request that `kick_requests` moves to a session is registered there, but is not unsent. -/
theorem Linked.relinked (linked : Linked osdc) (lingers : req ∈ osdc.reqLinger) (free : (osdc.req req).osd = none)
    (there : osd ∈ osdc.osds) : Linked (((osdc.place osd req).registerRequest req).unregisterLingerRequest req) := by
  have unregistered : req ∉ osdc.requests := fun registered => linked.apart req registered lingers
  have noRequest : osdc.requests.filter (· ≠ req) = osdc.requests := filter_ne_self unregistered
  have noRequest' : ∀ osd, (osdc.session osd).requests.filter (· ≠ req) = (osdc.session osd).requests :=
    fun osd => filter_ne_self fun listed => unregistered ((linked.here osd req).mp listed).1
  have nowhere : ∀ osd, (osdc.session osd).lingerRequests.filter (· ≠ req) = (osdc.session osd).lingerRequests :=
    fun osd => filter_ne_self fun listed => by
      have placed := ((linked.hereLinger osd req).mp listed).2
      rw [free] at placed
      cases placed
  have equal : ((osdc.place osd req).registerRequest req).unregisterLingerRequest req =
      (((osdc.detach req).registerRequest req).place osd req).delLruItem req := by
    unfold CephOsdClient.unregisterLingerRequest
    rw [if_neg (by simpa [CephOsdClient.registerRequest, CephOsdClient.place, CephOsdClient.setReq] using lingers)]
    simp only [ne_eq, decide_not] at noRequest noRequest' nowhere
    simp [CephOsdClient.registerRequest, CephOsdClient.place, CephOsdClient.setReq, CephOsdClient.detach,
      CephOsdClient.delLruItem, CephOsdClient.delLingerOsdItem, noRequest, noRequest', nowhere]
    funext where'
    by_cases at' : where' = osd
    · subst at'
      simp [nowhere]
    · simp [at', nowhere]
  rw [equal]
  have registered : Linked ((osdc.detach req).registerRequest req) :=
    linked.detach.register (by simp [CephOsdClient.detach]) (by simp [CephOsdClient.detach])
      (by simp [CephOsdClient.detach])
  refine (registered.place ?_ ?_ there).of_same delLruItem_same
  · simp [CephOsdClient.registerRequest]
  · simp [CephOsdClient.registerRequest, CephOsdClient.setReq, CephOsdClient.detach]

theorem Linked.movedLinger (linked : Linked osdc) {memory : Bool}
    (lingers : req ∈ osdc.reqLinger) {result : MapResult} {now : CephOsdClient μ}
    (ran : osdc.moveRequest ops map memory acting o req = (result, now)) : Linked now ∧ (now.req req).osd = none ∨
      result = .changed ∧ (now.req req).osd.isSome ∧ Linked ((now.registerRequest req).unregisterLingerRequest req) := by
  have unplaced := @Linked.unplace _ _ req linked acting
  have free : ((osdc.unplace acting req).req req).osd = none := by simp [CephOsdClient.unplace]
  have apart : Linked { osdc.unplace acting req with reqNotarget := req :: (osdc.unplace acting req).reqNotarget } :=
    unplaced.of_same ⟨rfl, rfl, fun _ => id, id, rfl, fun _ => rfl, fun _ => ⟨rfl, rfl⟩⟩
  have apart' : Linked { osdc.unplace acting req with reqNotarget := (osdc.unplace acting req).reqNotarget ++ [req] } :=
    unplaced.of_same ⟨rfl, rfl, fun _ => id, id, rfl, fun _ => rfl, fun _ => ⟨rfl, rfl⟩⟩
  rw [linked.move] at ran
  split at ran
  next there =>
    cases ran
    exact .inr ⟨rfl, by simp [CephOsdClient.place], unplaced.relinked lingers free there⟩
  next absent =>
    split at ran
    · split at ran
      · cases ran
        have created : Linked ((osdc.unplace acting req).createOsd o (ops.addr map o)) := unplaced.createOsd absent
        exact .inr ⟨rfl, by simp [CephOsdClient.place],
          created.relinked lingers free (by simp [CephOsdClient.createOsd])⟩
      · cases ran
        exact .inl ⟨apart, free⟩
    · cases ran
      exact .inl ⟨apart', free⟩

theorem Linked.kickedLinger (linked : Linked osdc) {memory : ReqId → Bool} {force : Bool}
    (lingers : req ∈ osdc.reqLinger) : Linked (osdc.kickLinger ops map memory force req) := by
  have kept := @requestMapping_osd _ ops map force osdc.session (osdc.req req)
  unfold CephOsdClient.kickLinger CephOsdClient.mapRequest
  generalize requestMapping ops map force osdc.session (osdc.req req) = result at kept
  obtain ⟨r, mapping⟩ := result
  have set' : Linked (osdc.setReq req fun _ => r) := linked.of_same (setReq_same kept)
  cases mapping with
  | error => exact set'.of_same moveNotarget_same
  | unchanged => exact set'
  | moved acting o =>
    dsimp only
    cases ran : (osdc.setReq req fun _ => r).moveRequest ops map (memory req) acting o req with
    | mk result now =>
      rcases set'.movedLinger lingers ran with ⟨linked', free⟩ | ⟨rfl, placed, linked'⟩
      · cases result with
        | error => exact linked'
        | unchanged => exact linked'
        | changed =>
          dsimp only
          rw [if_pos free]
          exact linked'
      · dsimp only
        rw [if_neg (by
          intro none
          rw [none] at placed
          cases placed)]
        exact linked'

theorem kickLinger_ledger {memory : ReqId → Bool} {force : Bool} :
    (osdc.kickLinger ops map memory force req).ledger = osdc.ledger ∨
    (osdc.kickLinger ops map memory force req).ledger = (osdc.ledger.register req).unlinger req := by
  have mapped := @ledger_mapRequest _ ops map osdc req (memory req) force
  unfold kickLinger
  split
  next now result =>
    rw [result] at mapped
    split
    · exact .inl mapped
    · right
      rw [ledger_unregisterLingerRequest, ledger_registerRequest]
      exact congrArg (fun ledger : Ledger => (ledger.register req).unlinger req) mapped
  next now _ result =>
    rw [result] at mapped
    exact .inl mapped

theorem kickLinger_lingers {memory : ReqId → Bool} (lingers : other ∈ osdc.reqLinger)
    (differs : other ≠ req) : other ∈ (osdc.kickLinger ops map memory force req).reqLinger := by
  rcases @kickLinger_ledger _ ops map osdc req memory force with same | same
  · rw [(requests_of_ledger same).2]
    exact lingers
  · have kept : (osdc.kickLinger ops map memory force req).reqLinger = osdc.reqLinger.filter (· ≠ req) :=
      congrArg Ledger.reqLinger same
    rw [kept]
    exact List.mem_filter.mpr ⟨lingers, by simpa using differs⟩

theorem Linked.kickedLingers (linked : Linked osdc) {memory : ReqId → Bool}
    (lingers : ∀ req ∈ reqs, req ∈ osdc.reqLinger) (distinct : reqs.Nodup) :
    Linked (reqs.foldl (CephOsdClient.kickLinger ops map memory force) osdc) := by
  induction reqs generalizing osdc with
  | nil => exact linked
  | cons req rest ih =>
    obtain ⟨first, distinct⟩ := List.nodup_cons.mp distinct
    refine ih (linked.kickedLinger (lingers req mem_cons_self)) ?_ distinct
    exact fun other listed => kickLinger_lingers (lingers other (mem_cons_of_mem _ listed))
      fun same => first (same ▸ listed)

theorem Linked.kickedRequests (linked : Linked osdc) {memory : ReqId → Bool} :
    Linked (osdc.kickRequests ops map memory force forceWrites) := by
  have first : Linked (osdc.requests.foldl (kickRequest ops map memory force forceWrites) osdc) :=
    linked.kickedAll (fun _ => id) linked.distinct.1
  exact (first.kickedLingers (fun _ => id) first.distinct.2.1).resetChanged

/-- A registered request that becomes a lingering one of its session. -/
def CephOsdClient.lingered (osd : OsdNum) (req : ReqId) (osdc : CephOsdClient μ) : CephOsdClient μ :=
  { osdc with
    requests := osdc.requests.filter (· ≠ req)
    reqLinger := osdc.reqLinger ++ [req]
    reqLru := osdc.reqLru.filter (· ≠ req)
    reqUnsent := osdc.reqUnsent.filter (· ≠ req)
    reqNotarget := osdc.reqNotarget.filter (· ≠ req)
    session := fun other =>
      { osdc.session other with
        requests := (osdc.session other).requests.filter (· ≠ req)
        lingerRequests := (osdc.session other).lingerRequests ++ if other = osd then [req] else [] } }

theorem Linked.lingered (linked : Linked osdc) (registered : req ∈ osdc.requests)
    (hangs : (osdc.req req).osd = some osd) : Linked (osdc.lingered osd req) := by
  have off : req ∉ osdc.reqLinger := linked.apart req registered
  have there := linked.open' osd req (.inl ((linked.here osd req).mpr ⟨registered, hangs⟩))
  obtain ⟨apart, here, hereLinger, unsent, open', distinct, distinctHere⟩ := linked
  refine ⟨?_, ?_, ?_, ?_, ?_, ?_, ?_⟩
  · intro other listed
    simp only [CephOsdClient.lingered, mem_filter, decide_eq_true_eq] at listed
    simp [CephOsdClient.lingered, listed.2, apart other listed.1]
  · intro where' other
    simp only [CephOsdClient.lingered, mem_filter, here]
    tauto
  · intro where' other
    simp only [CephOsdClient.lingered, mem_append, hereLinger, mem_singleton]
    by_cases same : other = req
    · subst same
      by_cases at' : where' = osd
      · subst at'
        simp [hangs]
      · simp [at', off, hangs, Ne.symm at']
    · by_cases at' : where' = osd
      · subst at'
        simp [same]
      · simp [at', same]
  · intro other listed
    simp only [CephOsdClient.lingered, mem_filter] at listed ⊢
    exact ⟨⟨(unsent other listed.1).1, listed.2⟩, (unsent other listed.1).2⟩
  · intro where' other listed
    simp only [CephOsdClient.lingered, mem_filter, mem_append] at listed
    by_cases at' : where' = osd
    · subst at'
      exact there
    · simp only [at', if_false, not_mem_nil, or_false] at listed
      exact open' where' other (listed.imp (·.1) id)
  · refine ⟨distinct.1.filter _, ?_, distinct.2.2.filter _⟩
    exact nodup_snoc distinct.2.1 off
  · intro where'
    refine ⟨(distinctHere where').1.filter _, ?_⟩
    simp only [CephOsdClient.lingered]
    split
    · exact nodup_snoc (distinctHere where').2 fun listed => off ((hereLinger where' req).mp listed).1
    · rw [List.append_nil]
      exact (distinctHere where').2

/-- A reply that makes a request linger unregisters it. -/
theorem Linked.linger_eq (linked : Linked osdc) (registered : req ∈ osdc.requests) :
    (osdc.registerLingerRequest req).unregisterRequest req =
      match (osdc.req req).osd with
      | none => (osdc.detach req).registerLingerRequest req
      | some osd => osdc.lingered osd req := by
  have off : req ∉ osdc.reqLinger := linked.apart req registered
  have noLinger : osdc.reqLinger.filter (· ≠ req) = osdc.reqLinger := filter_ne_self off
  cases hangs : (osdc.req req).osd with
  | none =>
    have nowhere : ∀ osd, (osdc.session osd).requests.filter (· ≠ req) = (osdc.session osd).requests :=
      fun osd => filter_ne_self fun listed => by
        have placed := ((linked.here osd req).mp listed).2
        rw [hangs] at placed
        cases placed
    have nowhere' : ∀ osd, (osdc.session osd).lingerRequests.filter (· ≠ req) = (osdc.session osd).lingerRequests :=
      fun osd => filter_ne_self fun listed => off ((linked.hereLinger osd req).mp listed).1
    have same : Function.update osdc.req req { osdc.req req with osd := none } = osdc.req := by
      rw [← hangs]
      exact Function.update_eq_self req osdc.req
    unfold CephOsdClient.unregisterRequest CephOsdClient.registerLingerRequest
    simp only [hangs, registered, not_true, ↓reduceIte, CephOsdClient.detach, CephOsdClient.delLruItem,
      Function.update_self, noLinger, nowhere, nowhere', same]
  | some osd =>
    unfold CephOsdClient.unregisterRequest CephOsdClient.registerLingerRequest
    simp only [hangs, registered, not_true, ↓reduceIte, CephOsdClient.delLruItem, CephOsdClient.delOsdItem,
      CephOsdClient.setSession, CephOsdClient.lingered, Function.update_self, mem_append, mem_singleton,
      or_true]
    congr 1
    funext where'
    by_cases at' : where' = osd
    · subst at'
      simp
    · simp [at']

theorem Linked.settled (linked : Linked osdc) (registered : req ∈ osdc.requests) :
    Linked (osdc.settleReply reply req) := by
  unfold CephOsdClient.settleReply
  by_cases lingers : (osdc.req req).linger ∧ reply.flagsOndisk
  · rw [if_pos lingers, if_pos (.inr (.inl lingers.2)), linked.linger_eq registered]
    split
    · exact linked.detach.registerLinger (by simp [CephOsdClient.detach]) (by simp [CephOsdClient.detach])
        (by simp [CephOsdClient.detach])
    · next osd hangs => exact linked.lingered registered hangs
  · rw [if_neg lingers]
    split
    · exact linked.unregistered
    · exact linked

theorem lookup_registered {tid : Nat} (found : osdc.lookup tid = some req) : req ∈ osdc.requests :=
  mem_of_find?_eq_some found

theorem Linked.replied (linked : Linked osdc) {memory : Bool} : Linked (osdc.handleReply ops map memory reply) := by
  unfold CephOsdClient.handleReply
  split
  · exact linked
  · cases found : osdc.lookup reply.tid with
    | none => exact linked
    | some req =>
      have registered := lookup_registered found
      dsimp only
      split
      · have failed : Linked (osdc.setReq req fun r => { r with result := -5 }) := linked.of_same (setReq_same rfl)
        exact failed.unregistered.of_same note_same
      · split
        · unfold CephOsdClient.redirectReply
          rw [linked.unregister registered]
          refine Linked.started (linked.detach.of_same (setReq_same rfl)) ?_ ?_ ?_ <;>
            simp [CephOsdClient.detach, CephOsdClient.setReq]
        · unfold CephOsdClient.plainReply
          split
          · have set' : Linked (osdc.setReq req reply.answer) := linked.of_same (setReq_same rfl)
            exact (set'.settled registered).of_same note_same
          · split
            · exact linked
            · exact (linked.settled registered).of_same note_same

theorem Linked.cancelled (linked : Linked osdc) : Linked (osdc.cephOsdcCancelRequest req) := by
  unfold cephOsdcCancelRequest
  split
  · exact linked.unlingered.unregistered
  · exact linked.unregistered

theorem Linked.setUnknown (linked : Linked osdc) (unregistered : req ∉ osdc.requests) (off : req ∉ osdc.reqLinger)
    (change : OsdRequest → OsdRequest) : Linked (osdc.setReq req change) := by
  obtain ⟨apart, here, hereLinger, unsent, open', distinct, distinctHere⟩ := linked
  refine ⟨apart, ?_, ?_, ?_, open', distinct, distinctHere⟩
  · intro where' other
    by_cases same : other = req
    · subst same
      simp [setReq, here, unregistered]
    · simp [setReq, same, here]
  · intro where' other
    by_cases same : other = req
    · subst same
      simp [setReq, hereLinger, off]
    · simp [setReq, same, hereLinger]
  · intro other listed
    have was := unsent other listed
    have same : other ≠ req := fun same => unregistered (same ▸ was.1)
    simpa [setReq, same] using was

end

section

variable {ops : MapOps μ} {osdc next : CephOsdClient μ} {call : OsdCall μ}

theorem SameLinks.setMap {map : Option μ} : SameLinks osdc { osdc with osdmap := map } :=
  ⟨rfl, rfl, fun _ => id, id, rfl, fun _ => rfl, fun _ => ⟨rfl, rfl⟩⟩

theorem OsdCall.linked (linked : Linked osdc) (proper : call.Proper osdc) (ran : call.run ops osdc = .ok next) :
    Linked next := by
  cases call with
  | start req new nofail memory =>
    obtain ⟨map, -, done⟩ := ok_of_bind ran
    cases done
    obtain ⟨-, unregistered, off, fresh⟩ := proper
    have set' := (linked.setUnknown unregistered off (fun _ => new)).of_same (@note_same _ _ [.started req])
    exact set'.started unregistered off (by simp [CephOsdClient.note, setReq, fresh.idle.1])
  | cancel req =>
    cases ran
    exact linked.cancelled
  | reply message memory =>
    obtain ⟨map, -, done⟩ := ok_of_bind ran
    cases done
    exact linked.replied
  | reset osd =>
    obtain ⟨map, -, done⟩ := ok_of_bind ran
    cases done
    exact linked.kickedOsd.of_same sendQueued_same
  | newMap map memory forceResend forceResendWrites =>
    cases ran
    exact (linked.of_same SameLinks.setMap).kickedRequests
  | spoilMap map =>
    cases ran
    exact linked.of_same SameLinks.setMap
  | sendQueued =>
    cases ran
    exact linked.of_same sendQueued_same
  | connection osd opened =>
    cases ran
    exact linked.of_same (setSession_same ⟨rfl, rfl⟩)
  | removeIdle osd =>
    cases ran
    exact linked.removed proper

theorem Linked.init {req : ReqId → OsdRequest} : Linked (CephOsdClient.init req : CephOsdClient μ) := by
  refine ⟨?_, ?_, ?_, ?_, ?_, ?_, ?_⟩ <;> simp [CephOsdClient.init]

/-- In every run the registries, the lists of the sessions and `r_osd` agree, and no request is on two sessions. -/
theorem requests_linked {req : ReqId → OsdRequest}
    (reached : Reached (OsdCall.run ops) OsdCall.Proper (.init req) osdc) :
    Linked osdc ∧ ∀ first second req, req ∈ (osdc.session first).requests ∨ req ∈ (osdc.session first).lingerRequests →
      req ∈ (osdc.session second).requests ∨ req ∈ (osdc.session second).lingerRequests → first = second := by
  have linked : Linked osdc := by
    refine @Reached.preserved _ _ _ _ _ (fun osdc => Linked osdc) _ _ ?_ Linked.init reached
    exact fun call before after proper linked ran => OsdCall.linked linked proper ran
  have place : ∀ osd req, req ∈ (osdc.session osd).requests ∨ req ∈ (osdc.session osd).lingerRequests →
      (osdc.req req).osd = some osd := by
    rintro osd req (listed | lingers)
    · exact ((linked.here osd req).mp listed).2
    · exact ((linked.hereLinger osd req).mp lingers).2
  refine ⟨linked, fun first second req here there => ?_⟩
  exact Option.some.inj ((place first req here).symm.trans (place second req there))

end

/-- A write is started, and its pool moves to another osd. -/
theorem requests_linked_moved : ∃ osdc : CephOsdClient PoolMap, (osdc.session 3).requests = [] ∧
    (osdc.session 4).requests = [7] ∧ Linked osdc := by
  have mapped : Reached (OsdCall.run poolOps) OsdCall.Proper (.init fun _ => poolWrite 1 false) _ :=
    Reached.start.next (.newMap { epoch := 1, pools := [(1, 3)] } (fun _ => true) false false) trivial rfl
  have started := mapped.next (.start 7 (poolWrite 1 false) false true)
    ⟨by decide, by decide, by decide, poolWrite_fresh 1 false⟩ rfl
  have moved := started.next (.newMap { epoch := 2, pools := [(1, 4)] } (fun _ => true) false false) trivial rfl
  exact ⟨_, by decide +kernel, by decide +kernel, (requests_linked moved).1⟩

end KmodCeph.OsdClient
