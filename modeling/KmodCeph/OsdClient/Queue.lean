import KmodCeph.OsdClient.Linked

namespace KmodCeph.OsdClient

open Lib CephOsdClient List

variable {μ : Type}

/-- What waits on a session is queued, and sessions, incarnations and tids are in use as they should be. -/
structure Queued (osdc : CephOsdClient μ) : Prop where
  linked : Linked osdc
  pending : ∀ osd, ∀ req ∈ (osdc.session osd).requests, (osdc.req req).sent ≠ 0 ∨ req ∈ osdc.reqUnsent
  idle : ∀ req ∈ osdc.requests, (osdc.req req).osd = none → (osdc.req req).sent = 0
  alive : ∀ osd ∈ osdc.osds, 0 < (osdc.session osd).incarnation
  numbers : ∀ osd ∈ osdc.osds, 0 ≤ osd
  tids : ∀ req, req ∈ osdc.requests ∨ req ∈ osdc.reqLinger → (osdc.req req).tid ≤ osdc.lastTid
  past : ∀ osd req, On osd osdc req → (osdc.req req).sent ≤ (osdc.session osd).incarnation

def InOrder (osdc : CephOsdClient μ) : Prop :=
  ∀ osd, (osdc.session osd).requests.Pairwise fun earlier later => (osdc.req later).sent ≠ 0 → (osdc.req earlier).sent ≠ 0

structure SameQueue (before after : CephOsdClient μ) : Prop where
  links : SameLinks before after
  unsent : after.reqUnsent = before.reqUnsent
  lastTid : after.lastTid = before.lastTid
  req : ∀ req, (after.req req).sent = (before.req req).sent ∧ (after.req req).tid = (before.req req).tid
  incarnation : ∀ osd, (after.session osd).incarnation = (before.session osd).incarnation

section

variable {osdc before after : CephOsdClient μ} {req : ReqId} {osd : OsdNum}

theorem Queued.of_same (queued : Queued before) (same : SameQueue before after) : Queued after where
  linked := queued.linked.of_same same.links
  pending := by
    intro osd req listed
    rw [(same.links.session osd).1] at listed
    rw [(same.req req).1, same.unsent]
    exact queued.pending osd req listed
  idle := by
    intro req listed
    rw [same.links.requests] at listed
    rw [same.links.osd, (same.req req).1]
    exact queued.idle req listed
  alive := by
    intro osd
    rw [same.links.osds, same.incarnation]
    exact queued.alive osd
  numbers := by
    rw [same.links.osds]
    exact queued.numbers
  tids := by
    intro req
    rw [same.links.requests, same.links.reqLinger, (same.req req).2, same.lastTid]
    exact queued.tids req
  past := by
    intro osd req on
    rw [On, same.links.requests, same.links.reqLinger, same.links.osd] at on
    rw [(same.req req).1, same.incarnation]
    exact queued.past osd req on

theorem InOrder.of_same (inOrder : InOrder before) (same : SameQueue before after) : InOrder after := by
  intro osd
  rw [(same.links.session osd).1]
  refine (inOrder osd).imp fun later => ?_
  rw [(same.req _).1, (same.req _).1]
  exact later

theorem setReq_queue {change : OsdRequest → OsdRequest}
    (same : (change (osdc.req req)).osd = (osdc.req req).osd ∧ (change (osdc.req req)).sent = (osdc.req req).sent ∧
      (change (osdc.req req)).tid = (osdc.req req).tid) : SameQueue osdc (osdc.setReq req change) where
  links := setReq_same same.1
  unsent := rfl
  lastTid := rfl
  req := by
    intro other
    by_cases here : other = req
    · subst here
      simpa [setReq] using same.2
    · simp [setReq, here]
  incarnation := fun _ => rfl

theorem note_queue {events : List OsdEvent} : SameQueue osdc (osdc.note events) :=
  ⟨note_same, rfl, rfl, fun _ => ⟨rfl, rfl⟩, fun _ => rfl⟩

theorem setMap_queue {map : Option μ} : SameQueue osdc { osdc with osdmap := map } :=
  ⟨SameLinks.setMap, rfl, rfl, fun _ => ⟨rfl, rfl⟩, fun _ => rfl⟩

theorem setSession_queue {change : OsdSession → OsdSession}
    (same : (change (osdc.session osd)).requests = (osdc.session osd).requests ∧
      (change (osdc.session osd)).lingerRequests = (osdc.session osd).lingerRequests)
    (incarnation : (change (osdc.session osd)).incarnation = (osdc.session osd).incarnation) :
    SameQueue osdc (osdc.setSession osd change) where
  links := setSession_same same
  unsent := rfl
  lastTid := rfl
  req := fun _ => ⟨rfl, rfl⟩
  incarnation := by
    intro other
    by_cases here : other = osd
    · subst here
      simpa [setSession] using incarnation
    · simp [setSession, here]

theorem Queued.detach (queued : Queued osdc) : Queued (osdc.detach req) where
  linked := queued.linked.detach
  pending := by
    intro osd other listed
    simp only [CephOsdClient.detach, mem_filter, decide_eq_true_eq] at listed ⊢
    rw [Function.update_of_ne listed.2]
    exact (queued.pending osd other listed.1).imp id fun unsent => ⟨unsent, listed.2⟩
  idle := by
    intro other listed
    simp only [CephOsdClient.detach, mem_filter, decide_eq_true_eq] at listed ⊢
    rw [Function.update_of_ne listed.2]
    exact queued.idle other listed.1
  alive := queued.alive
  numbers := queued.numbers
  tids := by
    intro other listed
    simp only [CephOsdClient.detach, mem_filter, decide_eq_true_eq, ← or_and_right] at listed ⊢
    rw [Function.update_of_ne listed.2]
    exact queued.tids other listed.1
  past := by
    intro osd other on
    simp only [On, CephOsdClient.detach, mem_filter, decide_eq_true_eq, ← or_and_right] at on ⊢
    rw [Function.update_of_ne on.1.2] at on ⊢
    exact queued.past osd other ⟨on.1.1, on.2⟩

theorem InOrder.filtered (inOrder : InOrder osdc) {keep : ReqId → Bool} {value : OsdRequest}
    (gone : keep req = false) : ((osdc.session osd).requests.filter keep).Pairwise fun earlier later =>
      (Function.update osdc.req req value later).sent ≠ 0 → (Function.update osdc.req req value earlier).sent ≠ 0 := by
  refine ((inOrder osd).filter keep).imp_of_mem fun {earlier later} first second ordered => ?_
  have differs : ∀ other, other ∈ (osdc.session osd).requests.filter keep → other ≠ req := by
    rintro other listed rfl
    rw [mem_filter, gone] at listed
    cases listed.2
  rw [Function.update_of_ne (differs later second), Function.update_of_ne (differs earlier first)]
  exact ordered

theorem InOrder.detach (inOrder : InOrder osdc) : InOrder (osdc.detach req) :=
  fun _ => inOrder.filtered (by simp)

theorem Queued.unplace (queued : Queued osdc) {acting : List Int} : Queued (osdc.unplace acting req) where
  linked := queued.linked.unplace
  pending := by
    intro osd other listed
    simp only [CephOsdClient.unplace, mem_filter, decide_eq_true_eq] at listed ⊢
    rw [Function.update_of_ne listed.2]
    exact (queued.pending osd other listed.1).imp id fun unsent => ⟨unsent, listed.2⟩
  idle := by
    intro other listed free
    by_cases same : other = req
    · subst same
      simp only [CephOsdClient.unplace, Function.update_self]
      cases hangs : (osdc.req other).osd with
      | none => simpa [hangs] using queued.idle other listed hangs
      | some osd => rfl
    · simp only [CephOsdClient.unplace, Function.update_of_ne same] at free ⊢
      exact queued.idle other listed free
  alive := queued.alive
  numbers := queued.numbers
  tids := by
    intro other listed
    by_cases same : other = req
    · subst same
      simpa [CephOsdClient.unplace] using queued.tids other listed
    · simpa [CephOsdClient.unplace, same] using queued.tids other listed
  past := by
    intro osd other on
    by_cases same : other = req
    · subst same
      simp [On, CephOsdClient.unplace] at on
    · simp only [On, CephOsdClient.unplace, Function.update_of_ne same] at on ⊢
      exact queued.past osd other on

theorem InOrder.unplace (inOrder : InOrder osdc) {acting : List Int} : InOrder (osdc.unplace acting req) :=
  fun _ => inOrder.filtered (by simp)

theorem Queued.place (queued : Queued osdc) (registered : req ∈ osdc.requests) (free : (osdc.req req).osd = none)
    (there : osd ∈ osdc.osds) : Queued (osdc.place osd req) where
  linked := queued.linked.place registered free there
  pending := by
    intro where' other listed
    by_cases same : other = req
    · subst same
      simp [CephOsdClient.place]
    · have was : other ∈ (osdc.session where').requests := by
        by_cases at' : where' = osd
        · subst at'
          simpa [CephOsdClient.place, same] using listed
        · simpa [CephOsdClient.place, at'] using listed
      simp only [CephOsdClient.place, Function.update_of_ne same, mem_append]
      exact (queued.pending where' other was).imp id .inl
  idle := by
    intro other listed free
    by_cases same : other = req
    · subst same
      simp [CephOsdClient.place] at free
    · simp only [CephOsdClient.place, Function.update_of_ne same] at free ⊢
      exact queued.idle other listed free
  alive := by
    intro where' listed
    by_cases at' : where' = osd
    · subst at'
      simpa [CephOsdClient.place] using queued.alive where' listed
    · simpa [CephOsdClient.place, at'] using queued.alive where' listed
  numbers := queued.numbers
  tids := by
    intro other listed
    by_cases same : other = req
    · subst same
      simpa [CephOsdClient.place] using queued.tids other listed
    · simpa [CephOsdClient.place, same] using queued.tids other listed
  past := by
    intro where' other on
    have incarnation : ((osdc.place osd req).session where').incarnation = (osdc.session where').incarnation := by
      by_cases at' : where' = osd
      · subst at'
        simp [CephOsdClient.place]
      · simp [CephOsdClient.place, at']
    rw [incarnation]
    by_cases same : other = req
    · subst same
      have unsent := queued.idle other registered free
      simp [CephOsdClient.place, unsent]
    · simp only [On, CephOsdClient.place, Function.update_of_ne same] at on ⊢
      exact queued.past where' other on

theorem InOrder.place (inOrder : InOrder osdc) (unsent : (osdc.req req).sent = 0) : InOrder (osdc.place osd req) := by
  have sent : ∀ other, ((osdc.place osd req).req other).sent = (osdc.req other).sent := by
    intro other
    by_cases same : other = req
    · subst same
      simp [CephOsdClient.place]
    · simp [CephOsdClient.place, same]
  intro where'
  simp only [sent]
  by_cases at' : where' = osd
  · subst at'
    simp only [CephOsdClient.place, Function.update_self]
    refine List.pairwise_append.mpr ⟨inOrder where', pairwise_singleton _ _, ?_⟩
    intro earlier _ later last nonzero
    cases List.mem_singleton.mp last
    exact absurd unsent nonzero
  · simp only [CephOsdClient.place, Function.update_of_ne at']
    exact inOrder where'

theorem Queued.createOsd (queued : Queued osdc) (absent : osd ∉ osdc.osds) (number : 0 ≤ osd) {addr : EntityAddr} :
    Queued (osdc.createOsd osd addr) where
  linked := queued.linked.createOsd absent
  pending := by
    intro where' other listed
    by_cases at' : where' = osd
    · subst at'
      simp [CephOsdClient.createOsd] at listed
    · simp only [CephOsdClient.createOsd, Function.update_of_ne at'] at listed
      exact queued.pending where' other listed
  idle := queued.idle
  alive := by
    intro where' listed
    by_cases at' : where' = osd
    · subst at'
      simp [CephOsdClient.createOsd]
    · simp only [CephOsdClient.createOsd, Function.update_of_ne at']
      refine queued.alive where' ?_
      simp only [CephOsdClient.createOsd, mem_append, mem_filter, mem_cons, at', false_or] at listed
      exact listed.elim (·.1) (·.1)
  numbers := by
    intro where' listed
    simp only [CephOsdClient.createOsd, mem_append, mem_filter, mem_cons] at listed
    rcases listed with listed | rfl | listed
    · exact queued.numbers where' listed.1
    · exact number
    · exact queued.numbers where' listed.1
  tids := queued.tids
  past := by
    intro where' other on
    have differs : where' ≠ osd := fun same => absent (same ▸ queued.linked.there on.1 where' on.2)
    simp only [CephOsdClient.createOsd, Function.update_of_ne differs]
    exact queued.past where' other on

theorem InOrder.createOsd (inOrder : InOrder osdc) {addr : EntityAddr} : InOrder (osdc.createOsd osd addr) := by
  intro where'
  by_cases at' : where' = osd
  · subst at'
    simp [CephOsdClient.createOsd]
  · simp only [CephOsdClient.createOsd, Function.update_of_ne at']
    exact inOrder where'

theorem Queued.notarget (queued : Queued osdc)
    (settled : ∀ osd, req ∈ (osdc.session osd).requests → (osdc.req req).sent ≠ 0) : Queued (osdc.moveNotarget req) where
  linked := queued.linked.of_same moveNotarget_same
  pending := by
    intro osd other listed
    by_cases same : other = req
    · subst same
      exact .inl (settled osd listed)
    · refine (queued.pending osd other listed).imp id fun unsent => ?_
      exact List.mem_filter.mpr ⟨unsent, by simpa using same⟩
  idle := queued.idle
  alive := queued.alive
  numbers := queued.numbers
  tids := queued.tids
  past := queued.past

theorem Queued.register (queued : Queued osdc) (unregistered : req ∉ osdc.requests) (off : req ∉ osdc.reqLinger)
    (free : (osdc.req req).osd = none) (unsent : (osdc.req req).sent = 0) : Queued (osdc.registerRequest req) where
  linked := queued.linked.register unregistered off free
  pending := by
    intro osd other listed
    by_cases same : other = req
    · subst same
      exact absurd ((queued.linked.here osd other).mp listed).1 unregistered
    · simpa [registerRequest, setReq, same] using queued.pending osd other listed
  idle := by
    intro other listed
    by_cases same : other = req
    · subst same
      simp [registerRequest, setReq, unsent]
    · have was : other ∈ osdc.requests := by
        simpa [registerRequest, same] using listed
      simpa [registerRequest, setReq, same] using queued.idle other was
  alive := queued.alive
  numbers := queued.numbers
  tids := by
    intro other listed
    by_cases same : other = req
    · subst same
      simp [registerRequest, setReq]
    · have was : other ∈ osdc.requests ∨ other ∈ osdc.reqLinger := by
        simpa [registerRequest, setReq, same] using listed
      have below := queued.tids other was
      simp only [registerRequest, setReq, Function.update_of_ne same]
      omega
  past := by
    intro osd other on
    by_cases same : other = req
    · subst same
      simp [On, registerRequest, setReq, free] at on
    · have was : On osd osdc other := by
        simpa [On, registerRequest, setReq, same] using on
      simpa [registerRequest, setReq, same] using queued.past osd other was

theorem InOrder.setTid (inOrder : InOrder osdc) : InOrder (osdc.registerRequest req) := by
  have sent : ∀ other, ((osdc.registerRequest req).req other).sent = (osdc.req other).sent := by
    intro other
    by_cases same : other = req
    · subst same
      simp [registerRequest, setReq]
    · simp [registerRequest, setReq, same]
  intro osd
  simp only [sent]
  exact inOrder osd

theorem Queued.registerLinger (queued : Queued osdc) (unregistered : req ∉ osdc.requests) (off : req ∉ osdc.reqLinger)
    (free : (osdc.req req).osd = none) (tid : (osdc.req req).tid ≤ osdc.lastTid) :
    Queued (osdc.registerLingerRequest req) := by
  have linked := queued.linked.registerLinger unregistered off free
  have equal : osdc.registerLingerRequest req = { osdc with reqLinger := osdc.reqLinger ++ [req] } := by
    simp only [registerLingerRequest, free]
  rw [equal] at linked ⊢
  refine ⟨linked, queued.pending, queued.idle, queued.alive, queued.numbers, ?_, ?_⟩
  · rintro other (listed | listed)
    · exact queued.tids other (.inl listed)
    · rcases List.mem_append.mp listed with was | last
      · exact queued.tids other (.inr was)
      · cases List.mem_singleton.mp last
        exact tid
  · rintro osd other ⟨listed, hangs⟩
    refine queued.past osd other ⟨listed.imp id fun lingers => ?_, hangs⟩
    rcases List.mem_append.mp lingers with was | last
    · exact was
    · cases List.mem_singleton.mp last
      rw [free] at hangs
      cases hangs

theorem InOrder.registerLinger (inOrder : InOrder osdc) (free : (osdc.req req).osd = none) :
    InOrder (osdc.registerLingerRequest req) := by
  have equal : osdc.registerLingerRequest req = { osdc with reqLinger := osdc.reqLinger ++ [req] } := by
    simp only [registerLingerRequest, free]
  rw [equal]
  exact inOrder

theorem Queued.lingered (queued : Queued osdc) (registered : req ∈ osdc.requests)
    (hangs : (osdc.req req).osd = some osd) : Queued (osdc.lingered osd req) where
  linked := queued.linked.lingered registered hangs
  pending := by
    intro where' other listed
    simp only [CephOsdClient.lingered, mem_filter] at listed ⊢
    exact (queued.pending where' other listed.1).imp id fun unsent => ⟨unsent, listed.2⟩
  idle := by
    intro other listed
    exact queued.idle other (List.mem_filter.mp listed).1
  alive := queued.alive
  numbers := queued.numbers
  tids := by
    rintro other (listed | listed)
    · exact queued.tids other (.inl (List.mem_filter.mp listed).1)
    · rcases List.mem_append.mp listed with was | last
      · exact queued.tids other (.inr was)
      · cases List.mem_singleton.mp last
        exact queued.tids _ (.inl registered)
  past := by
    rintro where' other ⟨listed, hangs'⟩
    refine queued.past where' other ⟨?_, hangs'⟩
    rcases listed with registered | lingers
    · exact .inl (List.mem_filter.mp registered).1
    · rcases List.mem_append.mp lingers with was | last
      · exact .inr was
      · cases List.mem_singleton.mp last
        exact .inl registered

theorem InOrder.lingered (inOrder : InOrder osdc) : InOrder (osdc.lingered osd req) :=
  fun where' => (inOrder where').filter _

/-- A linger request that is kicked is queued on its session again, with a new tid. -/
theorem Queued.rekick (queued : Queued osdc) (on : On osd osdc req) : Queued (osdc.kickLingerRequest req) := by
  have linked := queued.linked.kickLinger on.1 on.2
  rw [queued.linked.kickLinger_eq on.1 on.2] at linked ⊢
  refine ⟨linked, ?_, ?_, ?_, queued.numbers, ?_, ?_⟩
  · intro where' other listed
    by_cases same : other = req
    · subst same
      simp [CephOsdClient.place]
    · have was : other ∈ (osdc.session where').requests := by
        by_cases at' : where' = osd
        · subst at'
          simpa [CephOsdClient.place, CephOsdClient.registerRequest, CephOsdClient.setReq, CephOsdClient.detach, same]
            using listed
        · simpa [CephOsdClient.place, CephOsdClient.registerRequest, CephOsdClient.setReq, CephOsdClient.detach, same, at']
            using listed
      simpa [CephOsdClient.place, CephOsdClient.registerRequest, CephOsdClient.setReq, CephOsdClient.detach, same]
        using queued.pending where' other was
  · intro other listed free
    by_cases same : other = req
    · subst same
      simp [CephOsdClient.place] at free
    · simp only [CephOsdClient.place, CephOsdClient.registerRequest, CephOsdClient.setReq, CephOsdClient.detach,
        Function.update_of_ne same, mem_append, mem_filter, mem_singleton, same, or_false] at listed free ⊢
      exact queued.idle other listed.1 free
  · intro where' listed
    by_cases at' : where' = osd
    · subst at'
      simpa [CephOsdClient.place, CephOsdClient.registerRequest, CephOsdClient.setReq, CephOsdClient.detach]
        using queued.alive where' listed
    · simpa [CephOsdClient.place, CephOsdClient.registerRequest, CephOsdClient.setReq, CephOsdClient.detach, at']
        using queued.alive where' listed
  · intro other listed
    by_cases same : other = req
    · subst same
      simp [CephOsdClient.place, CephOsdClient.registerRequest, CephOsdClient.setReq]
    · have was : other ∈ osdc.requests ∨ other ∈ osdc.reqLinger := by
        simpa [CephOsdClient.place, CephOsdClient.registerRequest, CephOsdClient.setReq, CephOsdClient.detach, same]
          using listed
      have below := queued.tids other was
      simp only [CephOsdClient.place, CephOsdClient.registerRequest, CephOsdClient.setReq, CephOsdClient.detach,
        Function.update_of_ne same]
      omega
  · intro where' other on'
    have incarnation : ((((osdc.detach req).registerRequest req).place osd req).session where').incarnation =
        (osdc.session where').incarnation := by
      by_cases at' : where' = osd
      · subst at'
        simp [CephOsdClient.place, CephOsdClient.registerRequest, CephOsdClient.setReq, CephOsdClient.detach]
      · simp [CephOsdClient.place, CephOsdClient.registerRequest, CephOsdClient.setReq, CephOsdClient.detach, at']
    rw [incarnation]
    by_cases same : other = req
    · subst same
      have hangs : osd = where' := by
        simpa [On, CephOsdClient.place] using on'.2
      subst hangs
      simpa [CephOsdClient.place, CephOsdClient.registerRequest, CephOsdClient.setReq, CephOsdClient.detach]
        using queued.past osd other on
    · have was : On where' osdc other := by
        simpa [On, CephOsdClient.place, CephOsdClient.registerRequest, CephOsdClient.setReq, CephOsdClient.detach, same]
          using on'
      simpa [CephOsdClient.place, CephOsdClient.registerRequest, CephOsdClient.setReq, CephOsdClient.detach, same]
        using queued.past where' other was

theorem Queued.removed (queued : Queued osdc)
    (idle : (osdc.session osd).requests = [] ∧ (osdc.session osd).lingerRequests = []) : Queued (osdc.removeOsd osd) where
  linked := queued.linked.removed idle
  pending := queued.pending
  idle := queued.idle
  alive := fun other listed => queued.alive other (List.mem_filter.mp listed).1
  numbers := fun other listed => queued.numbers other (List.mem_filter.mp listed).1
  tids := queued.tids
  past := queued.past

def CephOsdClient.sentEvents (osdc : CephOsdClient μ) (req : ReqId) : List OsdEvent :=
  match (osdc.req req).osd with
  | none => []
  | some osd => [.sent osd (osdc.session osd).incarnation req (osdc.req req).tid]

theorem sendRequest_stable (other : ReqId) : ((osdc.sendRequest req).req other).osd = (osdc.req other).osd ∧
    ((osdc.sendRequest req).req other).tid = (osdc.req other).tid ∧
    ∀ osd, ((osdc.sendRequest req).session osd).incarnation = (osdc.session osd).incarnation := by
  unfold sendRequest
  cases (osdc.req req).osd with
  | none => exact ⟨rfl, rfl, fun _ => rfl⟩
  | some osd =>
    by_cases same : other = req
    · subst same
      simp [CephOsdClient.note, setReq, delLruItem]
    · simp [CephOsdClient.note, setReq, delLruItem, same]

theorem sendRequest_sentEvents (other : ReqId) : (osdc.sendRequest req).sentEvents other = osdc.sentEvents other := by
  obtain ⟨osd, tid, incarnation⟩ := @sendRequest_stable _ osdc req other
  simp only [sentEvents, osd, tid, incarnation]

theorem sendRequest_log : (osdc.sendRequest req).log = osdc.log ++ osdc.sentEvents req := by
  unfold sendRequest sentEvents
  cases (osdc.req req).osd with
  | none => simp
  | some osd => simp [CephOsdClient.note, setReq, delLruItem]

variable {reqs : List ReqId}

theorem sends_log : (reqs.foldl sendRequest osdc).log = osdc.log ++ reqs.flatMap osdc.sentEvents := by
  induction reqs generalizing osdc with
  | nil => simp
  | cons req rest ih =>
    have same : rest.flatMap (osdc.sendRequest req).sentEvents = rest.flatMap osdc.sentEvents := by
      congr 1
      exact funext sendRequest_sentEvents
    rw [foldl_cons, ih, sendRequest_log, same, flatMap_cons, append_assoc]

theorem sends_sent {other : ReqId} (hangs : (osdc.req other).osd = some osd) :
    ((reqs.foldl sendRequest osdc).req other).sent =
      if other ∈ reqs then (osdc.session osd).incarnation else (osdc.req other).sent := by
  induction reqs generalizing osdc with
  | nil => simp
  | cons req rest ih =>
    obtain ⟨osd', -, incarnation⟩ := @sendRequest_stable _ osdc req other
    rw [foldl_cons, ih (osd'.trans hangs), incarnation]
    by_cases later : other ∈ rest
    · simp [later]
    · by_cases same : other = req
      · subst same
        simp [later, sendRequest, hangs, CephOsdClient.note, setReq, delLruItem]
      · have kept : ((osdc.sendRequest req).req other).sent = (osdc.req other).sent := by
          unfold sendRequest
          cases (osdc.req req).osd with
          | none => rfl
          | some _ => simp [CephOsdClient.note, setReq, delLruItem, same]
        simp [later, same, kept]

theorem sendQueued_stable : ∀ other, (osdc.sendQueued.req other).osd = (osdc.req other).osd ∧
    (osdc.sendQueued.req other).tid = (osdc.req other).tid ∧
    ∀ osd, (osdc.sendQueued.session osd).incarnation = (osdc.session osd).incarnation := by
  have stable : ∀ reqs : List ReqId, ∀ osdc : CephOsdClient μ, ∀ other,
      ((reqs.foldl sendRequest osdc).req other).osd = (osdc.req other).osd ∧
      ((reqs.foldl sendRequest osdc).req other).tid = (osdc.req other).tid ∧
      ∀ osd, ((reqs.foldl sendRequest osdc).session osd).incarnation = (osdc.session osd).incarnation := by
    intro reqs
    induction reqs with
    | nil => exact fun _ _ => ⟨rfl, rfl, fun _ => rfl⟩
    | cons req rest ih =>
      intro osdc other
      obtain ⟨osd, tid, incarnation⟩ := ih (osdc.sendRequest req) other
      obtain ⟨osd', tid', incarnation'⟩ := @sendRequest_stable _ osdc req other
      exact ⟨osd.trans osd', tid.trans tid', fun osd => (incarnation osd).trans (incarnation' osd)⟩
  exact stable osdc.reqUnsent osdc

theorem sends_lastTid : (reqs.foldl sendRequest osdc).lastTid = osdc.lastTid := by
  induction reqs generalizing osdc with
  | nil => rfl
  | cons req rest ih =>
    rw [foldl_cons, ih]
    unfold sendRequest
    cases (osdc.req req).osd <;> rfl

/-- Once the queue is sent, everything on a session is. -/
theorem Queued.send (queued : Queued osdc) : Queued osdc.sendQueued ∧ InOrder osdc.sendQueued := by
  have same : SameLinks osdc osdc.sendQueued := sendQueued_same
  have stable := @sendQueued_stable _ osdc
  have sent : ∀ osd, ∀ req ∈ (osdc.session osd).requests, (osdc.sendQueued.req req).sent ≠ 0 := by
    intro osd req listed
    have hangs := ((queued.linked.here osd req).mp listed).2
    have there := queued.linked.open' osd req (.inl listed)
    have alive := queued.alive osd there
    unfold sendQueued
    rw [sends_sent hangs]
    split
    next => omega
    next absent => exact (queued.pending osd req listed).resolve_right absent
  refine ⟨⟨queued.linked.of_same same, ?_, ?_, ?_, ?_, ?_, ?_⟩, ?_⟩
  · intro osd req listed
    rw [(same.session osd).1] at listed
    exact .inl (sent osd req listed)
  · intro req listed free
    rw [same.requests] at listed
    rw [(stable req).1] at free
    have kept : ∀ reqs : List ReqId, ∀ osdc : CephOsdClient μ, (osdc.req req).osd = none →
        ((reqs.foldl sendRequest osdc).req req).sent = (osdc.req req).sent := by
      intro reqs
      induction reqs with
      | nil => exact fun _ _ => rfl
      | cons other rest ih =>
        intro osdc free
        rw [foldl_cons, ih _ ((sendRequest_stable req).1.trans free)]
        unfold sendRequest
        cases hangs : (osdc.req other).osd with
        | none => rfl
        | some osd =>
          have differs : req ≠ other := by
            rintro rfl
            rw [free] at hangs
            cases hangs
          simp [CephOsdClient.note, setReq, delLruItem, differs]
    exact (kept _ osdc free).trans (queued.idle req listed free)
  · intro osd listed
    rw [same.osds] at listed
    rw [(stable 0).2.2]
    exact queued.alive osd listed
  · rw [same.osds]
    exact queued.numbers
  · intro req listed
    rw [same.requests, same.reqLinger] at listed
    rw [(stable req).2.1]
    exact (queued.tids req listed).trans (le_of_eq sends_lastTid.symm)
  · rintro osd req ⟨listed, hangs⟩
    rw [same.requests, same.reqLinger] at listed
    rw [(stable req).1] at hangs
    rw [(stable req).2.2]
    unfold sendQueued
    rw [sends_sent hangs]
    split
    · exact le_refl _
    · exact queued.past osd req ⟨listed, hangs⟩
  · intro osd
    rw [(same.session osd).1]
    refine pairwise_of_forall_mem_list ?_
    exact fun earlier first _ _ _ => sent osd earlier first

end

end KmodCeph.OsdClient
