import KmodCeph.OsdClient.Client

namespace KmodCeph.OsdClient

open Lib CephOsdClient

variable {μ : Type}

def OsdEvent.isSent : OsdEvent → Bool
  | .sent _ _ _ _ => true
  | _ => false

/-- What is left of the client without sessions, queues and messages. -/
structure Ledger where
  requests : List ReqId
  reqLinger : List ReqId
  gotReply : ReqId → Bool
  noted : List OsdEvent

namespace CephOsdClient

def ledger (osdc : CephOsdClient μ) : Ledger where
  requests := osdc.requests
  reqLinger := osdc.reqLinger
  gotReply := fun req => (osdc.req req).gotReply
  noted := osdc.log.filter (¬ ·.isSent)

end CephOsdClient

section

variable {ops : MapOps μ} {map : μ} {osdc : CephOsdClient μ} {req : ReqId} {osd : OsdNum}

theorem calcRequestPg_fields {r : OsdRequest} :
    ∃ pool oid, (calcRequestPg ops map r).1 = { r with targetPool := pool, targetOid := oid } := by
  refine ⟨(calcRequestPg ops map r).1.targetPool, (calcRequestPg ops map r).1.targetOid, ?_⟩
  unfold calcRequestPg
  dsimp only
  split <;> split <;> (try split) <;> (try split) <;> (try split) <;> (try split) <;> rfl

theorem requestMapping_fields {forceResend : Bool} {session : OsdNum → OsdSession} {r : OsdRequest} :
    ∃ pool oid pgid paused, (requestMapping ops map forceResend session r).1 =
      { r with
        targetPool := pool
        targetOid := oid
        pgid := pgid
        paused := paused } := by
  obtain ⟨pool, oid, target⟩ := @calcRequestPg_fields _ ops map r
  unfold requestMapping
  cases found : calcRequestPg ops map r with
  | mk mapped pg =>
    rw [found] at target
    subst target
    cases pg with
    | none => exact ⟨pool, oid, r.pgid, r.paused, rfl⟩
    | some pgid =>
      dsimp only
      split <;> exact ⟨pool, oid, pgid, _, rfl⟩

theorem ledger_setReq {change : OsdRequest → OsdRequest}
    (same : (change (osdc.req req)).gotReply = (osdc.req req).gotReply) : (osdc.setReq req change).ledger = osdc.ledger := by
  simp only [ledger, setReq, Ledger.mk.injEq, true_and, and_true]
  funext other
  by_cases here : other = req
  · subst here
    simp [same]
  · simp [here]

theorem ledger_cancelRequest : (osdc.cancelRequest req).ledger = osdc.ledger := by
  unfold cancelRequest
  split
  · exact ledger_setReq rfl
  · rfl

theorem ledger_enqueueRequest : (osdc.enqueueRequest req).ledger = osdc.ledger := by
  unfold enqueueRequest
  split <;> rfl

theorem ledger_leaveOsd : (osdc.leaveOsd req).ledger = osdc.ledger := by
  unfold leaveOsd
  split
  · rw [ledger_setReq]
    · exact ledger_cancelRequest
    · rfl
  · rfl

theorem ledger_moveNotarget : (osdc.moveNotarget req).ledger = osdc.ledger :=
  rfl

theorem ledger_createOsd {addr : EntityAddr} : (osdc.createOsd osd addr).ledger = osdc.ledger :=
  rfl

theorem ledger_moveRequest {memory : Bool} {acting : List Int} {o : OsdNum} :
    (osdc.moveRequest ops map memory acting o req).2.ledger = osdc.ledger := by
  unfold moveRequest
  dsimp only
  split
  · simp [ledger_enqueueRequest, ledger_setReq, ledger_leaveOsd]
  · split
    · split
      · simp [ledger_enqueueRequest, ledger_setReq, ledger_createOsd, ledger_leaveOsd]
      · simp [ledger_moveNotarget, ledger_setReq, ledger_leaveOsd]
    · simp [ledger_enqueueRequest, ledger_setReq, ledger_leaveOsd]

theorem ledger_mapRequest {memory forceResend : Bool} :
    (osdc.mapRequest ops map memory forceResend req).2.ledger = osdc.ledger := by
  have fields := @requestMapping_fields _ ops map forceResend osdc.session (osdc.req req)
  unfold mapRequest
  generalize requestMapping ops map forceResend osdc.session (osdc.req req) = result at fields
  obtain ⟨r, mapping⟩ := result
  obtain ⟨_, _, _, _, rfl⟩ := fields
  cases mapping with
  | error => simp [ledger_moveNotarget, ledger_setReq]
  | unchanged => simp [ledger_setReq]
  | moved acting o => simp [ledger_moveRequest, ledger_setReq]

theorem ledger_sendRequest : (osdc.sendRequest req).ledger = osdc.ledger := by
  unfold sendRequest
  split
  · rfl
  · next osd _ =>
      have sent : ∀ (now : CephOsdClient μ) incarnation tid,
          (now.note [.sent osd incarnation req tid]).ledger = now.ledger := by
        intro now incarnation tid
        simp [ledger, CephOsdClient.note, OsdEvent.isSent]
      rw [sent, ledger_setReq]
      · rfl
      · rfl

theorem ledger_foldl {α : Type} {step : CephOsdClient μ → α → CephOsdClient μ}
    (same : ∀ osdc item, (step osdc item).ledger = osdc.ledger) {items : List α} :
    (items.foldl step osdc).ledger = osdc.ledger := by
  induction items generalizing osdc with
  | nil => rfl
  | cons item rest ih => exact ih.trans (same osdc item)

theorem ledger_sendQueued : osdc.sendQueued.ledger = osdc.ledger :=
  ledger_foldl fun _ _ => ledger_sendRequest

theorem ledger_resetOsd : (osdc.resetOsd ops map osd).2.ledger = osdc.ledger := by
  unfold resetOsd
  dsimp only
  split
  · rfl
  · split <;> rfl

theorem ledger_resetChangedOsds : (osdc.resetChangedOsds ops map).ledger = osdc.ledger := by
  refine ledger_foldl fun now osd => ?_
  split
  · exact ledger_resetOsd
  · rfl

theorem ledger_requeueSent : (osdc.requeueSent osd).2.ledger = osdc.ledger := by
  have requeued : ∀ (now : CephOsdClient μ) (other : ReqId), (now.requeueRequest other).ledger = now.ledger :=
    fun _ _ => (ledger_setReq rfl).trans rfl
  have freed : ∀ (now : CephOsdClient μ) (other : ReqId), (now.delLruItem other).ledger = now.ledger := fun _ _ => rfl
  exact (ledger_foldl freed).trans (ledger_foldl requeued)

namespace Ledger

def register (req : ReqId) (ledger : Ledger) : Ledger :=
  { ledger with requests := ledger.requests ++ [req] }

def unregister (req : ReqId) (ledger : Ledger) : Ledger :=
  { ledger with requests := ledger.requests.filter (· ≠ req) }

def linger (req : ReqId) (ledger : Ledger) : Ledger :=
  { ledger with reqLinger := ledger.reqLinger ++ [req] }

def unlinger (req : ReqId) (ledger : Ledger) : Ledger :=
  { ledger with reqLinger := ledger.reqLinger.filter (· ≠ req) }

def reply (req : ReqId) (got : Bool) (ledger : Ledger) : Ledger :=
  { ledger with gotReply := Function.update ledger.gotReply req got }

def note (events : List OsdEvent) (ledger : Ledger) : Ledger :=
  { ledger with noted := ledger.noted ++ events }

end Ledger

theorem filter_ne_self {α : Type} [DecidableEq α] {items : List α} {item : α} (absent : item ∉ items) :
    items.filter (· ≠ item) = items := by
  apply List.filter_eq_self.mpr
  intro other member
  simpa using fun same : other = item => absent (same ▸ member)

theorem ledger_registerRequest : (osdc.registerRequest req).ledger = osdc.ledger.register req := by
  have same := @ledger_setReq _ osdc req (fun r => { r with tid := osdc.lastTid + 1 }) rfl
  simp only [ledger, Ledger.mk.injEq] at same
  simp only [ledger, registerRequest, Ledger.register, same]

theorem ledger_unregisterRequest : (osdc.unregisterRequest req).ledger = osdc.ledger.unregister req := by
  unfold unregisterRequest
  split
  next absent => simp only [Ledger.unregister, ledger, filter_ne_self absent]
  next =>
    have freed : ∀ (now : CephOsdClient μ), (now.delLruItem req).ledger = now.ledger := fun _ => rfl
    rw [freed]
    split
    · rfl
    · dsimp only
      split
      · rfl
      · exact (ledger_setReq rfl).trans rfl

theorem ledger_registerLingerRequest : (osdc.registerLingerRequest req).ledger = osdc.ledger.linger req := by
  unfold registerLingerRequest
  dsimp only
  split <;> rfl

theorem ledger_unregisterLingerRequest : (osdc.unregisterLingerRequest req).ledger = osdc.ledger.unlinger req := by
  unfold unregisterLingerRequest
  split
  next absent => simp only [Ledger.unlinger, ledger, filter_ne_self absent]
  next =>
    have freed : ∀ (now : CephOsdClient μ), (now.delLruItem req).ledger = now.ledger := fun _ => rfl
    rw [freed]
    split
    · rfl
    · dsimp only
      split
      · rfl
      · exact (ledger_setReq rfl).trans rfl

theorem ledger_reply {change : OsdRequest → OsdRequest} {got : Bool} (replied : (change (osdc.req req)).gotReply = got) :
    (osdc.setReq req change).ledger = osdc.ledger.reply req got := by
  simp only [ledger, setReq, Ledger.reply, Ledger.mk.injEq, true_and, and_true]
  funext other
  by_cases here : other = req
  · subst here
    simp [replied]
  · simp [here]

theorem ledger_note {events : List OsdEvent} (unsent : ∀ event ∈ events, event.isSent = false) :
    (osdc.note events).ledger = osdc.ledger.note events := by
  have kept : events.filter (¬ ·.isSent) = events :=
    List.filter_eq_self.mpr fun event member => by simp [unsent event member]
  simp only [ledger, CephOsdClient.note, Ledger.note, List.filter_append, kept]

end

end KmodCeph.OsdClient
