import KmodCeph.Incoming.Fits

namespace KmodCeph.Incoming

open Lib Messenger Clients Function List Nat

/-- `struct ceph_osd_data`, with its length. -/
inductive OsdData where
  | none
  | pages (length : Nat)
  | pagelist (length : Nat)
  | bio (length : Nat)
deriving DecidableEq

/-- The data of an operation: that of `STAT`, of the operations with an extent, of `CALL`, or none. -/
inductive ReqOp where
  | stat (rawDataIn : OsdData)
  | extent (write : Bool) (osdData : OsdData)
  | call (requestInfo requestData responseData : OsdData)
  | plain

def OsdData.added : OsdData → List Nat
  | .none => []
  | .pages length => if length = 0 then [] else [length]
  | .pagelist length => [length]
  | .bio length => [length]

def ReqOp.replyData : ReqOp → List Nat
  | .stat rawDataIn => rawDataIn.added
  | .extent write osdData => if write then [] else osdData.added
  | .call _ _ responseData => responseData.added
  | .plain => []

def replyData (ops : List ReqOp) : List Nat := ops.flatMap ReqOp.replyData

/-- The pages that `osd_req_op_extent_osd_data` finds in the first operation. An operation without an extent has no
type of data in that place. -/
def firstPages (ops : List ReqOp) : Option Nat :=
  match ops.head? with
  | some (.extent _ (.pages length)) => some length
  | _ => none

/-- Where the cursor of a message comes to, if all is read. -/
def Msg.dataEnd (msg : Msg) : Nat := msg.cursorPos + msg.cursorResid

namespace Clients

def Answers (tid : UInt64) (clients : Clients) (con : ConId) (hdr : MsgHeader) : Prop :=
  (clients.cons con).peer = .osd ∧ hdr.type = cephMsgOsdOpreply ∧ hdr.tid = tid

def Live (tid : UInt64) (clients : Clients) (con : ConId) : Prop :=
  ∃ hdr, clients.Answers tid con hdr ∧ ((∃ id, (clients.cons con).phase = .reading hdr id) ∨
    (clients.cons con).opened = true ∧ ∃ given skip, (clients.cons con).phase = .allocating hdr given skip)

def Takes (clients : Clients) (con : ConId) (hdr : MsgHeader) : Prop :=
  (clients.cons con).opened = true ∧ (clients.cons con).phase = .idle ∧ withinLimits hdr = true

/-- The reply of the request has the data for the frame and the front for it, and the pages of the first operation are
no shorter. -/
def Carries (tid : UInt64) (clients : Clients) (hdr : MsgHeader) : Prop :=
  ∀ req, clients.requests.find? (·.tid = tid) = some req →
    hdr.dataLen.toNat ≤ (clients.msgs req.reply).dataLength ∧
      hdr.frontLen.toNat ≤ (clients.msgs req.reply).front.alloc ∧
      ∀ length, req.pages = some length → hdr.dataLen.toNat ≤ length

end Clients

/-- Frames fit their messages, the request stays as it is, and for every header of a reply: no other connection is at
the allocation for one, and one with data finds its data there. -/
def Call.Meets (tid : UInt64) (total : Nat) (call : Call) (clients : Clients) : Prop :=
  call.Fits clients ∧
    match call with
    | .header con hdr _ => clients.Takes con hdr → clients.Answers tid con hdr →
        (∀ other hdr' given skip, (clients.cons other).phase = .allocating hdr' given skip →
          (clients.cons other).opened = true → ¬ clients.Answers tid other hdr') ∧
        (0 < hdr.dataLen.toNat → hdr.dataLen.toNat ≤ total → clients.Carries tid hdr)
    | .addRequest other _ _ _ _ => other ≠ tid
    | .removeRequest other => other ≠ tid
    | _ => True

/-- The request is there, with a reply that nothing else refers to: the one that its data was attached to, or one
without data. -/
structure Registered (tid : UInt64) (first reply : MsgId) (data : List Nat) (pages : Option Nat) (clients : Clients) :
    Prop where
  origin : first < clients.allocated ∧ (clients.msgs first).data = data
  current : reply < clients.allocated ∧ (reply = first ∨ (clients.msgs reply).data = [])
  request : clients.requests.find? (·.tid = tid) = some ⟨tid, reply, pages⟩
  others : ∀ req ∈ clients.requests, req.tid ≠ tid → req.reply ≠ reply
  generic : ∀ req ∈ clients.genericRequests, req.reply ≠ reply
  prealloc : clients.subscribeAck ≠ reply ∧ clients.authReply ≠ reply

structure Lines (tid : UInt64) (first reply : MsgId) (total : Nat) (clients : Clients) : Prop where
  apart : ∀ con hdr, ¬ clients.Answers tid con hdr → (∀ id, (clients.cons con).phase = .reading hdr id → id ≠ reply) ∧
    ∀ id skip, (clients.cons con).phase = .allocating hdr (some id) skip → id ≠ reply
  allocating : ∀ con hdr given skip, (clients.cons con).phase = .allocating hdr given skip →
    (clients.cons con).opened = true → clients.Answers tid con hdr →
    (hdr.dataLen.toNat ≤ total → skip = false) ∧
      ∀ id, given = some id → id = reply ∧ (0 < hdr.dataLen.toNat → hdr.dataLen.toNat ≤ total → id = first)
  reading : ∀ con hdr id, (clients.cons con).phase = .reading hdr id → clients.Answers tid con hdr →
    id = reply ∧ (clients.msgs id).con = some con ∧
      (0 < hdr.dataLen.toNat → (clients.msgs id).dataEnd = hdr.dataLen.toNat)
  single : ∀ con other, clients.Live tid con → clients.Live tid other → con = other

section

variable {tid : UInt64} {first reply id : MsgId} {data : List Nat} {pages : Option Nat} {total : Nat}
variable {clients before after : Clients} {con : ConId} {hdr : MsgHeader} {memory : Bool}

structure Calms (reply : MsgId) (before after : Clients) : Prop where
  peers : ∀ con, (after.cons con).peer = (before.cons con).peer
  phases : ∀ con, (after.cons con).phase = (before.cons con).phase ∧
    ((after.cons con).opened = true → (before.cons con).opened = true) ∨ (after.cons con).phase = .idle
  msg : (after.msgs reply).con = (before.msgs reply).con ∧ (after.msgs reply).dataEnd = (before.msgs reply).dataEnd ∨
    ∀ con hdr, (after.cons con).phase ≠ .reading hdr reply

theorem Calms.answers (calms : Calms reply before after) : after.Answers tid con hdr ↔ before.Answers tid con hdr := by
  unfold Clients.Answers
  rw [calms.peers]

theorem Calms.live (calms : Calms reply before after) (live : after.Live tid con) : before.Live tid con := by
  obtain ⟨hdr, answers, doing⟩ := live
  refine ⟨hdr, calms.answers.mp answers, ?_⟩
  rcases calms.phases con with ⟨same, opened⟩ | idle
  · rcases doing with ⟨id, phase⟩ | ⟨isOpen, given, skip, phase⟩
    · exact .inl ⟨id, same.symm.trans phase⟩
    · exact .inr ⟨opened isOpen, given, skip, same.symm.trans phase⟩
  · rcases doing with ⟨id, phase⟩ | ⟨isOpen, given, skip, phase⟩
    · rw [idle] at phase
      cases phase
    · rw [idle] at phase
      cases phase

theorem Calms.trans {middle : Clients} (one : Calms reply before middle) (two : Calms reply middle after) :
    Calms reply before after where
  peers con := (two.peers con).trans (one.peers con)
  phases con := by
    rcases two.phases con with ⟨same, opened⟩ | idle
    · rcases one.phases con with ⟨earlier, isOpen⟩ | idle
      · exact .inl ⟨same.trans earlier, isOpen ∘ opened⟩
      · exact .inr (same.trans idle)
    · exact .inr idle
  msg := by
    rcases two.msg with same | nobody
    · rcases one.msg with earlier | nobody
      · exact .inl ⟨same.1.trans earlier.1, same.2.trans earlier.2⟩
      · refine .inr fun con hdr phase => ?_
        rcases two.phases con with ⟨same, -⟩ | idle
        · exact nobody con hdr (same.symm.trans phase)
        · rw [idle] at phase
          cases phase
    · exact .inr nobody

theorem Lines.calms (lines : Lines tid first reply total before) (calms : Calms reply before after) :
    Lines tid first reply total after where
  apart := by
    intro con hdr strange
    have strangeBefore : ¬ before.Answers tid con hdr := fun answers => strange (calms.answers.mpr answers)
    obtain ⟨reading, allocating⟩ := lines.apart con hdr strangeBefore
    rcases calms.phases con with ⟨same, -⟩ | idle
    · rw [same]
      exact ⟨reading, allocating⟩
    · rw [idle]
      exact ⟨nofun, nofun⟩
  allocating := by
    intro con hdr given skip phase opened answers
    rcases calms.phases con with ⟨same, isOpen⟩ | idle
    · exact lines.allocating con hdr given skip (same.symm.trans phase) (isOpen opened) (calms.answers.mp answers)
    · rw [idle] at phase
      cases phase
  reading := by
    intro con hdr id phase answers
    rcases calms.phases con with ⟨same, -⟩ | idle
    · obtain ⟨isReply, ours⟩ := lines.reading con hdr id (same.symm.trans phase) (calms.answers.mp answers)
      subst isReply
      refine ⟨rfl, ?_⟩
      rcases calms.msg with ⟨kept, moved⟩ | nobody
      · rw [kept, moved]
        exact ours
      · exact absurd phase (nobody con hdr)
    · rw [idle] at phase
      cases phase
  single con other live live' := lines.single con other (calms.live live) (calms.live live')

theorem Lines.owner (lines : Lines tid first reply total clients)
    (phase : (clients.cons con).phase = .reading hdr reply) :
    clients.Answers tid con hdr ∧ (clients.msgs reply).con = some con ∧
      ∀ other hdr', (clients.cons other).phase = .reading hdr' reply → other = con := by
  have mine : ∀ {other hdr'}, (clients.cons other).phase = .reading hdr' reply → clients.Answers tid other hdr' := by
    intro other hdr' phase
    by_contra strange
    exact (lines.apart other hdr' strange).1 reply phase rfl
  refine ⟨mine phase, (lines.reading con hdr reply phase (mine phase)).2.1, fun other hdr' phase' => ?_⟩
  exact lines.single other con ⟨hdr', mine phase', .inl ⟨_, phase'⟩⟩ ⟨hdr, mine phase, .inl ⟨_, phase⟩⟩

theorem calms_idle (reply : MsgId) (con : ConId) (clients : Clients) :
    Calms reply clients (clients.setPhase con .idle) where
  peers other := by
    by_cases same : other = con
    · rw [same, setPhase_self]
    · rw [setPhase_other same]
  phases other := by
    by_cases same : other = con
    · rw [same, setPhase_self]
      exact .inr rfl
    · rw [setPhase_other same]
      exact .inl ⟨rfl, id⟩
  msg := .inl ⟨rfl, rfl⟩

theorem calms_disconnect (reply : MsgId) (con : ConId) (clients : Clients) :
    Calms reply clients (clients.disconnect con) where
  peers other := by
    unfold disconnect
    dsimp only
    by_cases same : other = con
    · rw [same, update_self]
    · rw [update_of_ne same]
  phases other := by
    unfold disconnect
    dsimp only
    by_cases same : other = con
    · rw [same, update_self]
      exact .inl ⟨rfl, nofun⟩
    · rw [update_of_ne same]
      exact .inl ⟨rfl, id⟩
  msg := .inl ⟨rfl, rfl⟩

theorem calms_setMsg {msg : Msg}
    (kept : id = reply → msg.con = (clients.msgs reply).con ∧ msg.dataEnd = (clients.msgs reply).dataEnd) :
    Calms reply clients (clients.setMsg id msg) where
  peers _ := rfl
  phases _ := .inl ⟨rfl, fun opened => opened⟩
  msg := by
    by_cases same : reply = id
    · subst same
      rw [setMsg_self]
      exact .inl (kept rfl)
    · rw [setMsg_other same]
      exact .inl ⟨rfl, rfl⟩

theorem calms_revoke (reply : MsgId) (msg : MsgId) (clients : Clients) :
    Calms reply clients (clients.revokeIncoming msg) := by
  have still : Calms reply clients clients := ⟨fun _ => rfl, fun _ => .inl ⟨rfl, id⟩, .inl ⟨rfl, rfl⟩⟩
  rw [revokeIncoming]
  split
  · exact still
  · split
    · split
      · exact calms_idle _ _ _
      · exact still
    · exact still

theorem calms_done (lines : Lines tid first reply total clients) (phase : (clients.cons con).phase = .reading hdr id) :
    Calms reply clients ((clients.setMsg id { clients.msgs id with con := none }).setPhase con .idle) := by
  have idle := calms_idle reply con (clients.setMsg id { clients.msgs id with con := none })
  refine ⟨fun other => idle.peers other, fun other => idle.phases other, ?_⟩
  by_cases same : id = reply
  · subst same
    refine .inr fun other hdr' phase' => ?_
    by_cases here : other = con
    · rw [here, setPhase_self] at phase'
      cases phase'
    · rw [setPhase_other here] at phase'
      exact here ((lines.owner phase).2.2 other hdr' phase')
  · refine .inl ?_
    change ((clients.setMsg id { clients.msgs id with con := none }).msgs reply).con = _ ∧
      ((clients.setMsg id { clients.msgs id with con := none }).msgs reply).dataEnd = _
    rw [setMsg_other fun equal => same equal.symm]
    exact ⟨rfl, rfl⟩

structure Retains (tid : UInt64) (before after : Clients) : Prop where
  data : ∀ id, id < before.allocated → (after.msgs id).data = (before.msgs id).data
  allocated : before.allocated ≤ after.allocated
  request : after.requests.find? (·.tid = tid) = before.requests.find? (·.tid = tid)
  others : ∀ req ∈ after.requests, req.tid ≠ tid → (∃ old ∈ before.requests, old.tid ≠ tid ∧ old.reply = req.reply) ∨
    before.allocated ≤ req.reply
  generic : ∀ req ∈ after.genericRequests, req ∈ before.genericRequests ∨ before.allocated ≤ req.reply
  prealloc : after.subscribeAck = before.subscribeAck ∧ after.authReply = before.authReply

theorem Registered.retains (registered : Registered tid first reply data pages before)
    (retains : Retains tid before after) :
    Registered tid first reply data pages after where
  origin :=
    ⟨registered.origin.1.trans_le retains.allocated, (retains.data first registered.origin.1).trans registered.origin.2⟩
  current := ⟨registered.current.1.trans_le retains.allocated,
    registered.current.2.imp_right (retains.data reply registered.current.1).trans⟩
  request := retains.request.trans registered.request
  others := by
    intro req listed other same
    rcases retains.others req listed other with ⟨old, held, different, equal⟩ | fresh
    · exact registered.others old held different (equal.trans same)
    · exact absurd registered.current.1 (not_lt.mpr (same ▸ fresh))
  generic := by
    intro req listed same
    rcases retains.generic req listed with held | fresh
    · exact registered.generic req held same
    · exact absurd registered.current.1 (not_lt.mpr (same ▸ fresh))
  prealloc := by
    rw [retains.prealloc.1, retains.prealloc.2]
    exact registered.prealloc

theorem Retains.of_same (data : ∀ id, (after.msgs id).data = (before.msgs id).data)
    (allocated : after.allocated = before.allocated) (requests : after.requests = before.requests)
    (generic : after.genericRequests = before.genericRequests)
    (prealloc : after.subscribeAck = before.subscribeAck ∧ after.authReply = before.authReply) :
    Retains tid before after where
  data id _ := data id
  allocated := allocated.ge
  request := by rw [requests]
  others req listed other := .inl ⟨req, requests ▸ listed, other, rfl⟩
  generic req listed := .inl (generic ▸ listed)
  prealloc := prealloc

theorem retains_setMsg {msg : Msg} (same : msg.data = (clients.msgs id).data) :
    Retains tid clients (clients.setMsg id msg) := by
  refine .of_same (fun other => ?_) rfl rfl rfl ⟨rfl, rfl⟩
  by_cases here : other = id
  · rw [here, setMsg_self, same]
  · rw [setMsg_other here]

theorem retains_disconnect (con : ConId) (clients : Clients) : Retains tid clients (clients.disconnect con) :=
  .of_same (fun _ => rfl) rfl rfl rfl ⟨rfl, rfl⟩

theorem Retains.trans {middle : Clients} (one : Retains tid before middle) (two : Retains tid middle after) :
    Retains tid before after where
  data id known := (two.data id (known.trans_le one.allocated)).trans (one.data id known)
  allocated := one.allocated.trans two.allocated
  request := two.request.trans one.request
  others := by
    intro req listed other
    rcases two.others req listed other with ⟨old, held, different, equal⟩ | fresh
    · rcases one.others old held different with ⟨oldest, held, different, equal'⟩ | fresh
      · exact .inl ⟨oldest, held, different, equal'.trans equal⟩
      · exact .inr (equal ▸ fresh)
    · exact .inr (one.allocated.trans fresh)
  generic := by
    intro req listed
    rcases two.generic req listed with held | fresh
    · exact one.generic req held
    · exact .inr (one.allocated.trans fresh)
  prealloc := ⟨two.prealloc.1.trans one.prealloc.1, two.prealloc.2.trans one.prealloc.2⟩

theorem retains_revoke (msg : MsgId) (clients : Clients) : Retains tid clients (clients.revokeIncoming msg) := by
  have still : Retains tid clients clients := .of_same (fun _ => rfl) rfl rfl rfl ⟨rfl, rfl⟩
  rw [revokeIncoming]
  split
  · exact still
  · split
    · split
      · exact .of_same (fun _ => rfl) rfl rfl rfl ⟨rfl, rfl⟩
      · exact still
    · exact still

theorem calms_new (known : reply < clients.allocated) (frontLen : Nat) (data : List Nat) :
    Calms reply clients { clients.setMsg clients.allocated (Msg.new frontLen data) with
      allocated := clients.allocated + 1 } where
  peers _ := rfl
  phases _ := .inl ⟨rfl, id⟩
  msg := by
    refine .inl ?_
    change ((clients.setMsg clients.allocated (Msg.new frontLen data)).msgs reply).con = _ ∧
      ((clients.setMsg clients.allocated (Msg.new frontLen data)).msgs reply).dataEnd = _
    rw [setMsg_other known.ne]
    exact ⟨rfl, rfl⟩

theorem retains_new (clients : Clients) (frontLen : Nat) (data : List Nat) :
    Retains tid clients { clients.setMsg clients.allocated (Msg.new frontLen data) with
      allocated := clients.allocated + 1 } where
  data id known := by
    change ((clients.setMsg clients.allocated (Msg.new frontLen data)).msgs id).data = _
    rw [setMsg_other known.ne]
  allocated := le_succ _
  request := rfl
  others req listed other := .inl ⟨req, listed, other, rfl⟩
  generic _ listed := .inl listed
  prealloc := ⟨rfl, rfl⟩

structure Aside (tid : UInt64) (reply : MsgId) (before : Clients) (given : Option MsgId) (after : Clients) : Prop where
  calms : Calms reply before after
  retains : Retains tid before after
  given : ∀ id, given = some id → id ≠ reply

theorem Calms.refl (reply : MsgId) (clients : Clients) : Calms reply clients clients where
  peers _ := rfl
  phases _ := .inl ⟨rfl, id⟩
  msg := .inl ⟨rfl, rfl⟩

theorem Retains.refl (tid : UInt64) (clients : Clients) : Retains tid clients clients :=
  .of_same (fun _ => rfl) rfl rfl rfl ⟨rfl, rfl⟩

variable {given : Option MsgId} {skip : Bool} {got : Nat}

theorem Aside.known (differs : ∀ id, given = some id → id ≠ reply) : Aside tid reply clients given clients :=
  ⟨.refl reply clients, .refl tid clients, differs⟩

theorem cephMsgNew_aside (known : reply < clients.allocated) (frontLen : Nat) (memory : Bool) :
    Aside tid reply clients (clients.cephMsgNew frontLen [] memory).1 (clients.cephMsgNew frontLen [] memory).2 := by
  rw [cephMsgNew]
  split
  · refine ⟨calms_new known frontLen [], retains_new clients frontLen [], ?_⟩
    intro id isId
    cases isId
    exact known.ne'
  · exact .known (by simp)

theorem monPrealloc_aside (known : reply < clients.allocated) (differs : id ≠ reply) (hdr : MsgHeader) (memory : Bool) :
    Aside tid reply clients (clients.monPrealloc id hdr memory).1 (clients.monPrealloc id hdr memory).2.2 := by
  rw [monPrealloc]
  split
  · exact cephMsgNew_aside known _ memory
  · refine .known fun other isOther => ?_
    cases isOther
    exact differs

theorem monAllocMsg_aside (registered : Registered tid first reply data pages clients) (hdr : MsgHeader)
    (memory : Bool) :
    Aside tid reply clients (clients.monAllocMsg hdr memory).1 (clients.monAllocMsg hdr memory).2.2 := by
  have known := registered.current.1
  have generic : Aside tid reply clients (clients.getGenericReply hdr).1 clients := by
    refine .known ?_
    rw [getGenericReply]
    cases found : clients.genericRequests.find? (·.tid = hdr.tid) with
    | none => simp
    | some req =>
      intro id isId
      cases isId
      exact registered.generic req (mem_of_find?_eq_some found)
  rw [monAllocMsg]
  split
  · exact monPrealloc_aside known registered.prealloc.1 hdr memory
  · split
    · exact generic
    · split
      · exact monPrealloc_aside known registered.prealloc.2 hdr memory
      · split
        · exact generic
        · split
          · exact cephMsgNew_aside known _ memory
          · exact .known (by simp)

theorem find_mapped {requests : List OsdRequest} {change : OsdRequest → OsdRequest}
    (keeps : ∀ req ∈ requests, (change req).tid = req.tid) :
    (requests.map change).find? (·.tid = tid) = (requests.find? (·.tid = tid)).map change := by
  induction requests with
  | nil => rfl
  | cons req rest ih =>
    have later := ih fun other listed => keeps other (mem_cons_of_mem _ listed)
    have same := keeps req (mem_cons_self ..)
    by_cases found : req.tid = tid
    · rw [map_cons, find?_cons_of_pos (by simpa [same] using found),
        find?_cons_of_pos (by simpa using found), Option.map_some]
    · rw [map_cons, find?_cons_of_neg (by simpa [same] using found),
        find?_cons_of_neg (by simpa using found), later]

def OsdRequest.renewed (tid : UInt64) (msg : MsgId) (other : OsdRequest) : OsdRequest :=
  if other.tid = tid then { other with reply := msg } else other

theorem OsdRequest.renewed_tid (tid : UInt64) (msg : MsgId) (other : OsdRequest) :
    (other.renewed tid msg).tid = other.tid := by
  rw [renewed]
  split
  · rfl
  · rfl

theorem replyFront_short {req : OsdRequest} (short : (clients.msgs req.reply).front.alloc < hdr.frontLen.toNat) :
    clients.replyFront req hdr true = (some clients.allocated,
      { clients.setMsg clients.allocated (Msg.new hdr.frontLen.toNat []) with
        allocated := clients.allocated + 1
        requests := clients.requests.map (OsdRequest.renewed req.tid clients.allocated) }) := by
  rw [replyFront, if_pos short]
  rfl

theorem replyFront_none {req : OsdRequest} (short : (clients.msgs req.reply).front.alloc < hdr.frontLen.toNat) :
    clients.replyFront req hdr false = (none, clients) := by
  rw [replyFront, if_pos short]
  rfl

theorem replyFront_fits {req : OsdRequest} (fits : hdr.frontLen.toNat ≤ (clients.msgs req.reply).front.alloc) :
    clients.replyFront req hdr memory = (some req.reply, clients) := by
  rw [replyFront, if_neg (not_lt.mpr fits)]

theorem replyFront_aside {req : OsdRequest} (known : reply < clients.allocated) (other : req.tid ≠ tid)
    (differs : req.reply ≠ reply) (hdr : MsgHeader) (memory : Bool) :
    Aside tid reply clients (clients.replyFront req hdr memory).1 (clients.replyFront req hdr memory).2 := by
  by_cases short : (clients.msgs req.reply).front.alloc < hdr.frontLen.toNat
  · cases memory with
    | false =>
      rw [replyFront_none short]
      exact .known nofun
    | true =>
      rw [replyFront_short short]
      have retained : Retains tid clients _ := retains_new clients hdr.frontLen.toNat []
      have calmed := calms_new known hdr.frontLen.toNat []
      refine ⟨⟨calmed.peers, calmed.phases, calmed.msg⟩, ?_, ?_⟩
      · refine ⟨retained.data, retained.allocated, ?_, ?_, retained.generic, retained.prealloc⟩
        · change (clients.requests.map (OsdRequest.renewed req.tid clients.allocated)).find? (·.tid = tid) = _
          rw [find_mapped fun old _ => old.renewed_tid _ _]
          cases found : clients.requests.find? (·.tid = tid) with
          | none => rfl
          | some old =>
            have isOld : old.tid = tid := by simpa using find?_some found
            rw [Option.map_some, OsdRequest.renewed, if_neg fun equal => other (equal.symm.trans isOld)]
        · intro changed listed strange
          obtain ⟨old, held, rfl⟩ := List.mem_map.mp listed
          rw [OsdRequest.renewed_tid] at strange
          rw [OsdRequest.renewed]
          split
          · exact .inr le_rfl
          · exact .inl ⟨old, held, strange, rfl⟩
      · intro id isId
        cases isId
        exact known.ne'
  · rw [replyFront_fits (not_lt.mp short)]
    refine .known fun id isId => ?_
    cases isId
    exact differs

theorem Aside.behind {middle : Clients} (calms : Calms reply before middle)
    (retains : Retains tid before middle) (aside : Aside tid reply middle given after) :
    Aside tid reply before given after :=
  ⟨calms.trans aside.calms, retains.trans aside.retains, aside.given⟩

theorem getReply_aside (registered : Registered tid first reply data pages clients) (other : hdr.tid ≠ tid)
    (memory : Bool) :
    Aside tid reply clients (clients.getReply hdr memory).1 (clients.getReply hdr memory).2.2 := by
  rw [getReply]
  cases found : clients.requests.find? (·.tid = hdr.tid) with
  | none => exact .known (by simp)
  | some req =>
    have isReq : req.tid = hdr.tid := by simpa using find?_some found
    have strange : req.tid ≠ tid := fun same => other (isReq.symm.trans same)
    have differs := registered.others req (mem_of_find?_eq_some found) strange
    have revoked : Retains tid clients _ := retains_revoke req.reply clients
    have known := registered.current.1.trans_le revoked.allocated
    have fronted := (replyFront_aside known strange differs hdr memory).behind (calms_revoke reply req.reply clients)
      revoked
    dsimp only
    generalize (clients.revokeIncoming req.reply).replyFront req hdr memory = made at fronted ⊢
    obtain ⟨given, made⟩ := made
    cases given with
    | none => exact ⟨fronted.calms, fronted.retains, (by simp)⟩
    | some id =>
      dsimp only
      split
      · exact fronted
      · split
        · exact ⟨fronted.calms, fronted.retains, (by simp)⟩
        · exact fronted

theorem allocMsg_aside (registered : Registered tid first reply data pages clients) {peer : Peer}
    (strange : ¬ (peer = .osd ∧ hdr.type = cephMsgOsdOpreply ∧ hdr.tid = tid)) (memory : Bool) :
    Aside tid reply clients (clients.allocMsg peer hdr memory).1 (clients.allocMsg peer hdr memory).2.2 := by
  have known := registered.current.1
  cases peer with
  | mon => exact monAllocMsg_aside registered hdr memory
  | osd =>
    change Aside tid reply clients (clients.osdAllocMsg hdr memory).1 (clients.osdAllocMsg hdr memory).2.2
    rw [osdAllocMsg]
    split
    · exact cephMsgNew_aside known _ memory
    · split
      · next isReply => exact getReply_aside registered (fun same => strange ⟨rfl, isReply, same⟩) memory
      · exact .known (by simp)
  | mds => exact cephMsgNew_aside known _ memory

/-- The reply of the request, or one in its place. -/
theorem replyFront_own (kept : Kept clients) (registered : Registered tid first reply data pages clients)
    (hdr : MsgHeader) (memory : Bool) :
    ∃ renewed, Registered tid first renewed data pages (clients.replyFront ⟨tid, reply, pages⟩ hdr memory).2 ∧
      (clients.replyFront ⟨tid, reply, pages⟩ hdr memory).2.cons = clients.cons ∧
      (∀ id, (clients.replyFront ⟨tid, reply, pages⟩ hdr memory).1 = some id → id = renewed) ∧
      (memory = true → (clients.replyFront ⟨tid, reply, pages⟩ hdr memory).1 = some renewed) ∧
      (hdr.frontLen.toNat ≤ (clients.msgs reply).front.alloc ∧ renewed = reply ∧
        (clients.replyFront ⟨tid, reply, pages⟩ hdr memory).1 = some reply ∨
      ¬ hdr.frontLen.toNat ≤ (clients.msgs reply).front.alloc ∧ (renewed = reply ∨ clients.allocated ≤ renewed) ∧
        (clients.replyFront ⟨tid, reply, pages⟩ hdr memory).1 ≠ some first) := by
  by_cases fits : hdr.frontLen.toNat ≤ (clients.msgs reply).front.alloc
  · rw [replyFront_fits fits]
    refine ⟨reply, registered, rfl, ?_, fun _ => rfl, .inl ⟨fits, rfl, rfl⟩⟩
    intro id isId
    cases isId
    rfl
  · cases memory with
    | false =>
      rw [replyFront_none (not_le.mp fits)]
      exact ⟨reply, registered, rfl, nofun, nofun, .inr ⟨fits, .inl rfl, nofun⟩⟩
    | true =>
      rw [replyFront_short (not_le.mp fits)]
      have retained : Retains tid clients _ := retains_new clients hdr.frontLen.toNat []
      refine ⟨clients.allocated, ?_, rfl, ?_, fun _ => rfl, .inr ⟨fits, .inr le_rfl, ?_⟩⟩
      · refine ⟨?_, ?_, ?_, ?_, ?_, ?_⟩
        · exact ⟨registered.origin.1.trans_le (le_succ _),
            (retained.data first registered.origin.1).trans registered.origin.2⟩
        · refine ⟨lt_succ_self _, .inr ?_⟩
          change ((clients.setMsg clients.allocated (Msg.new hdr.frontLen.toNat [])).msgs clients.allocated).data = []
          rw [setMsg_self]
          rfl
        · change (clients.requests.map (OsdRequest.renewed tid clients.allocated)).find? (·.tid = tid) = _
          rw [find_mapped fun old _ => old.renewed_tid _ _, registered.request, Option.map_some, OsdRequest.renewed,
            if_pos rfl]
        · intro changed listed strange
          obtain ⟨old, held, rfl⟩ := List.mem_map.mp listed
          rw [OsdRequest.renewed_tid] at strange
          rw [OsdRequest.renewed, if_neg strange]
          exact (kept.replies old held).ne
        · exact fun req listed => (kept.generic req listed).ne
        · exact ⟨kept.prealloc.1.ne, kept.prealloc.2.ne⟩
      · intro id isId
        cases isId
        rfl
      · intro isFirst
        cases isFirst
        exact absurd registered.origin.1 (lt_irrefl _)

theorem revoked_quiet (lines : Lines tid first reply total clients)
    (alone : ∀ other hdr given skip, (clients.cons other).phase = .allocating hdr given skip →
      (clients.cons other).opened = true → ¬ clients.Answers tid other hdr) (other : ConId) :
    ¬ (clients.revokeIncoming reply).Live tid other := by
  intro live
  have calms := calms_revoke reply reply clients
  obtain ⟨hdr, answers, doing⟩ := calms.live live
  rcases doing with ⟨id, phase⟩ | ⟨opened, given, skip, phase⟩
  · obtain ⟨isReply, ours, -⟩ := lines.reading other hdr id phase answers
    subst isReply
    have revoked : clients.revokeIncoming id = clients.setPhase other .idle := by
      rw [revokeIncoming, ours]
      dsimp only
      rw [phase]
      exact if_pos rfl
    rw [revoked] at live
    obtain ⟨hdr', -, doing⟩ := live
    rw [setPhase_self] at doing
    rcases doing with ⟨id', phase'⟩ | ⟨-, given, skip, phase'⟩
    · cases phase'
    · cases phase'
  · exact alone other hdr given skip phase opened answers

/-- A frame with a reply to the request is begun, where nobody is at one. -/
theorem lines_taken {renewed : MsgId} (kept : Kept before)
    (lines : Lines tid first reply total before) (cons : after.cons = (before.revokeIncoming reply).cons)
    (quiet : ∀ other, ¬ after.Live tid other) (answers : before.Answers tid con hdr)
    (place : renewed = reply ∨ before.allocated ≤ renewed) (taken : (hdr.dataLen.toNat ≤ total → skip = false) ∧
      ∀ id, given = some id → id = renewed ∧ (0 < hdr.dataLen.toNat → hdr.dataLen.toNat ≤ total → id = first)) :
    Lines tid first renewed total (after.setPhase con (.allocating hdr given skip)) := by
  have calms := calms_revoke reply reply before
  have peers (other : ConId) :
      ((after.setPhase con (.allocating hdr given skip)).cons other).peer = (before.cons other).peer := by
    by_cases same : other = con
    · rw [same, setPhase_self, cons]
      exact calms.peers con
    · rw [setPhase_other same, cons]
      exact calms.peers other
  have answersIff : ∀ other hdr', (after.setPhase con (.allocating hdr given skip)).Answers tid other hdr' ↔
      before.Answers tid other hdr' := by
    intro other hdr'
    unfold Clients.Answers
    rw [peers]
  have only : ∀ other, (after.setPhase con (.allocating hdr given skip)).Live tid other → other = con := by
    intro other live
    by_contra differs
    refine quiet other ?_
    obtain ⟨hdr', isAnswer, doing⟩ := live
    refine ⟨hdr', ?_, ?_⟩
    · unfold Clients.Answers at isAnswer ⊢
      rw [setPhase_other differs] at isAnswer
      exact isAnswer
    · rw [setPhase_other differs] at doing
      exact doing
  have fresh : ∀ id, id < before.allocated → id ≠ reply → id ≠ renewed := by
    rintro id known differs rfl
    rcases place with same | new
    · exact differs same
    · exact absurd known (not_lt.mpr new)
  refine ⟨?_, ?_, ?_, fun one two live live' => (only one live).trans (only two live').symm⟩
  · intro other hdr' strange
    rw [answersIff] at strange
    by_cases same : other = con
    · subst same
      rw [setPhase_self]
      refine ⟨nofun, ?_⟩
      rintro id skip' ⟨⟩
      exact absurd answers strange
    · rw [setPhase_other same, cons]
      obtain ⟨reading, allocating⟩ := lines.apart other hdr' strange
      rcases calms.phases other with ⟨still, -⟩ | idle
      · rw [still]
        exact ⟨fun id phase => fresh id (kept.reading other hdr' id phase).1 (reading id phase),
          fun id skip' phase => fresh id (kept.allocating other hdr' id skip' phase).1 (allocating id skip' phase)⟩
      · rw [idle]
        exact ⟨nofun, nofun⟩
  · intro other hdr' given' skip' phase opened isAnswer
    obtain rfl := only other ⟨hdr', isAnswer, .inr ⟨opened, given', skip', phase⟩⟩
    rw [setPhase_self] at phase
    cases phase
    exact taken
  · intro other hdr' id phase isAnswer
    obtain rfl := only other ⟨hdr', isAnswer, .inl ⟨id, phase⟩⟩
    rw [setPhase_self] at phase
    cases phase

theorem Lines.strange (lines : Lines tid first reply total clients) {phase : Phase}
    (reading : ∀ hdr id, phase = .reading hdr id → ¬ clients.Answers tid con hdr ∧ id ≠ reply)
    (allocating : ∀ hdr given skip, phase = .allocating hdr given skip →
      ¬ clients.Answers tid con hdr ∧ ∀ id, given = some id → id ≠ reply) :
    Lines tid first reply total (clients.setPhase con phase) := by
  have answersIff (other : ConId) (hdr : MsgHeader) :
      (clients.setPhase con phase).Answers tid other hdr ↔ clients.Answers tid other hdr := by
    unfold Clients.Answers
    rw [(calms_idle reply con clients).peers other |>.symm]
    by_cases same : other = con
    · rw [same, setPhase_self, setPhase_self]
    · rw [setPhase_other same, setPhase_other same]
  have live : ∀ other, (clients.setPhase con phase).Live tid other → clients.Live tid other := by
    rintro other ⟨hdr, answers, doing⟩
    rw [answersIff] at answers
    refine ⟨hdr, answers, ?_⟩
    by_cases same : other = con
    · subst same
      rw [setPhase_self] at doing
      rcases doing with ⟨id, is⟩ | ⟨-, given, skip, is⟩
      · exact absurd answers (reading hdr id is).1
      · exact absurd answers (allocating hdr given skip is).1
    · rw [setPhase_other same] at doing
      exact doing
  refine ⟨?_, ?_, ?_, fun one two isLive isLive' => lines.single one two (live one isLive) (live two isLive')⟩
  · intro other hdr strange
    by_cases same : other = con
    · subst same
      rw [setPhase_self]
      refine ⟨fun id is => (reading hdr id is).2, fun id skip is => (allocating hdr (some id) skip is).2 id rfl⟩
    · rw [setPhase_other same]
      exact lines.apart other hdr ((answersIff other hdr).not.mp strange)
  · intro other hdr given skip is opened answers
    rw [answersIff] at answers
    by_cases same : other = con
    · subst same
      rw [setPhase_self] at is
      exact absurd answers (allocating hdr given skip is).1
    · rw [setPhase_other same] at is opened
      exact lines.allocating other hdr given skip is opened answers
  · intro other hdr id is answers
    rw [answersIff] at answers
    by_cases same : other = con
    · subst same
      rw [setPhase_self] at is
      exact absurd answers (reading hdr id is).1
    · rw [setPhase_other same] at is
      exact lines.reading other hdr id is answers

theorem Lines.begun (lines : Lines tid first reply total clients) (alone : ∀ other, ¬ clients.Live tid other)
    (answers : clients.Answers tid con hdr) (marked : (clients.msgs reply).con = some con)
    (whole : 0 < hdr.dataLen.toNat → (clients.msgs reply).dataEnd = hdr.dataLen.toNat) :
    Lines tid first reply total (clients.setPhase con (.reading hdr reply)) := by
  have peers : ∀ other, ((clients.setPhase con (.reading hdr reply)).cons other).peer = (clients.cons other).peer := by
    intro other
    by_cases same : other = con
    · rw [same, setPhase_self]
    · rw [setPhase_other same]
  have only : ∀ other, (clients.setPhase con (.reading hdr reply)).Live tid other → other = con := by
    rintro other ⟨hdr', isAnswer, doing⟩
    by_contra differs
    unfold Clients.Answers at isAnswer
    rw [peers] at isAnswer
    rw [setPhase_other differs] at doing
    exact alone other ⟨hdr', isAnswer, doing⟩
  refine ⟨?_, ?_, ?_, fun one two live live' => (only one live).trans (only two live').symm⟩
  · intro other hdr' strange
    unfold Clients.Answers at strange
    rw [peers] at strange
    by_cases same : other = con
    · subst same
      rw [setPhase_self]
      refine ⟨?_, nofun⟩
      rintro id ⟨⟩
      exact absurd answers strange
    · rw [setPhase_other same]
      exact lines.apart other hdr' strange
  · intro other hdr' given skip phase opened isAnswer
    obtain rfl := only other ⟨hdr', isAnswer, .inr ⟨opened, given, skip, phase⟩⟩
    rw [setPhase_self] at phase
    cases phase
  · intro other hdr' id phase isAnswer
    obtain rfl := only other ⟨hdr', isAnswer, .inl ⟨id, phase⟩⟩
    rw [setPhase_self] at phase
    cases phase
    exact ⟨rfl, marked, whole⟩

structure Own (tid : UInt64) (first reply : MsgId) (data : List Nat) (pages : Option Nat) (hdr : MsgHeader)
    (memory : Bool) (before : Clients) (given : Option MsgId) (skip : Bool) (after : Clients) (renewed : MsgId) :
    Prop where
  registered : Registered tid first renewed data pages after
  cons : after.cons = (before.revokeIncoming reply).cons
  place : renewed = reply ∨ before.allocated ≤ renewed
  gives : ∀ id, given = some id → id = renewed ∧ skip = false ∧ ∀ length, pages = some length →
    hdr.dataLen.toNat ≤ length
  skipped : skip = true → ∃ length, pages = some length ∧ length < hdr.dataLen.toNat
  found : memory = true → given = none → skip = true
  front : given = some first → hdr.frontLen.toNat ≤ (before.msgs reply).front.alloc
  fits : hdr.frontLen.toNat ≤ (before.msgs reply).front.alloc → renewed = reply

theorem revoke_msgs (msg : MsgId) (clients : Clients) : (clients.revokeIncoming msg).msgs = clients.msgs ∧
    (clients.revokeIncoming msg).allocated = clients.allocated := by
  rw [revokeIncoming]
  split
  · exact ⟨rfl, rfl⟩
  · split
    · split
      · exact ⟨rfl, rfl⟩
      · exact ⟨rfl, rfl⟩
    · exact ⟨rfl, rfl⟩

section

variable (kept : Kept clients) (registered : Registered tid first reply data pages clients)
include kept registered

theorem getReply_own (isTid : hdr.tid = tid) (memory : Bool) :
    ∃ renewed, Own tid first reply data pages hdr memory clients (clients.getReply hdr memory).1
      (clients.getReply hdr memory).2.1 (clients.getReply hdr memory).2.2 renewed := by
  obtain ⟨renewed, renewedIs, cons, given, found, place⟩ := replyFront_own (kept.extends (extends_revoke reply clients))
    (registered.retains (retains_revoke reply clients)) hdr memory
  obtain ⟨msgs, allocated⟩ := revoke_msgs reply clients
  rw [msgs, allocated] at place
  rw [getReply, isTid, registered.request]
  dsimp only
  generalize (clients.revokeIncoming reply).replyFront ⟨tid, reply, pages⟩ hdr memory = made at *
  obtain ⟨front, made⟩ := made
  have placed : renewed = reply ∨ clients.allocated ≤ renewed := by
    rcases place with ⟨-, same, -⟩ | ⟨-, new, -⟩
    · exact .inl same
    · exact new
  have same : hdr.frontLen.toNat ≤ (clients.msgs reply).front.alloc → renewed = reply := by
    intro fits
    rcases place with ⟨-, same, -⟩ | ⟨short, -, -⟩
    · exact same
    · exact absurd fits short
  have ofFirst : front = some first → hdr.frontLen.toNat ≤ (clients.msgs reply).front.alloc := by
    intro isFirst
    rcases place with ⟨fits, -, -⟩ | ⟨-, -, other⟩
    · exact fits
    · exact absurd isFirst other
  refine ⟨renewed, ?_⟩
  cases front with
  | none =>
    refine ⟨renewedIs, cons, placed, (by simp), (by simp), fun enough => ?_, (by simp), same⟩
    cases found enough
  | some msg =>
    cases pages with
    | none => exact ⟨renewedIs, cons, placed, fun id isId => ⟨given id isId, rfl, (by simp)⟩, (by simp), (by simp), ofFirst, same⟩
    | some length =>
      dsimp only
      by_cases long : 0 < hdr.dataLen.toNat ∧ length < hdr.dataLen.toNat
      · rw [if_pos long]
        exact ⟨renewedIs, cons, placed, (by simp), fun _ => ⟨length, rfl, long.2⟩, fun _ _ => rfl, (by simp), same⟩
      · rw [if_neg long]
        refine ⟨renewedIs, cons, placed, fun id isId => ⟨given id isId, rfl, ?_⟩, (by simp), (by simp), ofFirst, same⟩
        rintro _ ⟨⟩
        omega

theorem readHeader_own (takes : clients.Takes con hdr) (answers : clients.Answers tid con hdr) (memory : Bool) :
    ∃ given skip after renewed, clients.readHeader con hdr memory = after.setPhase con (.allocating hdr given skip) ∧
      Own tid first reply data pages hdr memory clients given skip after renewed := by
  obtain ⟨renewed, own⟩ := getReply_own kept registered answers.2.2 memory
  refine ⟨_, _, _, renewed, ?_, own⟩
  have notMap : ¬ (hdr.type = cephMsgOsdMap ∨ hdr.type = cephMsgWatchNotify) := by
    rw [answers.2.1]
    decide
  have allocs : clients.allocMsg .osd hdr memory = clients.getReply hdr memory := by
    change clients.osdAllocMsg hdr memory = _
    rw [osdAllocMsg, if_neg notMap, if_pos answers.2.1]
  rw [readHeader, if_pos ⟨takes.1, takes.2.1⟩, if_pos takes.2.2, answers.1, allocs]

end

theorem Own.quiet {given : Option MsgId} {skip : Bool} {renewed : MsgId}
    (own : Own tid first reply data pages hdr memory before given skip after renewed)
    (quiet : ∀ other, ¬ (before.revokeIncoming reply).Live tid other) : ∀ other, ¬ after.Live tid other := by
  rintro other ⟨hdr', answers, doing⟩
  refine quiet other ⟨hdr', ?_, own.cons ▸ doing⟩
  unfold Clients.Answers
  rw [← own.cons]
  exact answers

def Awaits (tid : UInt64) (first : MsgId) (data : List Nat) (pages : Option Nat) (clients : Clients) : Prop :=
  ∃ reply, Registered tid first reply data pages clients ∧ Lines tid first reply data.sum clients

theorem Registered.phase (registered : Registered tid first reply data pages clients) (con : ConId) (phase : Phase) :
    Registered tid first reply data pages (clients.setPhase con phase) :=
  ⟨registered.origin, registered.current, registered.request, registered.others, registered.generic,
    registered.prealloc⟩

theorem Awaits.calms (registered : Registered tid first reply data pages before)
    (lines : Lines tid first reply data.sum before) (retains : Retains tid before after)
    (calms : Calms reply before after) : Awaits tid first data pages after :=
  ⟨reply, registered.retains retains, lines.calms calms⟩

theorem Own.fine {renewed : MsgId} (own : Own tid first reply data pages hdr memory before given skip after renewed)
    (registered : Registered tid first reply data pages before)
    (carries : 0 < hdr.dataLen.toNat → hdr.dataLen.toNat ≤ data.sum → before.Carries tid hdr) :
    (hdr.dataLen.toNat ≤ data.sum → skip = false) ∧
      ∀ id, given = some id → id = renewed ∧ (0 < hdr.dataLen.toNat → hdr.dataLen.toNat ≤ data.sum → id = first) := by
  refine ⟨fun small => ?_, fun id isId => ⟨(own.gives id isId).1, fun some small => ?_⟩⟩
  · by_contra skips
    obtain ⟨length, isPages, long⟩ := own.skipped (by simpa using skips)
    obtain ⟨-, -, room⟩ := carries (zero_lt_of_lt long) small _ registered.request
    exact absurd (room length isPages) (not_le.mpr long)
  · obtain ⟨enough, fits, -⟩ := carries some small _ registered.request
    rw [(own.gives id isId).1, own.fits fits]
    refine registered.current.2.resolve_right fun nothing => ?_
    rw [Msg.dataLength, nothing] at enough
    exact absurd enough (not_le.mpr some)

theorem header_awaits (kept : Kept clients) (awaits : Awaits tid first data pages clients)
    (meets : (Call.header con hdr memory).Meets tid data.sum clients) :
    Awaits tid first data pages (clients.readHeader con hdr memory) := by
  obtain ⟨reply, registered, lines⟩ := awaits
  by_cases takes : clients.Takes con hdr
  swap
  · rw [readHeader]
    split
    · next ready =>
      split
      · next within => exact absurd ⟨ready.1, ready.2, within⟩ takes
      · exact .calms registered lines (retains_disconnect con clients) (calms_disconnect reply con clients)
    · exact ⟨reply, registered, lines⟩
  by_cases answers : clients.Answers tid con hdr
  · obtain ⟨alone, carries⟩ := meets.2 takes answers
    obtain ⟨given, skip, after, renewed, ran, own⟩ := readHeader_own kept registered takes answers memory
    rw [ran]
    refine ⟨renewed, own.registered.phase con _, ?_⟩
    exact lines_taken kept lines own.cons (own.quiet (revoked_quiet lines alone)) answers own.place
      (own.fine registered carries)
  · have aside := allocMsg_aside registered answers memory
    rw [readHeader, if_pos ⟨takes.1, takes.2.1⟩, if_pos takes.2.2]
    generalize clients.allocMsg (clients.cons con).peer hdr memory = made at aside ⊢
    obtain ⟨given, skip, after⟩ := made
    refine ⟨reply, (registered.retains aside.retains).phase con _, ?_⟩
    have strange : ¬ after.Answers tid con hdr := fun isAnswer => answers (aside.calms.answers.mp isAnswer)
    refine (lines.calms aside.calms).strange (by simp) ?_
    rintro _ _ _ ⟨⟩
    exact ⟨strange, aside.given⟩

theorem allocMiddle_con {msg made : Msg} (ran : msg.allocMiddle hdr memory = some made) : made.con = msg.con := by
  rw [Msg.allocMiddle] at ran
  split at ran
  · split at ran
    · cases ran
      rfl
    · cases ran
  · cases ran
    rfl

theorem calms_marked (lines : Lines tid first reply total clients)
    (phase : (clients.cons con).phase = .allocating hdr (some id) skip) (opened : (clients.cons con).opened = true)
    (msg : Msg) : Calms reply clients ((clients.setPhase con .idle).setMsg id msg) := by
  have idle := calms_idle reply con clients
  refine ⟨idle.peers, idle.phases, ?_⟩
  by_cases same : reply = id
  · subst same
    refine .inr fun other hdr' phase' => ?_
    have answers : clients.Answers tid con hdr := by
      by_contra strange
      exact (lines.apart con hdr strange).2 reply skip phase rfl
    change ((clients.setPhase con .idle).cons other).phase = _ at phase'
    by_cases here : other = con
    · rw [here, setPhase_self] at phase'
      cases phase'
    · rw [setPhase_other here] at phase'
      exact here (lines.single other con ⟨hdr', (lines.owner phase').1, .inl ⟨_, phase'⟩⟩
        ⟨hdr, answers, .inr ⟨opened, _, skip, phase⟩⟩)
  · refine .inl ?_
    rw [setMsg_other same]
    exact ⟨rfl, rfl⟩

theorem alloc_awaits (awaits : Awaits tid first data pages clients) (con : ConId) (memory : Bool) :
    Awaits tid first data pages (clients.inMsgAlloc con memory) := by
  obtain ⟨reply, registered, lines⟩ := awaits
  have idleRetains : Retains tid clients (clients.setPhase con .idle) := .of_same (fun _ => rfl) rfl rfl rfl ⟨rfl, rfl⟩
  have idleCalms := calms_idle reply con clients
  cases phase : (clients.cons con).phase with
  | idle =>
    rw [inMsgAlloc, phase]
    exact ⟨reply, registered, lines⟩
  | reading hdr msg =>
    rw [inMsgAlloc, phase]
    exact ⟨reply, registered, lines⟩
  | allocating hdr given skip =>
    by_cases opened : (clients.cons con).opened = true
    swap
    · have still : ((clients.setPhase con .idle).cons con).opened ≠ true := by
        rw [setPhase_self]
        exact opened
      rw [inMsgAlloc, phase]
      dsimp only
      rw [if_pos still]
      exact .calms registered lines idleRetains idleCalms
    have still : ((clients.setPhase con .idle).cons con).opened = true := by
      rw [setPhase_self]
      exact opened
    cases given with
    | none =>
      rw [inMsgAlloc, phase]
      dsimp only
      rw [if_neg (not_not_intro still)]
      split
      · exact .calms registered lines idleRetains idleCalms
      · exact .calms registered lines
          (idleRetains.trans (retains_disconnect con _))
          (idleCalms.trans (calms_disconnect reply con _))
    | some id =>
      have same : (clients.setPhase con .idle).msgs id = clients.msgs id := rfl
      have marked (msg : Msg) := calms_marked lines phase opened msg
      have set (msg : Msg) (kept : msg.data = (clients.msgs id).data) :
          Retains tid clients ((clients.setPhase con .idle).setMsg id msg) :=
        idleRetains.trans (retains_setMsg kept)
      cases middle : Msg.allocMiddle hdr memory { clients.msgs id with con := some con } with
      | none =>
        rw [inMsgAlloc, phase]
        dsimp only
        rw [if_neg (not_not_intro still), same, middle]
        exact .calms registered lines
          ((set { clients.msgs id with con := some con } rfl).trans (retains_disconnect con _))
          ((marked _).trans (calms_disconnect reply con _))
      | some made =>
        have madeData : made.data = (clients.msgs id).data := (allocMiddle_some middle).2.1
        by_cases long : hdr.dataLen.toNat > made.dataLength
        · rw [inMsgAlloc, phase]
          dsimp only
          rw [if_neg (not_not_intro still), same, middle]
          dsimp only
          rw [if_pos long]
          exact .calms registered lines (set made madeData) (marked made)
        · rw [inMsgAlloc_reads phase opened middle (not_lt.mp long)]
          refine ⟨reply, (registered.retains (set (made.prepare hdr) madeData)).phase con _, ?_⟩
          have calmed := marked (made.prepare hdr)
          by_cases answers : clients.Answers tid con hdr
          · obtain ⟨isReply, -⟩ := (lines.allocating con hdr _ skip phase opened answers).2 id rfl
            subst isReply
            refine (lines.calms calmed).begun ?_ (calmed.answers.mpr answers) ?_ ?_
            · intro other live
              have here := lines.single other con (calmed.live live)
                ⟨hdr, answers, .inr ⟨opened, _, skip, phase⟩⟩
              obtain ⟨hdr', -, doing⟩ := live
              change (∃ id, ((clients.setPhase con .idle).cons other).phase = _) ∨
                _ ∧ ∃ given skip, ((clients.setPhase con .idle).cons other).phase = _ at doing
              rw [here, setPhase_self] at doing
              rcases doing with ⟨id', phase'⟩ | ⟨-, given, skip', phase'⟩
              · cases phase'
              · cases phase'
            · rw [setMsg_self]
              exact allocMiddle_con middle
            · intro some
              rw [setMsg_self, Msg.dataEnd, Msg.prepare]
              rw [if_pos some, if_pos some, Nat.zero_add]
          · have differs := (lines.apart con hdr answers).2 id skip phase
            have strange : ¬ _ := fun isAnswer => answers (calmed.answers.mp isAnswer)
            refine (lines.calms calmed).strange ?_ (by simp)
            rintro _ _ ⟨⟩
            exact ⟨strange, differs⟩

theorem recv_same {msg after : Msg} (ran : msg.recv hdr got = .ok after) :
    after.con = msg.con ∧ after.data = msg.data ∧ after.dataEnd = msg.dataEnd := by
  have data {after : Msg} (ran : (if 0 < hdr.dataLen.toNat then msg.recvData got else .ok msg) = .ok after) :
      after.con = msg.con ∧ after.data = msg.data ∧ after.dataEnd = msg.dataEnd := by
    split at ran
    · rw [Msg.recvData] at ran
      split at ran
      · cases ran
      · cases ran
        refine ⟨rfl, rfl, ?_⟩
        unfold Msg.dataEnd
        lia
    · cases ran
      exact ⟨rfl, rfl, rfl⟩
  rw [Msg.recv] at ran
  split at ran
  · obtain ⟨front, -, made⟩ := ok_of_bind ran
    cases made
    exact ⟨rfl, rfl, rfl⟩
  · split at ran
    · exact data ran
    · split at ran
      · obtain ⟨middle, -, made⟩ := ok_of_bind ran
        cases made
        exact ⟨rfl, rfl, rfl⟩
      · exact data ran

theorem recv_awaits (awaits : Awaits tid first data pages before) (ran : before.recv con got = .ok after) :
    Awaits tid first data pages after := by
  obtain ⟨reply, registered, lines⟩ := awaits
  rw [recv] at ran
  split at ran
  · next hdr id phase =>
    obtain ⟨msg, received, made⟩ := ok_of_bind ran
    cases made
    obtain ⟨sameCon, sameData, sameEnd⟩ := recv_same received
    refine .calms registered lines (retains_setMsg sameData) (calms_setMsg ?_)
    rintro rfl
    exact ⟨sameCon, sameEnd⟩
  · cases ran
    exact ⟨reply, registered, lines⟩

theorem done_awaits (registered : Registered tid first reply data pages clients)
    (lines : Lines tid first reply data.sum clients) (phase : (clients.cons con).phase = .reading hdr id) :
    Awaits tid first data pages ((clients.setMsg id { clients.msgs id with con := none }).setPhase con .idle) := by
  have cleared : Retains tid clients (clients.setMsg id { clients.msgs id with con := none }) := retains_setMsg rfl
  refine .calms registered lines (cleared.trans ?_) (calms_done lines phase)
  exact .of_same (fun _ => rfl) rfl rfl rfl ⟨rfl, rfl⟩

theorem process_awaits (awaits : Awaits tid first data pages before) (ran : before.processMessage con = .ok after) :
    Awaits tid first data pages after := by
  obtain ⟨reply, registered, lines⟩ := awaits
  rw [processMessage] at ran
  split at ran
  · next hdr id phase =>
    split at ran
    · obtain ⟨_, -, made⟩ := ok_of_bind ran
      cases made
      exact done_awaits registered lines phase
    · cases ran
      exact ⟨reply, registered, lines⟩
  · cases ran
    exact ⟨reply, registered, lines⟩

theorem fault_awaits (awaits : Awaits tid first data pages before) (ran : before.conFault con = .ok after) :
    Awaits tid first data pages after := by
  obtain ⟨reply, registered, lines⟩ := awaits
  rw [conFault] at ran
  split at ran
  · next hdr id phase =>
    obtain ⟨_, -, made⟩ := ok_of_bind ran
    cases made
    obtain ⟨later, registered, lines⟩ := done_awaits registered lines phase
    exact .calms registered lines (retains_disconnect con _) (calms_disconnect later con _)
  · cases ran
    exact .calms registered lines (retains_disconnect con _) (calms_disconnect reply con _)

section

variable (awaits : Awaits tid first data pages clients)
include awaits

theorem opened_awaits (con : ConId) : Awaits tid first data pages (clients.open_ con) := by
  obtain ⟨reply, registered, lines⟩ := awaits
  rw [open_]
  split
  · next idle =>
    refine .calms registered lines (.of_same (fun _ => rfl) rfl rfl rfl ⟨rfl, rfl⟩) ⟨?_, ?_, .inl ⟨rfl, rfl⟩⟩
    · intro other
      dsimp only
      by_cases same : other = con
      · rw [same, update_self]
      · rw [update_of_ne same]
    · intro other
      dsimp only
      by_cases same : other = con
      · rw [same, update_self]
        exact .inr idle
      · rw [update_of_ne same]
        exact .inl ⟨rfl, id⟩
  · exact ⟨reply, registered, lines⟩

theorem addGeneric_awaits (other : UInt64) (frontLen : Nat)
    (memory : Bool) : Awaits tid first data pages (clients.addGeneric other frontLen memory) := by
  obtain ⟨reply, registered, lines⟩ := awaits
  have known := registered.current.1
  rw [addGeneric, cephMsgNew]
  cases memory with
  | false => exact ⟨reply, registered, lines⟩
  | true =>
    have retained : Retains tid clients _ := retains_new clients frontLen []
    have calmed := calms_new known frontLen []
    refine Awaits.calms registered lines ?_ ⟨calmed.peers, calmed.phases, calmed.msg⟩
    refine { retained with generic := ?_ }
    intro req listed
    rcases List.mem_cons.mp listed with rfl | old
    · exact .inr le_rfl
    · exact .inl old

theorem addRequest_awaits {other : UInt64} (differs : other ≠ tid)
    (frontLen : Nat) (others : List Nat) (otherPages : Option Nat) (memory : Bool) :
    Awaits tid first data pages (clients.addRequest other frontLen others otherPages memory) := by
  obtain ⟨reply, registered, lines⟩ := awaits
  have known := registered.current.1
  rw [addRequest, cephMsgNew]
  cases memory with
  | false => exact ⟨reply, registered, lines⟩
  | true =>
    have retained : Retains tid clients _ := retains_new clients frontLen others
    have calmed := calms_new known frontLen others
    refine Awaits.calms registered lines ?_ ⟨calmed.peers, calmed.phases, calmed.msg⟩
    refine { retained with request := ?_, others := ?_ }
    · exact find?_cons_of_neg (by simpa using differs)
    · intro req listed strange
      rcases List.mem_cons.mp listed with rfl | old
      · exact .inr le_rfl
      · exact .inl ⟨req, old, strange, rfl⟩

theorem removed_awaits {other : UInt64} (differs : other ≠ tid) :
    Awaits tid first data pages { clients with requests := clients.requests.filter (·.tid ≠ other) } := by
  obtain ⟨reply, registered, lines⟩ := awaits
  refine Awaits.calms registered lines ?_ ⟨fun _ => rfl, fun _ => .inl ⟨rfl, id⟩, .inl ⟨rfl, rfl⟩⟩
  refine { Retains.refl tid clients with request := ?_, others := ?_ }
  · change (clients.requests.filter _).find? _ = _
    rw [find?_filter]
    congr 1
    funext req
    by_cases same : req.tid = tid
    · simpa [same] using fun equal : tid = other => differs equal.symm
    · simp [same]
  · intro req listed strange
    exact .inl ⟨req, mem_of_mem_filter listed, strange, rfl⟩

end

theorem Call.preserves_awaits : Preserves Call.run (Call.Meets tid data.sum)
    fun clients => Kept clients ∧ Awaits tid first data pages clients := by
  intro call before after meets holds ran
  obtain ⟨kept, awaits⟩ := holds
  refine ⟨Call.preserves_kept call before after meets.1 kept ran, ?_⟩
  cases call with
  | opened con =>
    cases ran
    exact opened_awaits awaits con
  | fault con => exact fault_awaits awaits ran
  | header con hdr memory =>
    cases ran
    exact header_awaits kept awaits meets
  | alloc con memory =>
    cases ran
    exact alloc_awaits awaits con memory
  | recv con got => exact recv_awaits awaits ran
  | process con => exact process_awaits awaits ran
  | revokeIncoming msg =>
    cases ran
    obtain ⟨reply, registered, lines⟩ := awaits
    exact .calms registered lines (retains_revoke msg before) (calms_revoke reply msg before)
  | addGeneric other frontLen memory =>
    cases ran
    exact addGeneric_awaits awaits other frontLen memory
  | removeGeneric other =>
    cases ran
    obtain ⟨reply, registered, lines⟩ := awaits
    refine Awaits.calms registered lines ?_ ⟨fun _ => rfl, fun _ => .inl ⟨rfl, id⟩, .inl ⟨rfl, rfl⟩⟩
    exact { Retains.refl tid before with generic := fun req listed => .inl (mem_of_mem_filter listed) }
  | addRequest other frontLen others otherPages memory =>
    cases ran
    exact addRequest_awaits awaits meets.2 frontLen others otherPages memory
  | removeRequest other =>
    cases ran
    exact removed_awaits awaits meets.2

theorem added_awaits (kept : Kept clients)
    (quiet : ∀ con, ¬ clients.Live tid con) (frontLen : Nat) :
    Kept (clients.addRequest tid frontLen data pages true) ∧
      Awaits tid clients.allocated data pages (clients.addRequest tid frontLen data pages true) := by
  refine ⟨kept.extends (extends_addRequest tid frontLen data pages true clients), clients.allocated, ?_, ?_⟩
  · refine ⟨⟨lt_succ_self _, ?_⟩, ⟨lt_succ_self _, .inl rfl⟩, find?_cons_of_pos (by simp), ?_, ?_, ?_⟩
    · change ((clients.setMsg clients.allocated (Msg.new frontLen data)).msgs clients.allocated).data = data
      rw [setMsg_self]
      rfl
    · intro req listed strange
      rcases List.mem_cons.mp listed with rfl | old
      · exact absurd rfl strange
      · exact (kept.replies req old).ne
    · exact fun req listed => (kept.generic req listed).ne
    · exact ⟨kept.prealloc.1.ne, kept.prealloc.2.ne⟩
  · refine ⟨?_, ?_, ?_, fun con other live _ => absurd live (quiet con)⟩
    · intro con hdr _
      exact ⟨fun id phase => (kept.reading con hdr id phase).1.ne,
        fun id skip phase => (kept.allocating con hdr id skip phase).1.ne⟩
    · intro con hdr given skip phase opened answers
      exact absurd ⟨hdr, answers, .inr ⟨opened, given, skip, phase⟩⟩ (quiet con)
    · intro con hdr id phase answers
      exact absurd ⟨hdr, answers, .inl ⟨id, phase⟩⟩ (quiet con)

def Msg.left (hdr : MsgHeader) (msg : Msg) : Nat :=
  (hdr.frontLen.toNat - msg.front.iovLen) + (msg.middle.elim 0 fun middle => hdr.middleLen.toNat - middle.iovLen) +
    if 0 < hdr.dataLen.toNat then msg.cursorResid else 0

theorem complete_iff_left {msg : Msg} : msg.complete hdr = true ↔ msg.left hdr = 0 := by
  rw [Msg.complete, Msg.left]
  cases msg.middle with
  | none =>
    by_cases some : 0 < hdr.dataLen.toNat
    · simp [some]
      lia
    · simp [some]
      lia
  | some middle =>
    by_cases some : 0 < hdr.dataLen.toNat
    · simp [some]
      lia
    · simp [some]
      lia

theorem recv_section_left {part after : Section} {secLen : Nat} (ran : part.recv secLen got = .ok after)
    (some : 0 < got) (left : part.iovLen < secLen) : part.iovLen < after.iovLen := by
  rw [Section.recv] at ran
  split at ran
  · cases ran
  · cases ran
    lia

theorem recvData_left {msg after : Msg} (some : 0 < got)
    (ran : (if 0 < hdr.dataLen.toNat then msg.recvData got else .ok msg) = .ok after)
    (unread : 0 < if 0 < hdr.dataLen.toNat then msg.cursorResid else 0) :
    after.front = msg.front ∧ after.middle = msg.middle ∧ (if 0 < hdr.dataLen.toNat then after.cursorResid else 0) <
        if 0 < hdr.dataLen.toNat then msg.cursorResid else 0 := by
  by_cases data : 0 < hdr.dataLen.toNat
  · rw [if_pos data] at ran unread
    rw [if_pos data, if_pos data]
    rw [Msg.recvData] at ran
    split at ran
    · cases ran
    · cases ran
      refine ⟨rfl, rfl, ?_⟩
      lia
  · rw [if_neg data] at unread
    exact absurd unread (lt_irrefl 0)

/-- Each pass reads of what is left. -/
theorem recv_left {msg after : Msg} (ran : msg.recv hdr got = .ok after) (some : 0 < got)
    (unread : 0 < msg.left hdr) : after.left hdr < msg.left hdr := by
  unfold Msg.left at unread ⊢
  rw [Msg.recv] at ran
  split at ran
  · next short =>
    obtain ⟨front, received, made⟩ := ok_of_bind ran
    cases made
    have more := recv_section_left received some short
    lia
  · next read =>
    cases held : msg.middle with
    | none =>
      rw [held] at ran unread
      dsimp only [Option.elim] at ran unread
      obtain ⟨front, middle, less⟩ := recvData_left some ran (by lia)
      rw [front, middle, held]
      omega
    | some middle =>
      rw [held] at ran unread
      dsimp only [Option.elim] at ran unread
      split at ran
      · next short =>
        obtain ⟨later, received, made⟩ := ok_of_bind ran
        cases made
        have more := recv_section_left received some short
        dsimp only [Option.elim]
        lia
      · next middleRead =>
        obtain ⟨front, same, less⟩ := recvData_left some ran (by lia)
        rw [front, same, held]
        omega

structure Delivers (tid : UInt64) (first : MsgId) (data : List Nat) (clients : Clients) : Prop where
  taken : ∀ con hdr, clients.Takes con hdr → clients.Answers tid con hdr → hdr.dataLen.toNat ≤ data.sum →
    ((∃ id, ((clients.readHeader con hdr true).cons con).phase = .allocating hdr (some id) false ∧
      (0 < hdr.dataLen.toNat → id = first)) ↔ (0 < hdr.dataLen.toNat → clients.Carries tid hdr))
  begun : ∀ con hdr given skip, (clients.cons con).phase = .allocating hdr given skip →
    (clients.cons con).opened = true → clients.Answers tid con hdr → hdr.dataLen.toNat ≤ data.sum →
    skip = false ∧ ∀ id, given = some id → ((clients.inMsgAlloc con true).cons con).phase = .reading hdr id
  read : ∀ con hdr id, (clients.cons con).phase = .reading hdr id → clients.Answers tid con hdr → ∀ got,
    ∃ after, clients.recv con got = .ok after ∧ (after.cons con).phase = .reading hdr id ∧
      (0 < got → 0 < (clients.msgs id).left hdr → (after.msgs id).left hdr < (clients.msgs id).left hdr)
  stored : ∀ con hdr id, (clients.cons con).phase = .reading hdr id → clients.Answers tid con hdr →
    0 < hdr.dataLen.toNat → id = first ∧ (clients.msgs id).data = data ∧
      (clients.msgs id).cursorPos + (clients.msgs id).cursorResid = hdr.dataLen.toNat
  dispatched : ∀ con hdr id, (clients.cons con).phase = .reading hdr id → clients.Answers tid con hdr →
    (clients.msgs id).left hdr = 0 → ∃ after, clients.processMessage con = .ok after ∧ (after.cons con).phase = .idle

theorem header_delivers (kept : Kept clients) (registered : Registered tid first reply data pages clients)
    (takes : clients.Takes con hdr) (answers : clients.Answers tid con hdr) (small : hdr.dataLen.toNat ≤ data.sum) :
    (∃ id, ((clients.readHeader con hdr true).cons con).phase = .allocating hdr (some id) false ∧
      (0 < hdr.dataLen.toNat → id = first)) ↔ (0 < hdr.dataLen.toNat → clients.Carries tid hdr) := by
  obtain ⟨given, skip, after, renewed, ran, own⟩ := readHeader_own kept registered takes answers true
  rw [ran, setPhase_self]
  constructor
  · rintro ⟨id, isPhase, isFirst⟩ some
    obtain ⟨-, isGiven, -⟩ : hdr = hdr ∧ given = Option.some id ∧ skip = false := by
      cases isPhase
      exact ⟨rfl, rfl, rfl⟩
    subst isGiven
    obtain rfl := isFirst some
    have fits := own.front rfl
    obtain ⟨isRenewed, -, room⟩ := own.gives id rfl
    intro req found
    rw [registered.request] at found
    cases found
    have same : id = reply := isRenewed.trans (own.fits fits)
    refine ⟨?_, fits, room⟩
    rw [← same, Msg.dataLength, registered.origin.2]
    exact small
  · intro carries
    obtain ⟨fine, isGiven⟩ := own.fine registered fun some _ => carries some
    have used := fine small
    subst used
    cases given with
    | none => cases own.found rfl rfl
    | some id => exact ⟨id, rfl, fun some => (isGiven id rfl).2 some small⟩

theorem allocMiddle_succeeds (hdr : MsgHeader) (msg : Msg) :
    ∃ made, msg.allocMiddle hdr true = some made ∧ made.dataLength = msg.dataLength := by
  rw [Msg.allocMiddle]
  split
  · exact ⟨_, rfl, rfl⟩
  · exact ⟨msg, rfl, rfl⟩

theorem Awaits.delivers (kept : Kept clients) (awaits : Awaits tid first data pages clients) :
    Delivers tid first data clients := by
  obtain ⟨reply, registered, lines⟩ := awaits
  refine ⟨fun con hdr => header_delivers kept registered, ?_, ?_, ?_, ?_⟩
  · intro con hdr given skip phase opened answers small
    obtain ⟨fine, isGiven⟩ := lines.allocating con hdr given skip phase opened answers
    refine ⟨fine small, ?_⟩
    rintro id rfl
    obtain ⟨isReply, isFirst⟩ := isGiven id rfl
    obtain ⟨made, ran, length⟩ := allocMiddle_succeeds hdr { clients.msgs id with con := some con }
    have fits : hdr.dataLen.toNat ≤ made.dataLength := by
      rw [length]
      change _ ≤ (clients.msgs id).data.sum
      by_cases some : 0 < hdr.dataLen.toNat
      · rw [isFirst some small, registered.origin.2]
        exact small
      · exact (Nat.le_zero.mp (not_lt.mp some)).le.trans (zero_le _)
    rw [inMsgAlloc_reads phase opened ran fits, setPhase_self]
  · intro con hdr id phase answers got
    obtain ⟨after, ran, -, -⟩ := recv_holds (kept.reading con hdr id phase).2 (kept.cursors id) got
    refine ⟨clients.setMsg id after, ?_, phase, ?_⟩
    · rw [recv, phase]
      dsimp only
      rw [ran]
      rfl
    · intro some unread
      rw [setMsg_self]
      exact recv_left ran some unread
  · intro con hdr id phase answers some
    obtain ⟨isReply, -, whole⟩ := lines.reading con hdr id phase answers
    have isFirst : id = first := by
      rw [isReply]
      refine registered.current.2.resolve_right fun nothing => ?_
      have room := (kept.reading con hdr id phase).2.data
      rw [isReply, Msg.dataLength, nothing] at room
      exact absurd room (not_le.mpr some)
    subst isFirst
    exact ⟨rfl, registered.origin.2, whole some⟩
  · intro con hdr id phase answers nothing
    obtain ⟨-, ours, -⟩ := lines.reading con hdr id phase answers
    refine ⟨(clients.setMsg id { clients.msgs id with con := none }).setPhase con .idle, ?_, ?_⟩
    · rw [processMessage, phase]
      dsimp only
      rw [if_pos (complete_iff_left.mpr nothing), haltIf, if_neg (not_not_intro ours)]
      rfl
    · rw [setPhase_self]

/-- Replies to a request, in runs in which those with data find that of the request: they are taken, read into the data
of the request and dispatched. -/
theorem replies_delivered {peers : ConId → Peer} {start : Clients} (ops : List ReqOp) (frontLen : Nat)
    (reached : Reached Call.run Call.Fits (init peers) start) (quiet : ∀ con, ¬ start.Live tid con)
    (ran : Reached Call.run (Call.Meets tid (replyData ops).sum)
      (start.addRequest tid frontLen (replyData ops) (firstPages ops) true) clients) :
    Delivers tid start.allocated (replyData ops) clients := by
  have kept := reached.preserved Call.preserves_kept (init_kept peers)
  obtain ⟨keptLater, awaits⟩ := ran.preserved Call.preserves_awaits (added_awaits kept quiet frontLen)
  exact awaits.delivers keptLater

end

def replyHeader (tid : UInt64) (frontLen dataLen : UInt32) : MsgHeader :=
  { frameHeader 43 tid frontLen 0 with dataLen := dataLen }

def osdOpen : Clients := (Clients.init mixedPeers).open_ 1

theorem osdOpen_reached : Reached Call.run Call.Fits (init mixedPeers) osdOpen :=
  Reached.start.next (.opened 1) trivial rfl

theorem osdOpen_idle (con : ConId) : (osdOpen.cons con).phase = .idle := by
  change (update (init mixedPeers).cons 1 _ con).phase = _
  by_cases same : con = 1
  · rw [same, update_self]
    rfl
  · rw [update_of_ne same]
    rfl

theorem osdOpen_quiet (tid : UInt64) (con : ConId) : ¬ osdOpen.Live tid con := by
  rintro ⟨hdr, -, doing⟩
  rw [osdOpen_idle] at doing
  rcases doing with ⟨id, phase⟩ | ⟨-, given, skip, phase⟩
  · cases phase
  · cases phase

def readOp : List ReqOp := [.extent false (.pages 100)]

def readPending : Clients := osdOpen.addRequest 7 512 (replyData readOp) (firstPages readOp) true

/-- A reply that is read. -/
theorem replies_delivered_read : ∃ clients, Delivers 7 2 (replyData readOp) clients ∧
    (clients.cons 1).phase = .reading (replyHeader 7 8 60) 2 ∧ (clients.msgs 2).left (replyHeader 7 8 60) = 0 := by
  have carries : readPending.Carries 7 (replyHeader 7 8 60) := by
    rintro req ⟨⟩
    refine ⟨by decide, by decide, ?_⟩
    rintro length ⟨⟩
    decide
  have meets : (Call.header 1 (replyHeader 7 8 60) true).Meets 7 (replyData readOp).sum readPending := by
    refine ⟨trivial, fun _ _ => ⟨fun other hdr given skip phase => ?_, fun _ _ => carries⟩⟩
    exact absurd ((osdOpen_idle other).symm.trans phase) nofun
  have taken : Reached Call.run (Call.Meets 7 (replyData readOp).sum) readPending _ :=
    Reached.start.next (.header 1 (replyHeader 7 8 60) true) meets rfl
  have begun := taken.next (.alloc 1 true) ⟨by
    rintro hdr msg skip ⟨⟩ - - -
    exact ⟨fun generic => absurd generic (by decide), nofun⟩, trivial⟩ rfl
  have read := (begun.next (.recv 1 100) ⟨trivial, trivial⟩ rfl).next (.recv 1 100) ⟨trivial, trivial⟩ rfl
  exact ⟨_, replies_delivered readOp 512 osdOpen_reached (osdOpen_quiet 7) read, rfl, rfl⟩

def compoundOps : List ReqOp := [.extent true (.pages 10), .extent false (.pages 100)]

/-- A reply whose front is longer than that of the message is read into one without data, and its data does not fit: it
is skipped; and so is one with more data than the first operation, which writes, has pages for. -/
theorem replies_dropped :
    (∃ clients, Reached Call.run Call.Fits readPending clients ∧ clients.Answers 7 1 (replyHeader 7 600 60) ∧
      60 ≤ (replyData readOp).sum ∧ (clients.cons 1).phase = .allocating (replyHeader 7 600 60) (some 3) false ∧
      ((clients.inMsgAlloc 1 true).cons 1).phase = .idle ∧
      ((clients.inMsgAlloc 1 true).requests.find? (·.tid = 7)).isSome = true) ∧
    (osdOpen.addRequest 7 512 (replyData compoundOps) (firstPages compoundOps) true).Answers 7 1 (replyHeader 7 8 60) ∧
      60 ≤ (replyData compoundOps).sum ∧
      (((osdOpen.addRequest 7 512 (replyData compoundOps) (firstPages compoundOps) true).readHeader 1
        (replyHeader 7 8 60) true).cons 1).phase = .allocating (replyHeader 7 8 60) none true := by
  have taken : Reached Call.run Call.Fits readPending _ :=
    Reached.start.next (.header 1 (replyHeader 7 600 60) true) trivial rfl
  exact ⟨⟨_, taken, ⟨rfl, rfl, rfl⟩, by decide, rfl, rfl, rfl⟩, ⟨rfl, rfl, rfl⟩, by decide, rfl⟩

end KmodCeph.Incoming
