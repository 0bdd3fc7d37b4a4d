import KmodCeph.Incoming.Buffers

namespace KmodCeph.Incoming

open Lib Messenger Clients List

structure Msg.Holds (hdr : MsgHeader) (msg : Msg) : Prop where
  front : hdr.frontLen.toNat ≤ msg.front.alloc
  middle : 0 < hdr.middleLen.toNat → ∃ middle, msg.middle = some middle ∧ hdr.middleLen.toNat ≤ middle.alloc
  data : hdr.dataLen.toNat ≤ msg.dataLength

structure Msg.Grown (before after : Msg) : Prop where
  front : after.front.alloc = before.front.alloc
  middle : ∀ middle, before.middle = some middle → ∃ later, after.middle = some later ∧ later.alloc = middle.alloc
  data : after.data = before.data

def Msg.Within (msg : Msg) : Prop := msg.cursorPos + msg.cursorResid ≤ msg.dataLength

def FromGeneric (peer : Peer) (hdr : MsgHeader) : Prop :=
  peer = .mon ∧ (hdr.type = cephMsgPoolopReply ∨ hdr.type = cephMsgStatfsReply ∨
    hdr.type = cephMsgMonGetVersionReply ∧ hdr.tid ≠ 0)

instance (peer : Peer) (hdr : MsgHeader) : Decidable (FromGeneric peer hdr) :=
  inferInstanceAs (Decidable (_ ∧ _))

/-- Where a message that `alloc_msg` returned is to be read into, a reply to a request to the monitors fits it in front,
and a middle buffer that it has from another frame is large enough. -/
def Call.Fits : Call → Clients → Prop
  | .alloc con memory, clients => ∀ hdr msg skip, (clients.cons con).phase = .allocating hdr (some msg) skip →
      (clients.cons con).opened = true → hdr.dataLen.toNat ≤ (clients.msgs msg).dataLength →
      ((clients.msgs msg).middle = none → 0 < hdr.middleLen.toNat → memory = true) →
      (FromGeneric (clients.cons con).peer hdr → hdr.frontLen.toNat ≤ (clients.msgs msg).front.alloc) ∧
        ∀ middle, (clients.msgs msg).middle = some middle → hdr.middleLen.toNat ≤ middle.alloc
  | _, _ => True

structure Kept (clients : Clients) : Prop where
  reading : ∀ con hdr msg, (clients.cons con).phase = .reading hdr msg →
    msg < clients.allocated ∧ (clients.msgs msg).Holds hdr
  allocating : ∀ con hdr msg skip, (clients.cons con).phase = .allocating hdr (some msg) skip →
    msg < clients.allocated ∧
      (FromGeneric (clients.cons con).peer hdr ∨ hdr.frontLen.toNat ≤ (clients.msgs msg).front.alloc)
  cursors : ∀ msg, (clients.msgs msg).Within
  generic : ∀ req ∈ clients.genericRequests, req.reply < clients.allocated
  replies : ∀ req ∈ clients.requests, req.reply < clients.allocated
  prealloc : clients.subscribeAck < clients.allocated ∧ clients.authReply < clients.allocated

/-- No frame is begun, and what messages have room for stays. -/
structure Extends (before after : Clients) : Prop where
  msgs : ∀ msg, msg < before.allocated → (before.msgs msg).Grown (after.msgs msg)
  allocated : before.allocated ≤ after.allocated
  peers : ∀ con, (after.cons con).peer = (before.cons con).peer
  phases : ∀ con, (after.cons con).phase = (before.cons con).phase ∨ (after.cons con).phase = .idle
  cursors : (∀ msg, (before.msgs msg).Within) → ∀ msg, (after.msgs msg).Within
  generic : (∀ req ∈ before.genericRequests, req.reply < before.allocated) →
    ∀ req ∈ after.genericRequests, req.reply < after.allocated
  replies : (∀ req ∈ before.requests, req.reply < before.allocated) →
    ∀ req ∈ after.requests, req.reply < after.allocated
  prealloc : after.subscribeAck = before.subscribeAck ∧ after.authReply = before.authReply

section

variable {clients before after : Clients} {hdr : MsgHeader} {msg : Msg} {id : MsgId} {con : ConId}

theorem Msg.Grown.refl (msg : Msg) : msg.Grown msg where
  front := rfl
  middle := fun middle held => ⟨middle, held, rfl⟩
  data := rfl

theorem Msg.Grown.trans {first second third : Msg} (before : first.Grown second) (after : second.Grown third) :
    first.Grown third where
  front := after.front.trans before.front
  middle := by
    intro middle held
    obtain ⟨later, isLater, alloc⟩ := before.middle middle held
    obtain ⟨last, isLast, same⟩ := after.middle later isLater
    exact ⟨last, isLast, same.trans alloc⟩
  data := after.data.trans before.data

theorem Msg.Holds.grown {first second : Msg} (holds : first.Holds hdr) (grown : first.Grown second) :
    second.Holds hdr where
  front := grown.front ▸ holds.front
  middle := by
    intro some
    obtain ⟨middle, held, enough⟩ := holds.middle some
    obtain ⟨later, isLater, alloc⟩ := grown.middle middle held
    exact ⟨later, isLater, alloc ▸ enough⟩
  data := by
    rw [Msg.dataLength, grown.data]
    exact holds.data

theorem Extends.refl (clients : Clients) : Extends clients clients where
  msgs _ _ := .refl _
  allocated := le_rfl
  peers _ := rfl
  phases _ := .inl rfl
  cursors := id
  generic := id
  replies := id
  prealloc := ⟨rfl, rfl⟩

theorem Extends.trans {middle : Clients} (first : Extends before middle) (second : Extends middle after) :
    Extends before after where
  msgs msg old := (first.msgs msg old).trans (second.msgs msg (old.trans_le first.allocated))
  allocated := first.allocated.trans second.allocated
  peers con := (second.peers con).trans (first.peers con)
  phases con := by
    rcases second.phases con with same | idle
    · rcases first.phases con with earlier | idle
      · exact .inl (same.trans earlier)
      · exact .inr (same.trans idle)
    · exact .inr idle
  cursors := second.cursors ∘ first.cursors
  generic := second.generic ∘ first.generic
  replies := second.replies ∘ first.replies
  prealloc := ⟨second.prealloc.1.trans first.prealloc.1, second.prealloc.2.trans first.prealloc.2⟩

theorem Kept.extends (kept : Kept before) (extended : Extends before after) : Kept after where
  reading := by
    intro con hdr msg phase
    rcases extended.phases con with same | idle
    · obtain ⟨known, holds⟩ := kept.reading con hdr msg (same.symm.trans phase)
      exact ⟨known.trans_le extended.allocated, holds.grown (extended.msgs msg known)⟩
    · rw [idle] at phase
      cases phase
  allocating := by
    intro con hdr msg skip phase
    rcases extended.phases con with same | idle
    · obtain ⟨known, fits⟩ := kept.allocating con hdr msg skip (same.symm.trans phase)
      rw [extended.peers, (extended.msgs msg known).front]
      exact ⟨known.trans_le extended.allocated, fits⟩
    · rw [idle] at phase
      cases phase
  cursors := extended.cursors kept.cursors
  generic := extended.generic kept.generic
  replies := extended.replies kept.replies
  prealloc := by
    rw [extended.prealloc.1, extended.prealloc.2]
    exact ⟨kept.prealloc.1.trans_le extended.allocated, kept.prealloc.2.trans_le extended.allocated⟩

theorem extends_setMsg (grown : (clients.msgs id).Grown msg) (within : (clients.msgs id).Within → msg.Within) :
    Extends clients (clients.setMsg id msg) where
  msgs other _ := by
    by_cases same : other = id
    · subst same
      rw [setMsg_self]
      exact grown
    · rw [setMsg_other same]
      exact .refl _
  allocated := le_rfl
  peers _ := rfl
  phases _ := .inl rfl
  cursors := by
    intro all other
    by_cases same : other = id
    · subst same
      rw [setMsg_self]
      exact within (all other)
    · rw [setMsg_other same]
      exact all other
  generic known := known
  replies known := known
  prealloc := ⟨rfl, rfl⟩

theorem extends_idle (con : ConId) (clients : Clients) : Extends clients (clients.setPhase con .idle) where
  msgs _ _ := .refl _
  allocated := le_rfl
  peers other := by
    by_cases same : other = con
    · subst same
      rw [setPhase_self]
    · rw [setPhase_other same]
  phases other := by
    by_cases same : other = con
    · subst same
      rw [setPhase_self]
      exact .inr rfl
    · rw [setPhase_other same]
      exact .inl rfl
  cursors within := within
  generic known := known
  replies known := known
  prealloc := ⟨rfl, rfl⟩

theorem extends_opened (con : ConId) (opened : Bool) (clients : Clients) :
    Extends clients { clients with
      cons := Function.update clients.cons con { clients.cons con with opened := opened } } where
  msgs _ _ := .refl _
  allocated := le_rfl
  peers other := by
    by_cases same : other = con
    · subst same
      dsimp only
      rw [Function.update_self]
    · dsimp only
      rw [Function.update_of_ne same]
  phases other := by
    by_cases same : other = con
    · subst same
      dsimp only
      rw [Function.update_self]
      exact .inl rfl
    · dsimp only
      rw [Function.update_of_ne same]
      exact .inl rfl
  cursors within := within
  generic known := known
  replies known := known
  prealloc := ⟨rfl, rfl⟩

theorem extends_new (clients : Clients) (frontLen : Nat) (data : List Nat) :
    Extends clients { clients.setMsg clients.allocated (Msg.new frontLen data) with
      allocated := clients.allocated + 1 } where
  msgs other old := by
    change (clients.msgs other).Grown ((clients.setMsg clients.allocated (Msg.new frontLen data)).msgs other)
    rw [setMsg_other old.ne]
    exact .refl _
  allocated := Nat.le_succ _
  peers _ := rfl
  phases _ := .inl rfl
  cursors := by
    intro all other
    change ((clients.setMsg clients.allocated (Msg.new frontLen data)).msgs other).Within
    by_cases same : other = clients.allocated
    · rw [same, setMsg_self]
      exact Nat.zero_le _
    · rw [setMsg_other same]
      exact all other
  generic known req listed := (known req listed).trans_le (Nat.le_succ _)
  replies known req listed := (known req listed).trans_le (Nat.le_succ _)
  prealloc := ⟨rfl, rfl⟩

structure Given (peer : Peer) (hdr : MsgHeader) (before : Clients) (msg : Option MsgId) (skip : Bool)
    (after : Clients) : Prop where
  extended : Extends before after
  known : ∀ id, msg = some id → id < after.allocated ∧ skip = false ∧
    (FromGeneric peer hdr ∨ hdr.frontLen.toNat ≤ (after.msgs id).front.alloc)

theorem cephMsgNew_given (peer : Peer) (hdr : MsgHeader) (memory : Bool) (clients : Clients) :
    Given peer hdr clients (clients.cephMsgNew hdr.frontLen.toNat [] memory).1 false
      (clients.cephMsgNew hdr.frontLen.toNat [] memory).2 := by
  rw [cephMsgNew]
  split
  · refine ⟨extends_new clients _ _, ?_⟩
    intro id isId
    cases isId
    refine ⟨Nat.lt_succ_self _, rfl, .inr ?_⟩
    change _ ≤ ((clients.setMsg clients.allocated (Msg.new hdr.frontLen.toNat [])).msgs clients.allocated).front.alloc
    rw [setMsg_self]
    exact le_rfl
  · exact ⟨.refl _, nofun⟩

theorem monPrealloc_given (known : id < clients.allocated) (peer : Peer) (hdr : MsgHeader) (memory : Bool) :
    Given peer hdr clients (clients.monPrealloc id hdr memory).1 (clients.monPrealloc id hdr memory).2.1
      (clients.monPrealloc id hdr memory).2.2 := by
  rw [monPrealloc]
  split
  · exact cephMsgNew_given peer hdr memory clients
  · next fits =>
    refine ⟨.refl _, ?_⟩
    intro other isOther
    cases isOther
    exact ⟨known, rfl, .inr (Nat.le_of_not_lt fits)⟩

theorem getGenericReply_given (kept : Kept clients) {peer : Peer} (generic : FromGeneric peer hdr) :
    Given peer hdr clients (clients.getGenericReply hdr).1 (clients.getGenericReply hdr).2 clients := by
  refine ⟨.refl _, ?_⟩
  rw [getGenericReply]
  cases found : clients.genericRequests.find? (·.tid = hdr.tid) with
  | none => exact nofun
  | some req =>
    intro id isId
    cases isId
    exact ⟨kept.generic req (mem_of_find?_eq_some found), rfl, .inl generic⟩

theorem monAllocMsg_given (kept : Kept clients) (hdr : MsgHeader) (memory : Bool) :
    Given .mon hdr clients (clients.monAllocMsg hdr memory).1 (clients.monAllocMsg hdr memory).2.1
      (clients.monAllocMsg hdr memory).2.2 := by
  rw [monAllocMsg]
  split
  · exact monPrealloc_given kept.prealloc.1 _ _ _
  · split
    · next reply => exact getGenericReply_given kept ⟨rfl, reply.imp_right .inl⟩
    · split
      · exact monPrealloc_given kept.prealloc.2 _ _ _
      · split
        · next version => exact getGenericReply_given kept ⟨rfl, .inr (.inr version)⟩
        · split
          · exact cephMsgNew_given _ _ _ _
          · exact ⟨.refl _, nofun⟩

theorem extends_revoke (id : MsgId) (clients : Clients) : Extends clients (clients.revokeIncoming id) := by
  rw [revokeIncoming]
  split
  · exact .refl _
  · split
    · split
      · exact extends_idle _ _
      · exact .refl _
    · exact .refl _

theorem Given.behind {peer : Peer} {skip : Bool} {given : Option MsgId} {middle : Clients}
    (first : Extends before middle) (then_ : Given peer hdr middle given skip after) :
    Given peer hdr before given skip after where
  extended := first.trans then_.extended
  known := then_.known

theorem extends_replies {clients : Clients} (known : id < clients.allocated) (tid : UInt64) :
    Extends clients { clients with
      requests := clients.requests.map fun other => if other.tid = tid then { other with reply := id } else other } where
  msgs _ _ := .refl _
  allocated := le_rfl
  peers _ := rfl
  phases _ := .inl rfl
  cursors within := within
  generic known := known
  replies := by
    intro old req listed
    obtain ⟨other, held, rfl⟩ := List.mem_map.mp listed
    split
    · exact known
    · exact old other held
  prealloc := ⟨rfl, rfl⟩

theorem replyFront_given {req : OsdRequest} (known : req.reply < clients.allocated) (hdr : MsgHeader) (memory : Bool) :
    Given .osd hdr clients (clients.replyFront req hdr memory).1 false (clients.replyFront req hdr memory).2 := by
  rw [replyFront]
  split
  · have new := cephMsgNew_given .osd hdr memory clients
    generalize clients.cephMsgNew hdr.frontLen.toNat [] memory = made at new ⊢
    obtain ⟨given, made⟩ := made
    cases given with
    | none => exact ⟨new.extended, nofun⟩
    | some id =>
      obtain ⟨fresh, -, fits⟩ := new.known id rfl
      refine ⟨new.extended.trans (extends_replies fresh req.tid), ?_⟩
      intro other isOther
      cases isOther
      exact ⟨fresh, rfl, fits⟩
  · next fits =>
    refine ⟨.refl _, ?_⟩
    intro other isOther
    cases isOther
    exact ⟨known, rfl, .inr (Nat.le_of_not_lt fits)⟩

theorem getReply_given (kept : Kept clients) (hdr : MsgHeader) (memory : Bool) :
    Given .osd hdr clients (clients.getReply hdr memory).1 (clients.getReply hdr memory).2.1
      (clients.getReply hdr memory).2.2 := by
  rw [getReply]
  cases found : clients.requests.find? (·.tid = hdr.tid) with
  | none => exact ⟨.refl _, nofun⟩
  | some req =>
    have revoked := extends_revoke req.reply clients
    have known := (kept.replies req (mem_of_find?_eq_some found)).trans_le revoked.allocated
    have fronted := (replyFront_given known hdr memory).behind revoked
    dsimp only
    generalize (clients.revokeIncoming req.reply).replyFront req hdr memory = made at fronted ⊢
    obtain ⟨given, made⟩ := made
    cases given with
    | none => exact ⟨fronted.extended, nofun⟩
    | some id =>
      dsimp only
      split
      · exact fronted
      · split
        · exact ⟨fronted.extended, nofun⟩
        · exact fronted

theorem osdAllocMsg_given (kept : Kept clients) (hdr : MsgHeader) (memory : Bool) :
    Given .osd hdr clients (clients.osdAllocMsg hdr memory).1 (clients.osdAllocMsg hdr memory).2.1
      (clients.osdAllocMsg hdr memory).2.2 := by
  rw [osdAllocMsg]
  split
  · exact cephMsgNew_given _ _ _ _
  · split
    · exact getReply_given kept hdr memory
    · exact ⟨.refl _, nofun⟩

theorem allocMsg_given (kept : Kept clients) (peer : Peer) (hdr : MsgHeader) (memory : Bool) :
    Given peer hdr clients (clients.allocMsg peer hdr memory).1 (clients.allocMsg peer hdr memory).2.1
      (clients.allocMsg peer hdr memory).2.2 := by
  cases peer with
  | mon => exact monAllocMsg_given kept hdr memory
  | osd => exact osdAllocMsg_given kept hdr memory
  | mds => exact cephMsgNew_given .mds hdr memory clients

theorem Kept.allocating_set (kept : Kept clients) {given : Option MsgId} {skip : Bool}
    (known : ∀ id, given = some id → id < clients.allocated ∧
      (FromGeneric (clients.cons con).peer hdr ∨ hdr.frontLen.toNat ≤ (clients.msgs id).front.alloc)) :
    Kept (clients.setPhase con (.allocating hdr given skip)) where
  reading := by
    intro other hdr msg phase
    by_cases same : other = con
    · rw [same, setPhase_self] at phase
      cases phase
    · rw [setPhase_other same] at phase
      exact kept.reading other hdr msg phase
  allocating := by
    intro other hdr msg skip phase
    by_cases same : other = con
    · rw [same, setPhase_self] at phase ⊢
      cases phase
      exact known msg rfl
    · rw [setPhase_other same] at phase ⊢
      exact kept.allocating other hdr msg skip phase
  cursors := kept.cursors
  generic := kept.generic
  replies := kept.replies
  prealloc := kept.prealloc

theorem Kept.reading_set (kept : Kept clients) (known : id < clients.allocated)
    (holds : (clients.msgs id).Holds hdr) : Kept (clients.setPhase con (.reading hdr id)) where
  reading := by
    intro other hdr msg phase
    by_cases same : other = con
    · rw [same, setPhase_self] at phase
      cases phase
      exact ⟨known, holds⟩
    · rw [setPhase_other same] at phase
      exact kept.reading other hdr msg phase
  allocating := by
    intro other hdr msg skip phase
    by_cases same : other = con
    · rw [same, setPhase_self] at phase
      cases phase
    · rw [setPhase_other same] at phase ⊢
      exact kept.allocating other hdr msg skip phase
  cursors := kept.cursors
  generic := kept.generic
  replies := kept.replies
  prealloc := kept.prealloc

theorem readHeader_kept (kept : Kept clients) (con : ConId) (hdr : MsgHeader) (memory : Bool) :
    Kept (clients.readHeader con hdr memory) := by
  rw [readHeader]
  split
  · split
    · have given := allocMsg_given kept (clients.cons con).peer hdr memory
      refine (kept.extends given.extended).allocating_set ?_
      intro id isId
      obtain ⟨known, -, fits⟩ := given.known id isId
      rw [given.extended.peers]
      exact ⟨known, fits⟩
    · exact kept.extends (extends_opened con false clients)
  · exact kept

variable {made : Msg} {memory : Bool}

theorem allocMiddle_some (ran : msg.allocMiddle hdr memory = some made) :
    made.front = msg.front ∧ made.data = msg.data ∧ made.cursorPos = msg.cursorPos ∧
      made.cursorResid = msg.cursorResid ∧
      ((0 < hdr.middleLen.toNat ∧ msg.middle = none ∧ memory = true ∧ made.middle = some ⟨hdr.middleLen.toNat, 0⟩) ∨
        ¬ (0 < hdr.middleLen.toNat ∧ msg.middle = none) ∧ made = msg) := by
  rw [Msg.allocMiddle] at ran
  split at ran
  · next lacks =>
    split at ran
    · next enough =>
      cases ran
      exact ⟨rfl, rfl, rfl, rfl, .inl ⟨lacks.1, lacks.2, enough, rfl⟩⟩
    · cases ran
  · next has =>
    cases ran
    exact ⟨rfl, rfl, rfl, rfl, .inr ⟨has, rfl⟩⟩

theorem allocMiddle_grown
    (ran : Msg.allocMiddle hdr memory { msg with con := some con } = some made) : msg.Grown made := by
  obtain ⟨front, data, -, -, new | old⟩ := allocMiddle_some ran
  · refine ⟨by rw [front], ?_, data⟩
    intro middle held
    rw [show msg.middle = none from new.2.1] at held
    cases held
  · refine ⟨by rw [front], ?_, data⟩
    intro middle held
    exact ⟨middle, by rw [old.2]; exact held, rfl⟩

theorem prepare_grown (hdr : MsgHeader) (msg : Msg) : msg.Grown (msg.prepare hdr) where
  front := rfl
  middle := by
    intro middle held
    refine ⟨{ middle with iovLen := 0 }, ?_, rfl⟩
    rw [Msg.prepare, held]
    rfl
  data := rfl

theorem prepare_within (fits : hdr.dataLen.toNat ≤ msg.dataLength) (within : msg.Within) :
    (msg.prepare hdr).Within := by
  unfold Msg.Within Msg.prepare
  split
  · rw [Nat.zero_add]
    exact fits
  · exact within

theorem inMsgAlloc_reads {skip : Bool}
    (phase : (clients.cons con).phase = .allocating hdr (some id) skip) (opened : (clients.cons con).opened = true)
    (middle : Msg.allocMiddle hdr memory { clients.msgs id with con := some con } = some made)
    (data : hdr.dataLen.toNat ≤ made.dataLength) : clients.inMsgAlloc con memory =
      ((clients.setPhase con .idle).setMsg id (made.prepare hdr)).setPhase con (.reading hdr id) := by
  have still : ((clients.setPhase con .idle).cons con).opened = true := by
    rw [setPhase_self]
    exact opened
  have same : (clients.setPhase con .idle).msgs id = clients.msgs id := rfl
  rw [inMsgAlloc, phase]
  dsimp only
  rw [if_neg (not_not_intro still), same, middle]
  dsimp only
  rw [if_neg (not_lt.mpr data)]

theorem memory_of_allocMiddle
    (ran : Msg.allocMiddle hdr memory { msg with con := some con } = some made) (none : msg.middle = none)
    (some : 0 < hdr.middleLen.toNat) : memory = true := by
  obtain ⟨-, -, -, -, new | old⟩ := allocMiddle_some ran
  · exact new.2.2.1
  · exact absurd ⟨some, none⟩ old.1

theorem prepared_holds_iff {peer : Peer} (front : FromGeneric peer hdr ∨ hdr.frontLen.toNat ≤ msg.front.alloc)
    (ran : Msg.allocMiddle hdr memory { msg with con := some con } = some made)
    (data : hdr.dataLen.toNat ≤ made.dataLength) :
    (made.prepare hdr).Holds hdr ↔ (FromGeneric peer hdr → hdr.frontLen.toNat ≤ msg.front.alloc) ∧
      ∀ middle, msg.middle = some middle → hdr.middleLen.toNat ≤ middle.alloc := by
  have grown := (allocMiddle_grown ran).trans (prepare_grown hdr made)
  constructor
  · intro holds
    refine ⟨fun _ => grown.front ▸ holds.front, ?_⟩
    intro middle held
    obtain ⟨later, isLater, alloc⟩ := grown.middle middle held
    by_cases nothing : hdr.middleLen.toNat = 0
    · omega
    · obtain ⟨found, isFound, enough⟩ := holds.middle (Nat.pos_of_ne_zero nothing)
      rw [isLater] at isFound
      cases isFound
      exact alloc ▸ enough
  · rintro ⟨generic, middles⟩
    refine ⟨?_, ?_, data⟩
    · rw [grown.front]
      exact front.elim generic id
    · intro some
      cases held : msg.middle with
      | some middle =>
        obtain ⟨later, isLater, alloc⟩ := grown.middle middle held
        exact ⟨later, isLater, alloc ▸ middles middle held⟩
      | none =>
        obtain ⟨-, -, -, -, new | old⟩ := allocMiddle_some ran
        · obtain ⟨later, isLater, alloc⟩ := (prepare_grown hdr made).middle _ new.2.2.2
          exact ⟨later, isLater, alloc.ge⟩
        · exact absurd ⟨some, held⟩ old.1

theorem inMsgAlloc_kept (kept : Kept clients) (fits : (Call.alloc con memory).Fits clients) :
    Kept (clients.inMsgAlloc con memory) := by
  have idle := extends_idle con clients
  cases phase : (clients.cons con).phase with
  | idle =>
    rw [inMsgAlloc, phase]
    exact kept
  | reading hdr msg =>
    rw [inMsgAlloc, phase]
    exact kept
  | allocating hdr given skip =>
    by_cases opened : (clients.cons con).opened = true
    swap
    · have still : ((clients.setPhase con .idle).cons con).opened ≠ true := by
        rw [setPhase_self]
        exact opened
      rw [inMsgAlloc, phase]
      dsimp only
      rw [if_pos still]
      exact kept.extends idle
    have still : ((clients.setPhase con .idle).cons con).opened = true := by
      rw [setPhase_self]
      exact opened
    cases given with
    | none =>
      rw [inMsgAlloc, phase]
      dsimp only
      rw [if_neg (not_not_intro still)]
      split
      · exact kept.extends idle
      · exact kept.extends (idle.trans (extends_opened con false _))
    | some id =>
      obtain ⟨known, front⟩ := kept.allocating con hdr id skip phase
      have same : (clients.setPhase con .idle).msgs id = clients.msgs id := rfl
      have set (msg : Msg) (grown : (clients.msgs id).Grown msg)
          (within : (clients.msgs id).Within → msg.Within) : Kept ((clients.setPhase con .idle).setMsg id msg) :=
        (kept.extends idle).extends (extends_setMsg grown within)
      have marked : (clients.msgs id).Grown { clients.msgs id with con := some con } :=
        ⟨rfl, fun middle held => ⟨middle, held, rfl⟩, rfl⟩
      cases middle : Msg.allocMiddle hdr memory { clients.msgs id with con := some con } with
      | none =>
        rw [inMsgAlloc, phase]
        dsimp only
        rw [if_neg (not_not_intro still), same, middle]
        exact (set _ marked fun within => within).extends (extends_opened con false _)
      | some made =>
        have grown := allocMiddle_grown middle
        obtain ⟨madeFront, madeData, madePos, madeResid, cases_⟩ := allocMiddle_some middle
        have within (old : (clients.msgs id).Within) : made.Within := by
          unfold Msg.Within Msg.dataLength at old ⊢
          rw [madeData, madePos, madeResid]
          exact old
        by_cases long : hdr.dataLen.toNat > made.dataLength
        · rw [inMsgAlloc, phase]
          dsimp only
          rw [if_neg (not_not_intro still), same, middle]
          dsimp only
          rw [if_pos long]
          exact set made grown within
        · have data := not_lt.mp long
          rw [inMsgAlloc_reads phase opened middle data]
          have prepared := grown.trans (prepare_grown hdr made)
          have keptMade := set (made.prepare hdr) prepared fun old => prepare_within data (within old)
          refine keptMade.reading_set known ?_
          rw [setMsg_self]
          have enough : hdr.dataLen.toNat ≤ (clients.msgs id).dataLength := by
            rw [Msg.dataLength, ← show made.data = (clients.msgs id).data from madeData]
            exact data
          exact (prepared_holds_iff front middle data).mpr
            (fits hdr id skip phase opened enough (memory_of_allocMiddle middle))

theorem fits_of_holds (kept : Kept clients)
    (holds : ∀ hdr msg, ((clients.inMsgAlloc con memory).cons con).phase = .reading hdr msg →
      ((clients.inMsgAlloc con memory).msgs msg).Holds hdr) : (Call.alloc con memory).Fits clients := by
  intro hdr id skip phase opened data enough
  obtain ⟨known, front⟩ := kept.allocating con hdr id skip phase
  have made : ∃ made, Msg.allocMiddle hdr memory { clients.msgs id with con := some con } = some made := by
    rw [Msg.allocMiddle]
    split
    · next lacks =>
      rw [if_pos (enough lacks.2 lacks.1)]
      exact ⟨_, rfl⟩
    · exact ⟨_, rfl⟩
  obtain ⟨made, middle⟩ := made
  have madeData : made.data = (clients.msgs id).data := (allocMiddle_some middle).2.1
  have fits : hdr.dataLen.toNat ≤ made.dataLength := by
    rw [Msg.dataLength, madeData]
    exact data
  rw [inMsgAlloc_reads phase opened middle fits] at holds
  have read := holds hdr id (by rw [setPhase_self])
  change (((clients.setPhase con .idle).setMsg id (made.prepare hdr)).msgs id).Holds hdr at read
  rw [setMsg_self] at read
  exact (prepared_holds_iff front middle fits).mp read

theorem recv_section {part : Section} {secLen : Nat} (got : Nat) (room : secLen ≤ part.alloc)
    (left : part.iovLen < secLen) :
    ∃ after, part.recv secLen got = .ok after ∧ after.alloc = part.alloc := by
  have within : ¬ part.alloc < part.iovLen + min got (secLen - part.iovLen) := by lia
  rw [Section.recv, if_neg within]
  exact ⟨_, rfl, rfl⟩

theorem recvData_within (within : msg.Within) (got : Nat) :
    ∃ after, msg.recvData got = .ok after ∧ msg.Grown after ∧ after.Within := by
  unfold Msg.Within at within
  have room : ¬ msg.dataLength < msg.cursorPos + min got msg.cursorResid := by lia
  rw [Msg.recvData, if_neg room]
  refine ⟨_, rfl, ⟨rfl, fun middle held => ⟨middle, held, rfl⟩, rfl⟩, ?_⟩
  change msg.cursorPos + min got msg.cursorResid + (msg.cursorResid - min got msg.cursorResid) ≤ msg.dataLength
  lia

theorem recv_holds (holds : msg.Holds hdr) (within : msg.Within) (got : Nat) :
    ∃ after, msg.recv hdr got = .ok after ∧ msg.Grown after ∧ after.Within := by
  have data : ∃ after, (if 0 < hdr.dataLen.toNat then msg.recvData got else .ok msg) = .ok after ∧ msg.Grown after ∧
      after.Within := by
    split
    · exact recvData_within within got
    · exact ⟨msg, rfl, .refl msg, within⟩
  rw [Msg.recv]
  split
  · next left =>
    obtain ⟨front, ran, alloc⟩ := recv_section got holds.front left
    rw [ran]
    exact ⟨_, rfl, ⟨alloc, fun middle held => ⟨middle, held, rfl⟩, rfl⟩, within⟩
  · cases held : msg.middle with
    | none => exact data
    | some middle =>
      dsimp only
      split
      · next left =>
        obtain ⟨found, isFound, enough⟩ := holds.middle (Nat.zero_lt_of_lt left)
        rw [held] at isFound
        cases isFound
        obtain ⟨after, ran, alloc⟩ := recv_section got enough left
        rw [ran]
        refine ⟨_, rfl, ⟨rfl, ?_, rfl⟩, within⟩
        intro other isOther
        rw [held] at isOther
        cases isOther
        exact ⟨after, rfl, alloc⟩
      · exact data

theorem recv_kept (kept : Kept clients) (con : ConId) (got : Nat) :
    ∃ after, clients.recv con got = .ok after ∧ Kept after := by
  rw [recv]
  cases phase : (clients.cons con).phase with
  | idle => exact ⟨clients, rfl, kept⟩
  | allocating hdr given skip => exact ⟨clients, rfl, kept⟩
  | reading hdr msg =>
    obtain ⟨after, ran, grown, within⟩ := recv_holds (kept.reading con hdr msg phase).2 (kept.cursors msg) got
    dsimp only
    rw [ran]
    exact ⟨_, rfl, kept.extends (extends_setMsg grown fun _ => within)⟩

theorem extends_done (con : ConId) (id : MsgId) (clients : Clients) :
    Extends clients ((clients.setMsg id { clients.msgs id with con := none }).setPhase con .idle) := by
  have cleared : (clients.msgs id).Grown { clients.msgs id with con := none } :=
    ⟨rfl, fun middle held => ⟨middle, held, rfl⟩, rfl⟩
  exact (extends_setMsg cleared fun within => within).trans (extends_idle con _)

theorem extends_addGeneric (tid : UInt64) (frontLen : Nat) (memory : Bool) (clients : Clients) :
    Extends clients (clients.addGeneric tid frontLen memory) := by
  rw [addGeneric, cephMsgNew]
  split
  · next ran =>
    split at ran
    · cases ran
    · cases ran
      exact .refl _
  · next ran =>
    split at ran
    · cases ran
      have new := extends_new clients frontLen []
      refine { new with generic := ?_ }
      intro known req listed
      rcases List.mem_cons.mp listed with rfl | old
      · exact Nat.lt_succ_self _
      · exact new.generic known req old
    · cases ran

theorem extends_addRequest (tid : UInt64) (frontLen : Nat) (data : List Nat) (pages : Option Nat) (memory : Bool)
    (clients : Clients) : Extends clients (clients.addRequest tid frontLen data pages memory) := by
  rw [addRequest, cephMsgNew]
  split
  · next ran =>
    split at ran
    · cases ran
    · cases ran
      exact .refl _
  · next ran =>
    split at ran
    · cases ran
      have new := extends_new clients frontLen data
      refine { new with replies := ?_ }
      intro known req listed
      rcases List.mem_cons.mp listed with rfl | old
      · exact Nat.lt_succ_self _
      · exact new.replies known req old
    · cases ran

theorem Call.run_kept {call : Call} (kept : Kept clients) (fits : call.Fits clients) :
    (∃ after, call.run clients = .ok after ∧ Kept after) ∨ call.run clients = .error .notOurs := by
  cases call with
  | opened con =>
    refine .inl ⟨_, rfl, ?_⟩
    rw [open_]
    split
    · exact kept.extends (extends_opened con true clients)
    · exact kept
  | fault con =>
    rw [Call.run, conFault]
    split
    · next hdr msg phase =>
      by_cases ours : (clients.msgs msg).con = some con
      · rw [haltIf, if_neg (not_not_intro ours)]
        exact .inl ⟨_, rfl, kept.extends ((extends_done con msg clients).trans (extends_opened con false _))⟩
      · rw [haltIf, if_pos ours]
        exact .inr rfl
    · exact .inl ⟨_, rfl, kept.extends (extends_opened con false clients)⟩
  | header con hdr memory => exact .inl ⟨_, rfl, readHeader_kept kept con hdr memory⟩
  | alloc con memory => exact .inl ⟨_, rfl, inMsgAlloc_kept kept fits⟩
  | recv con got => exact .inl (recv_kept kept con got)
  | process con =>
    rw [Call.run, processMessage]
    split
    · next hdr msg phase =>
      split
      · by_cases ours : (clients.msgs msg).con = some con
        · rw [haltIf, if_neg (not_not_intro ours)]
          exact .inl ⟨_, rfl, kept.extends (extends_done con msg clients)⟩
        · rw [haltIf, if_pos ours]
          exact .inr rfl
      · exact .inl ⟨_, rfl, kept⟩
    · exact .inl ⟨_, rfl, kept⟩
  | revokeIncoming msg => exact .inl ⟨_, rfl, kept.extends (extends_revoke msg clients)⟩
  | addGeneric tid frontLen memory =>
    exact .inl ⟨_, rfl, kept.extends (extends_addGeneric tid frontLen memory clients)⟩
  | removeGeneric tid =>
    exact .inl ⟨_, rfl, { kept with generic := fun req listed => kept.generic req (mem_of_mem_filter listed) }⟩
  | addRequest tid frontLen data pages memory =>
    exact .inl ⟨_, rfl, kept.extends (extends_addRequest tid frontLen data pages memory clients)⟩
  | removeRequest tid =>
    exact .inl ⟨_, rfl, { kept with replies := fun req listed => kept.replies req (mem_of_mem_filter listed) }⟩

theorem init_kept (peers : ConId → Peer) : Kept (init peers) where
  reading := nofun
  allocating := nofun
  cursors _ := Nat.zero_le _
  generic := forall_mem_nil _
  replies := forall_mem_nil _
  prealloc := ⟨Nat.zero_lt_two, Nat.one_lt_two⟩

theorem Call.preserves_kept : Preserves Call.run Call.Fits Kept := by
  intro call before after fits kept ran
  rcases run_kept kept fits with ⟨made, isMade, madeKept⟩ | halted
  · rw [ran] at isMade
    cases isMade
    exact madeKept
  · rw [halted] at ran
    cases ran

/-- In runs in which what `alloc_msg` returns fits where it is not checked, every message that is read into has room for
its frame and no byte is stored outside; and where the next one does not fit, its frame has no room. -/
theorem frames_fit {peers : ConId → Peer} (reached : Reached Call.run Call.Fits (init peers) clients) :
    (∀ con hdr msg, (clients.cons con).phase = .reading hdr msg → (clients.msgs msg).Holds hdr) ∧
      (∀ call : Call, call.Fits clients → call.run clients ≠ .error .outOfBounds) ∧
      ∀ con memory, (Call.alloc con memory).Fits clients ↔
        ∀ hdr msg, ((clients.inMsgAlloc con memory).cons con).phase = .reading hdr msg →
          ((clients.inMsgAlloc con memory).msgs msg).Holds hdr := by
  have kept := reached.preserved Call.preserves_kept (init_kept peers)
  refine ⟨fun con hdr msg phase => (kept.reading con hdr msg phase).2, ?_, ?_⟩
  · intro call fits faults
    rcases Call.run_kept kept fits with ⟨after, ran, -⟩ | halted
    · rw [ran] at faults
      cases faults
    · rw [halted] at faults
      cases faults
  · intro con memory
    refine ⟨fun fits hdr msg phase => ?_, fits_of_holds kept⟩
    exact ((inMsgAlloc_kept kept fits).reading con hdr msg phase).2

end

def frameHeader (type : UInt16) (tid : UInt64) (frontLen middleLen : UInt32) : MsgHeader where
  seq := 1
  tid := tid
  type := type
  priority := 127
  version := 1
  frontLen := frontLen
  middleLen := middleLen
  dataLen := 0
  dataOff := 0
  src := ⟨1, 0⟩
  reserved := 0
  crc := 0

def mixedPeers (con : ConId) : Peer :=
  if con = 0 then .mon else if con = 1 then .osd else .mds

/-- A reply of an osd that is interrupted, and one that fits its middle. -/
theorem frames_fit_twice :
    ∃ clients, Reached Call.run Call.Fits (init mixedPeers) clients ∧
      (clients.cons 1).phase = .reading (frameHeader 43 7 8 4) 2 ∧
      (clients.msgs 2).Holds (frameHeader 43 7 8 4) := by
  have sent : Reached Call.run Call.Fits (init mixedPeers) _ :=
    ((Reached.start.next (.opened 1) trivial rfl).next (.addRequest 7 512 [] none true) trivial rfl).next
      (.header 1 (frameHeader 43 7 8 6) true) trivial rfl
  have begun := sent.next (.alloc 1 true) (by
    rintro hdr msg skip ⟨⟩ - - -
    exact ⟨fun generic => absurd generic (by decide), nofun⟩) rfl
  have resent := ((begun.next (.fault 1) trivial rfl).next (.opened 1) trivial rfl).next
    (.header 1 (frameHeader 43 7 8 4) true) trivial rfl
  have again := resent.next (.alloc 1 true) (by
    rintro hdr msg skip ⟨⟩ - - -
    refine ⟨fun generic => absurd generic (by decide), ?_⟩
    rintro middle ⟨⟩
    decide) rfl
  exact ⟨_, again, rfl, (frames_fit again).1 1 _ _ rfl⟩

/-- A reply of the monitors is longer than the message that waits for it, and a reply of an osd has a longer middle than
the interrupted one before it. -/
theorem frames_overflow :
    (∃ clients, Reached Call.run (fun _ _ => True) (init mixedPeers) clients ∧
      (clients.cons 0).phase = .reading (frameHeader 14 7 2000 0) 2 ∧ (clients.msgs 2).front.alloc = 1024 ∧
      (Call.recv 0 2000).run clients = .error .outOfBounds) ∧
    ∃ clients, Reached Call.run (fun _ _ => True) (init mixedPeers) clients ∧
      (clients.cons 1).phase = .reading (frameHeader 43 7 0 100) 2 ∧ (clients.msgs 2).middle = some ⟨6, 0⟩ ∧
      (Call.recv 1 100).run clients = .error .outOfBounds := by
  have reply : Reached Call.run (fun _ _ => True) (init mixedPeers) _ :=
    (((Reached.start.next (.opened 0) trivial rfl).next (.addGeneric 7 1024 true) trivial rfl).next
      (.header 0 (frameHeader 14 7 2000 0) true) trivial rfl).next (.alloc 0 true) trivial rfl
  have begun : Reached Call.run (fun _ _ => True) (init mixedPeers) _ :=
    (((Reached.start.next (.opened 1) trivial rfl).next (.addRequest 7 512 [] none true) trivial rfl).next
      (.header 1 (frameHeader 43 7 0 6) true) trivial rfl).next (.alloc 1 true) trivial rfl
  have again := (((begun.next (.fault 1) trivial rfl).next (.opened 1) trivial rfl).next
    (.header 1 (frameHeader 43 7 0 100) true) trivial rfl).next (.alloc 1 true) trivial rfl
  exact ⟨⟨_, reply, rfl, rfl, rfl⟩, ⟨_, again, rfl, rfl, rfl⟩⟩

end KmodCeph.Incoming
