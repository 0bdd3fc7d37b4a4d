import KmodCeph.Mon.Generic

namespace KmodCeph.Mon

open Lib Function List Monc Nat

def InMsg.target (msg : InMsg) : UInt64 := if msg.type = .getVersion then msg.handle else msg.tid

def Deed.Proper (msg : InMsg) (monc : Monc) : Deed → Prop
  | .stored tid at_ len => tid = msg.target ∧ at_ + len ≤ msg.iovLen ∧
      ∃ req, monc.requests tid = some req ∧ len ≤ req.kind.bufLen
  | .completed tid kind reply result => tid = msg.target ∧ reply = msg.type ∧
      (∃ req, monc.requests tid = some req ∧ req.kind = kind) ∧ (result = 0 → reply = kind.reply)

/-- A reply was answered: nothing but its own pending request was touched, the buffer of which has bytes of the reply in
front now and no more than fit, what was done is proper, and an error of a pool operation has completed it. -/
structure Answers (msg : InMsg) (before after : Monc) : Prop where
  others : ∀ other, other ≠ msg.target →
    after.bufs other = before.bufs other ∧ after.requests other = before.requests other
  absent : before.requests msg.target = none → after.bufs = before.bufs ∧ after.requests = before.requests
  buffer : ∀ req, before.requests msg.target = some req → ∃ at_ len, len ≤ req.kind.bufLen ∧
    at_ + len ≤ msg.own.length ∧ after.bufs msg.target = (msg.own.drop at_).take len ++ (before.bufs msg.target).drop len
  deeds : ∃ new, after.deeds = new ++ before.deeds ∧ (∀ deed ∈ new, deed.Proper msg before) ∧
    ∀ req, before.requests msg.target = some req → msg.type = .poolop → req.kind.reply = .poolop →
      poolopReplySize ≤ msg.iovLen → msg.replyCode ≠ 0 →
      .completed msg.target req.kind .poolop msg.replyCode ∈ new ∧
        after.requests msg.target = some ⟨req.kind, msg.replyCode, true⟩

/-- If a handler accepts a reply to a pending request, it is one that the request waits for, or one of a pool operation
with an error; of a version, all is there; and if it has an error, the handler accepts it. -/
def InMsg.Meets (msg : InMsg) (monc : Monc) : Prop :=
  match msg.type with
  | .statfs => msg.iovLen = statfsReplySize → ∀ req, monc.requests msg.tid = some req → req.kind = .statfs
  | .getVersion => 16 ≤ msg.front.length → (msg.tid = 0 ∨ msg.tid = msg.handle) →
      ∀ req, monc.requests msg.handle = some req → req.kind = .getVersion ∧ 16 ≤ msg.iovLen
  | .poolop => poolopReplySize ≤ msg.iovLen → ∀ req, monc.requests msg.tid = some req →
      if req.kind.reply = .poolop then
        msg.replyCode ≠ 0 → req.kind.bufLen = 0 ∨ poolopReplyBuf msg req.kind.bufLen = true
      else poolopReplyBuf msg req.kind.bufLen = true → msg.replyCode ≠ 0

def Call.Meets : Call → Monc → Prop
  | .receive type tid bytes _, monc => monc.inMsg = none → ¬ (type = .getVersion ∧ tid = 0) →
      ∀ req, monc.requests tid = some req → bytes.length ≤ (monc.fronts tid).length
  | .dispatch, monc => ∀ msg, monc.inMsg = some msg → msg.Meets monc
  | _, _ => True

def Call.Proper (call : Call) (monc : Monc) : Prop :=
  match call with
  | .dispatch => ∃ after, call.run monc = .ok after ∧ ∀ msg, monc.inMsg = some msg → Answers msg monc after
  | .receive type tid bytes _ => ∃ after, call.run monc = .ok after ∧
      after.bufs = monc.bufs ∧ after.requests = monc.requests ∧ after.deeds = monc.deeds ∧
      ∀ msg, monc.inMsg = none → after.inMsg = some msg → msg.type = type ∧ msg.tid = tid ∧ msg.own = bytes
  | _ => ∀ after, call.run monc = .ok after → after.deeds = monc.deeds ∧
      ∀ tid, monc.requests tid ≠ none → after.bufs tid = monc.bufs tid

structure Kept (monc : Monc) : Prop where
  bufs : ∀ tid req, monc.requests tid = some req → (monc.bufs tid).length = req.kind.bufLen
  inMsg : ∀ msg, monc.inMsg = some msg → msg.iovLen ≤ msg.front.length

section

variable {monc after : Monc} {msg : InMsg} {req : GenericRequest} {tid : UInt64} {at_ len : Nat}

theorem store_ok (msg : InMsg) (at_ : Nat) (room : len ≤ (monc.bufs tid).length) (some : 0 < len) :
    Monc.store tid msg at_ len { monc with inMsg := none } = .ok { monc with
      inMsg := none
      bufs := update monc.bufs tid ((msg.front.drop at_).take len ++ (monc.bufs tid).drop len)
      deeds := .stored tid at_ len :: monc.deeds } := by
  have buffer : monc.bufs tid ≠ [] := ne_nil_of_length_pos (some.trans_le room)
  rw [Monc.store, haltIf, if_neg buffer, haltIf, if_neg (not_lt.mpr room)]
  rfl

theorem room_of_store (ran : monc.store tid msg at_ len = .ok after) :
    monc.bufs tid ≠ [] ∧ len ≤ (monc.bufs tid).length := by
  rw [Monc.store] at ran
  obtain ⟨_, buffer, ran⟩ := ok_of_bind ran
  obtain ⟨_, room, -⟩ := ok_of_bind ran
  exact ⟨not_of_haltIf buffer, not_lt.mp (not_of_haltIf room)⟩

theorem own_slice (kept : msg.iovLen ≤ msg.front.length) (within : at_ + len ≤ msg.iovLen) :
    at_ + len ≤ msg.own.length ∧ (msg.front.drop at_).take len = (msg.own.drop at_).take len := by
  constructor
  · rw [InMsg.own, List.length_take, Nat.min_eq_left kept]
    exact within
  · rw [InMsg.own, drop_take, take_take, Nat.min_eq_left (by lia)]

theorem answers_nothing (monc : Monc) (rest : msg.type = .poolop → ∀ req, monc.requests msg.target = some req →
      req.kind.reply = .poolop → poolopReplySize ≤ msg.iovLen → msg.replyCode = 0) :
    Answers msg monc { monc with inMsg := none } where
  others _ _ := ⟨rfl, rfl⟩
  absent _ := ⟨rfl, rfl⟩
  buffer _ _ := ⟨0, 0, zero_le _, zero_le _, rfl⟩
  deeds := ⟨[], rfl, forall_mem_nil _, fun req pending poolop reply enough error =>
    absurd (rest poolop req pending reply enough) error⟩

theorem answers_complete {result : UInt32} (pending : monc.requests msg.target = some req)
    (own : result = 0 → msg.type = req.kind.reply) (code : msg.type = .poolop → result = msg.replyCode) :
    Answers msg monc ({ monc with inMsg := none }.complete msg.target req msg.type result) where
  others other differs := ⟨rfl, update_of_ne differs ..⟩
  absent nothing := by
    rw [pending] at nothing
    cases nothing
  buffer _ _ := ⟨0, 0, zero_le _, zero_le _, rfl⟩
  deeds := by
    refine ⟨[.completed msg.target req.kind msg.type result], rfl, ?_, ?_⟩
    · intro deed listed
      obtain rfl := List.mem_singleton.mp listed
      exact ⟨rfl, rfl, ⟨req, pending, rfl⟩, own⟩
    · intro other isOther poolop _ _ _
      rw [pending] at isOther
      cases isOther
      rw [← code poolop, poolop]
      exact ⟨mem_singleton_self _, update_self ..⟩

theorem answers_stored (at_ : Nat) (result : UInt32) (kept : msg.iovLen ≤ msg.front.length)
    (pending : monc.requests msg.target = some req) (room : len ≤ req.kind.bufLen) (within : at_ + len ≤ msg.iovLen)
    (own : result = 0 → msg.type = req.kind.reply) (code : msg.type = .poolop → result = msg.replyCode) :
    Answers msg monc (Monc.complete msg.target req msg.type result { monc with
      inMsg := none
      bufs := update monc.bufs msg.target
        ((msg.front.drop at_).take len ++ (monc.bufs msg.target).drop len)
      deeds := .stored msg.target at_ len :: monc.deeds }) where
  others other differs := ⟨update_of_ne differs .., update_of_ne differs ..⟩
  absent nothing := by
    rw [pending] at nothing
    cases nothing
  buffer other isOther := by
    rw [pending] at isOther
    cases isOther
    obtain ⟨inside, same⟩ := own_slice kept within
    refine ⟨at_, len, room, inside, ?_⟩
    rw [← same]
    exact update_self ..
  deeds := by
    refine ⟨[.completed msg.target req.kind msg.type result, .stored msg.target at_ len], rfl, ?_, ?_⟩
    · intro deed listed
      rcases List.mem_cons.mp listed with rfl | listed
      · exact ⟨rfl, rfl, ⟨req, pending, rfl⟩, own⟩
      · obtain rfl := List.mem_singleton.mp listed
        exact ⟨rfl, within, req, pending, room⟩
    · intro other isOther poolop _ _ _
      rw [pending] at isOther
      cases isOther
      rw [← code poolop, poolop]
      exact ⟨mem_cons_self .., update_self ..⟩

theorem kind_statfs {kind : RequestKind} (room : 32 ≤ kind.bufLen) : kind = .statfs := by
  cases kind <;> first | rfl | contradiction

theorem kind_deleteSnapid {kind : RequestKind} (nothing : kind.bufLen = 0) : kind = .deleteSnapid := by
  cases kind <;> first | rfl | contradiction

theorem kind_getVersion {kind : RequestKind} (mine : .getVersion = kind.reply) : kind = .getVersion := by
  cases kind <;> first | rfl | contradiction

theorem statfs_iff (kept : Kept monc) (held : monc.inMsg = some msg) (type : msg.type = .statfs) :
    msg.Meets monc ↔ ∃ after, monc.dispatch = .ok after ∧ Answers msg monc after := by
  have target : msg.target = msg.tid := by
    rw [InMsg.target, type, if_neg (by decide)]
  have meets : msg.Meets monc ↔
      (msg.iovLen = statfsReplySize → ∀ req, monc.requests msg.tid = some req → req.kind = .statfs) := by
    rw [InMsg.Meets, type]
  have runs : monc.dispatch = { monc with inMsg := none }.handleStatfsReply msg := by
    rw [Monc.dispatch, held]
    dsimp only
    rw [type]
  have nothing : Answers msg monc _ := answers_nothing monc fun poolop => by cases type.symm.trans poolop
  rw [meets, runs, handleStatfsReply]
  split
  · next short => exact ⟨fun _ => ⟨_, rfl, nothing⟩, fun _ long => absurd long short⟩
  · next long =>
    have whole := not_not.mp long
    cases pending : monc.requests msg.tid with
    | none => exact ⟨fun _ => ⟨_, rfl, nothing⟩, fun _ _ => nofun⟩
    | some req =>
      have length := kept.bufs msg.tid req pending
      constructor
      · intro meets
        have kind := meets whole req rfl
        rw [kind] at length
        have room : 32 ≤ (monc.bufs msg.tid).length := length.ge
        rw [store_ok msg 24 room (by decide)]
        refine ⟨_, rfl, ?_⟩
        have answers := answers_stored 24 0 (kept.inMsg msg held) (target ▸ pending)
          (by rw [kind]; decide : 32 ≤ req.kind.bufLen) (by rw [whole]; decide) (fun _ => by rw [type, kind]; rfl)
          (fun poolop => by cases type.symm.trans poolop)
        rw [target, type] at answers
        exact answers
      · rintro ⟨after, ran, -⟩ - _ ⟨⟩
        obtain ⟨_, stored, -⟩ := ok_of_bind ran
        obtain ⟨buffer, room⟩ := room_of_store stored
        change 32 ≤ (monc.bufs msg.tid).length at room
        rw [length] at room
        exact kind_statfs room

theorem handleGetVersionReply_ok (long : 16 ≤ msg.front.length) (own : msg.tid = 0 ∨ msg.tid = msg.handle)
    (pending : monc.requests msg.handle = some req) (room : 8 ≤ (monc.bufs msg.handle).length) :
    handleGetVersionReply msg { monc with inMsg := none } =
      .ok (Monc.complete msg.handle req .getVersion 0 { monc with
        inMsg := none
        bufs := update monc.bufs msg.handle
          ((msg.front.drop 8).take 8 ++ (monc.bufs msg.handle).drop 8)
        deeds := .stored msg.handle 8 8 :: monc.deeds }) := by
  have same : ¬ (msg.tid ≠ 0 ∧ msg.tid ≠ msg.handle) := by
    rintro ⟨some, differs⟩
    exact own.elim some differs
  rw [handleGetVersionReply, if_neg (not_lt.mpr long), if_neg same]
  rw [pending]
  rw [store_ok msg 8 room (by decide)]
  rfl

theorem getVersion_iff (kept : Kept monc) (held : monc.inMsg = some msg) (type : msg.type = .getVersion) :
    msg.Meets monc ↔ ∃ after, monc.dispatch = .ok after ∧ Answers msg monc after := by
  have target : msg.target = msg.handle := by
    rw [InMsg.target, if_pos type]
  have meets : msg.Meets monc ↔ (16 ≤ msg.front.length → (msg.tid = 0 ∨ msg.tid = msg.handle) →
      ∀ req, monc.requests msg.handle = some req → req.kind = .getVersion ∧ 16 ≤ msg.iovLen) := by
    rw [InMsg.Meets, type]
  have runs : monc.dispatch = { monc with inMsg := none }.handleGetVersionReply msg := by
    rw [Monc.dispatch, held]
    dsimp only
    rw [type]
  have nothing : Answers msg monc _ := answers_nothing monc fun poolop => by cases type.symm.trans poolop
  rw [meets, runs, handleGetVersionReply]
  split
  · next short => exact ⟨fun _ => ⟨_, rfl, nothing⟩, fun _ long => absurd short (not_lt.mpr long)⟩
  · next long =>
    split
    · next differs =>
      exact ⟨fun _ => ⟨_, rfl, nothing⟩, fun _ _ equal => absurd equal (not_or.mpr differs)⟩
    · next equal =>
      have own : msg.tid = 0 ∨ msg.tid = msg.handle := by
        by_cases zero : msg.tid = 0
        · exact .inl zero
        · exact .inr (not_not.mp fun differs => equal ⟨zero, differs⟩)
      cases pending : monc.requests msg.handle with
      | none => exact ⟨fun _ => ⟨_, rfl, nothing⟩, fun _ _ _ => nofun⟩
      | some req =>
        have length := kept.bufs msg.handle req pending
        constructor
        · intro meets
          obtain ⟨kind, whole⟩ := meets (not_lt.mp long) own req rfl
          rw [kind] at length
          have room : 8 ≤ (monc.bufs msg.handle).length := length.ge
          rw [store_ok msg 8 room (by decide)]
          refine ⟨_, rfl, ?_⟩
          have answers := answers_stored 8 0 (kept.inMsg msg held) (target ▸ pending)
            (by rw [kind]; decide : 8 ≤ req.kind.bufLen) whole (fun _ => by rw [type, kind]; rfl)
            (fun poolop => by cases type.symm.trans poolop)
          rw [target, type] at answers
          exact answers
        · rintro ⟨after, ran, answers⟩ - - _ ⟨⟩
          obtain ⟨stored, ranStore, made⟩ := ok_of_bind ran
          obtain ⟨buffer, room⟩ := room_of_store ranStore
          change 8 ≤ (monc.bufs msg.handle).length at room
          rw [store_ok msg 8 room (by decide)] at ranStore
          cases ranStore
          cases made
          obtain ⟨new, isNew, proper, -⟩ := answers.deeds
          have same : new ++ monc.deeds = [.completed msg.handle req.kind .getVersion 0, .stored msg.handle 8 8] ++
              monc.deeds := isNew.symm
          obtain rfl := append_cancel_right same
          obtain ⟨-, -, -, waits⟩ := proper (.completed msg.handle req.kind .getVersion 0) (mem_cons_self ..)
          obtain ⟨-, inside, -⟩ :=
            proper (.stored msg.handle 8 8) (mem_cons_of_mem _ (mem_singleton_self _))
          refine ⟨?_, inside⟩
          have mine := waits rfl
          exact kind_getVersion mine

theorem poolop_iff (kept : Kept monc) (held : monc.inMsg = some msg) (type : msg.type = .poolop) :
    msg.Meets monc ↔ ∃ after, monc.dispatch = .ok after ∧ Answers msg monc after := by
  have target : msg.target = msg.tid := by
    rw [InMsg.target, type, if_neg (by decide)]
  have meets : msg.Meets monc ↔ (poolopReplySize ≤ msg.iovLen → ∀ req, monc.requests msg.tid = some req →
      if req.kind.reply = .poolop then
        msg.replyCode ≠ 0 → req.kind.bufLen = 0 ∨ poolopReplyBuf msg req.kind.bufLen = true
      else poolopReplyBuf msg req.kind.bufLen = true → msg.replyCode ≠ 0) := by
    rw [InMsg.Meets, type]
  have runs : monc.dispatch = { monc with inMsg := none }.handlePoolopReply msg := by
    rw [Monc.dispatch, held]
    dsimp only
    rw [type]
  rw [meets, runs, handlePoolopReply]
  split
  · next short =>
    refine ⟨fun _ => ⟨_, rfl, answers_nothing monc fun _ _ _ _ long => ?_⟩, fun _ long => ?_⟩
    · exact absurd short (not_lt.mpr long)
    · exact absurd short (not_lt.mpr long)
  · next long =>
    have enough := not_lt.mp long
    cases pending : monc.requests msg.tid with
    | none =>
      refine ⟨fun _ => ⟨_, rfl, answers_nothing monc fun _ req isReq => ?_⟩, fun _ _ => nofun⟩
      rw [target, pending] at isReq
      cases isReq
    | some req =>
      have isPending : monc.requests msg.target = some req := target ▸ pending
      dsimp only
      by_cases nothing : req.kind.bufLen = 0
      · have kind := kind_deleteSnapid nothing
        rw [if_pos nothing]
        constructor
        · intro _
          refine ⟨_, rfl, ?_⟩
          have answers := answers_complete isPending (fun _ => by rw [type, kind]; rfl) (fun _ => rfl)
          rw [target, type] at answers
          exact answers
        · rintro - - _ ⟨⟩
          rw [if_pos (by rw [kind]; rfl)]
          exact fun _ => .inl nothing
      · rw [if_neg nothing]
        by_cases accepted : poolopReplyBuf msg req.kind.bufLen = true
        · have within : 47 + req.kind.bufLen ≤ msg.iovLen := by
            unfold poolopReplyBuf at accepted
            unfold poolopReplySize at accepted enough
            lia
          have room : req.kind.bufLen ≤ (monc.bufs msg.tid).length := (kept.bufs msg.tid req pending).ge
          rw [if_pos accepted, store_ok msg 47 room (Nat.pos_of_ne_zero nothing)]
          constructor
          · intro meets
            have own := meets enough req rfl
            have waits : msg.replyCode = 0 → msg.type = req.kind.reply := by
              intro zero
              rw [type]
              by_contra other
              rw [if_neg (Ne.symm other)] at own
              exact own accepted zero
            refine ⟨_, rfl, ?_⟩
            have answers :=
              answers_stored 47 msg.replyCode (kept.inMsg msg held) isPending le_rfl within waits fun _ => rfl
            rw [target, type] at answers
            exact answers
          · rintro ⟨after, ran, answers⟩ - _ ⟨⟩
            cases ran
            split
            · exact fun _ => .inr accepted
            · next other =>
              intro _ zero
              obtain ⟨new, isNew, proper, -⟩ := answers.deeds
              have same : new ++ monc.deeds = [.completed msg.tid req.kind .poolop msg.replyCode,
                  .stored msg.tid 47 req.kind.bufLen] ++ monc.deeds := isNew.symm
              obtain rfl := append_cancel_right same
              obtain ⟨-, -, -, waits⟩ :=
                proper (.completed msg.tid req.kind .poolop msg.replyCode) (mem_cons_self ..)
              exact other (waits zero).symm
        · rw [if_neg accepted]
          constructor
          · intro meets
            refine ⟨_, rfl, answers_nothing monc fun _ other isOther poolop _ => ?_⟩
            rw [isPending] at isOther
            cases isOther
            have own := meets enough req rfl
            rw [if_pos poolop] at own
            by_contra error
            exact (own error).elim nothing accepted
          · rintro ⟨after, ran, answers⟩ - _ ⟨⟩
            cases ran
            split
            · next poolop =>
              intro error
              obtain ⟨new, isNew, -, code⟩ := answers.deeds
              have same : new ++ monc.deeds = [] ++ monc.deeds := isNew.symm
              obtain rfl := append_cancel_right same
              obtain ⟨listed, -⟩ := code req isPending type poolop enough error
              cases listed
            · exact fun holds => absurd holds accepted

theorem dispatch_iff (kept : Kept monc) : Call.dispatch.Meets monc ↔ Call.dispatch.Proper monc := by
  change (∀ msg, monc.inMsg = some msg → msg.Meets monc) ↔
    ∃ after, monc.dispatch = .ok after ∧ ∀ msg, monc.inMsg = some msg → Answers msg monc after
  cases held : monc.inMsg with
  | none =>
    refine ⟨fun _ => ⟨monc, ?_, nofun⟩, fun _ => nofun⟩
    rw [Monc.dispatch, held]
  | some msg =>
    have iff : msg.Meets monc ↔ ∃ after, monc.dispatch = .ok after ∧ Answers msg monc after := by
      cases type : msg.type with
      | statfs => exact statfs_iff kept held type
      | poolop => exact poolop_iff kept held type
      | getVersion => exact getVersion_iff kept held type
    constructor
    · intro meets
      obtain ⟨after, ran, answers⟩ := iff.mp (meets msg rfl)
      refine ⟨after, ran, ?_⟩
      rintro _ ⟨⟩
      exact answers
    · rintro ⟨after, ran, answers⟩ _ ⟨⟩
      exact iff.mpr ⟨after, ran, answers msg rfl⟩

variable {type : ReplyKind} {bytes : List UInt8} {whole interrupted : Bool} {kind : RequestKind}
variable {front : Fin replyFrontLen → UInt8} {buf : Fin kind.bufLen → UInt8}

theorem receive_ok (idle : monc.inMsg = none)
    (known : ¬ (type = .getVersion ∧ tid = 0)) (pending : monc.requests tid = some req)
    (fits : bytes.length ≤ (monc.fronts tid).length) (whole : Bool) :
    monc.receive type tid bytes whole = .ok { monc with
      fronts := update monc.fronts tid (bytes ++ (monc.fronts tid).drop bytes.length)
      inMsg := if whole then some ⟨type, tid, bytes ++ (monc.fronts tid).drop bytes.length, bytes.length⟩
        else none } := by
  rw [Monc.receive, idle, if_neg (by decide), if_neg known, pending]
  rw [haltIf, if_neg (not_lt.mpr fits)]
  rfl

theorem receive_iff :
    (Call.receive type tid bytes whole).Meets monc ↔ (Call.receive type tid bytes whole).Proper monc := by
  change _ ↔ ∃ after, monc.receive type tid bytes whole = .ok after ∧ _
  rw [Call.Meets, Monc.receive]
  cases held : monc.inMsg with
  | some msg => exact ⟨fun _ => ⟨monc, rfl, rfl, rfl, rfl, nofun⟩, fun _ => nofun⟩
  | none =>
    rw [if_neg (by decide)]
    split
    · next fresh =>
      refine ⟨fun _ => ⟨_, rfl, rfl, rfl, rfl, ?_⟩, fun _ _ other => absurd fresh other⟩
      intro msg _ made
      cases whole with
      | false => cases made
      | true =>
        cases made
        exact ⟨rfl, rfl, take_length⟩
    · next known =>
      cases pending : monc.requests tid with
      | none =>
        refine ⟨fun _ => ⟨_, rfl, rfl, rfl, rfl, ?_⟩, fun _ _ _ => nofun⟩
        intro msg _ made
        cases held.symm.trans made
      | some req =>
        constructor
        · intro meets
          have ran := receive_ok held known pending (meets rfl known req rfl) whole
          rw [Monc.receive, held, if_neg (by decide), if_neg known, pending] at ran
          refine ⟨_, ran, rfl, rfl, rfl, ?_⟩
          intro msg _ made
          cases whole with
          | false => cases made
          | true =>
            cases made
            exact ⟨rfl, rfl, take_left' rfl⟩
        · rintro ⟨after, ran, -⟩ - - - -
          obtain ⟨_, fits, -⟩ := ok_of_bind ran
          exact not_lt.mp (not_of_haltIf fits)

theorem kept_complete (kept : Kept monc) (pending : monc.requests tid = some req) (reply : ReplyKind)
    (result : UInt32) : Kept (Monc.complete tid req reply result { monc with inMsg := none }) where
  bufs other later isLater := by
    change update monc.requests tid _ other = _ at isLater
    by_cases same : other = tid
    · subst same
      rw [update_self] at isLater
      cases isLater
      exact kept.bufs other req pending
    · rw [update_of_ne same] at isLater
      exact kept.bufs other later isLater
  inMsg := nofun

theorem kept_stored (kept : Kept monc) (room : len ≤ (monc.bufs tid).length) (inside : at_ + len ≤ msg.front.length)
    (deeds : List Deed) : Kept { monc with
      inMsg := none
      bufs := update monc.bufs tid ((msg.front.drop at_).take len ++ (monc.bufs tid).drop len)
      deeds := deeds } where
  bufs other req pending := by
    have length := kept.bufs other req pending
    change (update monc.bufs tid _ other).length = _
    by_cases same : other = tid
    · subst same
      rw [update_self, length_append, List.length_take, length_drop, length_drop]
      lia
    · rw [update_of_ne same]
      exact length
  inMsg := nofun

theorem emptied_kept (kept : Kept monc) : Kept { monc with inMsg := none } where
  bufs := kept.bufs
  inMsg := nofun

theorem dispatch_kept (kept : Kept monc) (ran : monc.dispatch = .ok after) : Kept after := by
  rw [Monc.dispatch] at ran
  cases held : monc.inMsg with
  | none =>
    rw [held] at ran
    cases ran
    exact kept
  | some msg =>
    rw [held] at ran
    dsimp only at ran
    have within := kept.inMsg msg held
    have stores {at_ len : Nat} {kind : ReplyKind} {result : UInt32} {tid : UInt64} {req : GenericRequest}
        (some : 0 < len) (inside : at_ + len ≤ msg.front.length) (pending : monc.requests tid = .some req)
        (ran : (do
          let monc ← Monc.store tid msg at_ len { monc with inMsg := none }
          return monc.complete tid req kind result) = .ok after) : Kept after := by
      obtain ⟨_, ranStore, made⟩ := ok_of_bind ran
      have room := (room_of_store ranStore).2
      rw [store_ok msg at_ room some] at ranStore
      cases ranStore
      cases made
      exact kept_complete (kept_stored kept room inside _) pending kind result
    cases type : msg.type with
    | statfs =>
      rw [type] at ran
      dsimp only at ran
      rw [handleStatfsReply] at ran
      split at ran
      · cases ran
        exact emptied_kept kept
      · next whole =>
        split at ran
        · cases ran
          exact emptied_kept kept
        · next req pending =>
          unfold statfsReplySize at whole
          exact stores (by decide) (by omega) pending ran
    | poolop =>
      rw [type] at ran
      dsimp only at ran
      rw [handlePoolopReply] at ran
      split at ran
      · cases ran
        exact emptied_kept kept
      · next enough =>
        split at ran
        · cases ran
          exact emptied_kept kept
        · next req pending =>
          split at ran
          · cases ran
            exact kept_complete kept pending _ _
          · next some =>
            split at ran
            · next accepted =>
              unfold poolopReplyBuf at accepted
              unfold poolopReplySize at accepted enough
              exact stores (Nat.pos_of_ne_zero some) (by lia) pending ran
            · cases ran
              exact emptied_kept kept
    | getVersion =>
      rw [type] at ran
      dsimp only at ran
      rw [handleGetVersionReply] at ran
      split at ran
      · cases ran
        exact emptied_kept kept
      · next long =>
        split at ran
        · cases ran
          exact emptied_kept kept
        · split at ran
          · cases ran
            exact emptied_kept kept
          · next req pending => exact stores (by decide) (by omega) pending ran

theorem receive_kept (kept : Kept monc) (ran : monc.receive type tid bytes whole = .ok after) : Kept after := by
  rw [Monc.receive] at ran
  split at ran
  · cases ran
    exact kept
  · split at ran
    · cases ran
      refine ⟨kept.bufs, ?_⟩
      intro msg made
      cases whole with
      | false => cases made
      | true =>
        cases made
        exact le_rfl
    · split at ran
      · cases ran
        exact kept
      · obtain ⟨_, -, made⟩ := ok_of_bind ran
        cases made
        refine ⟨kept.bufs, ?_⟩
        intro msg made
        cases whole with
        | false => cases made
        | true =>
          cases made
          rw [length_append]
          exact le_add_right _ _

theorem submit_kept (kept : Kept monc) (ran : monc.submit kind buf front = .ok after) : Kept after := by
  rw [Monc.submit] at ran
  split at ran
  · cases ran
  · cases ran
    refine ⟨?_, kept.inMsg⟩
    intro other req pending
    dsimp only at pending ⊢
    by_cases same : other = monc.nextTid kind
    · subst same
      rw [update_self] at pending ⊢
      cases pending
      exact length_ofFn
    · rw [update_of_ne same] at pending ⊢
      exact kept.bufs other req pending

theorem return_kept (kept : Kept monc) : Kept (monc.return_ tid interrupted) := by
  rw [Monc.return_]
  split
  · exact kept
  · split
    · refine ⟨?_, kept.inMsg⟩
      intro other req pending
      dsimp only at pending
      by_cases same : other = tid
      · subst same
        rw [update_self] at pending
        cases pending
      · rw [update_of_ne same] at pending
        exact kept.bufs other req pending
    · exact kept

theorem Call.preserves_kept : Preserves Call.run (fun _ _ => True) Kept := by
  intro call before after _ kept ran
  cases call with
  | submit kind buf front => exact submit_kept kept ran
  | receive type tid bytes whole => exact receive_kept kept ran
  | dispatch => exact dispatch_kept kept ran
  | return_ tid interrupted =>
    cases ran
    exact return_kept kept

theorem submit_proper : (Call.submit kind buf front).Proper monc := by
  intro after ran
  change monc.submit kind buf front = .ok after at ran
  rw [Monc.submit] at ran
  split at ran
  · cases ran
  · next new =>
    cases ran
    refine ⟨rfl, fun tid pending => update_of_ne ?_ ..⟩
    rintro rfl
    exact pending new

theorem return_proper : (Call.return_ tid interrupted).Proper monc := by
  intro after ran
  cases ran
  rw [Monc.return_]
  split
  · exact ⟨rfl, fun _ _ => rfl⟩
  · split
    · exact ⟨rfl, fun _ _ => rfl⟩
    · exact ⟨rfl, fun _ _ => rfl⟩

theorem init_kept : Kept Monc.init where
  bufs _ _ pending := by cases pending
  inMsg _ held := by cases held

/-- In all runs a call is as it is to be if and only if its frame fits and its reply meets the request. -/
theorem replies_answered (reached : Reached Call.run (fun _ _ => True) Monc.init monc) (call : Call) :
    call.Meets monc ↔ call.Proper monc := by
  have kept := reached.preserved Call.preserves_kept init_kept
  cases call with
  | submit kind buf front => exact ⟨fun _ => submit_proper, fun _ => trivial⟩
  | receive type tid bytes whole => exact receive_iff
  | dispatch => exact dispatch_iff kept
  | return_ tid interrupted => exact ⟨fun _ => return_proper, fun _ => trivial⟩

end

def versionReply (handle version : UInt64) : List UInt8 := leBytes 8 handle.toNat ++ leBytes 8 version.toNat

/-- A version is asked for, and answered without a tid. -/
theorem replies_answered_version : ∃ monc, Reached Call.run (fun _ _ => True) Monc.init monc ∧
    (Call.dispatch.Meets monc ↔ Call.dispatch.Proper monc) ∧ Call.dispatch.Meets monc := by
  have sent : Reached Call.run (fun _ _ => True) Monc.init _ :=
    Reached.start.next (.submit .getVersion (fun _ => 0) fun _ => 0) trivial rfl
  have read := sent.next (.receive .getVersion 0 (versionReply 1 42) true) trivial rfl
  refine ⟨_, read, replies_answered read .dispatch, ?_⟩
  rintro msg ⟨⟩ - - req ⟨⟩
  exact ⟨rfl, by decide⟩

def requested (kind : RequestKind) (front : Fin replyFrontLen → UInt8) : Monc where
  lastTid := 1
  requests := Function.update (fun _ => none) 1 (some ⟨kind, 0, false⟩)
  bufs := Function.update (fun _ => []) 1 (ofFn fun _ : Fin kind.bufLen => 0)
  fronts := Function.update (fun _ => []) 1 (ofFn front)
  inMsg := none
  deeds := []

def replied (kind : RequestKind) (front : Fin replyFrontLen → UInt8) (type : ReplyKind) (bytes : List UInt8)
    (whole : Bool) : Monc :=
  { requested kind front with
    fronts := Function.update (requested kind front).fronts 1
      (bytes ++ ((requested kind front).fronts 1).drop bytes.length)
    inMsg := if whole then
        some ⟨type, 1, bytes ++ ((requested kind front).fronts 1).drop bytes.length, bytes.length⟩
      else none }

theorem requested_front (kind : RequestKind) (front : Fin replyFrontLen → UInt8) :
    (requested kind front).fronts 1 = ofFn front := by
  unfold requested
  dsimp only
  rw [update_self]

theorem replied_reached (kind : RequestKind) (front : Fin replyFrontLen → UInt8) (type : ReplyKind) {bytes : List UInt8}
    (fits : bytes.length ≤ replyFrontLen) (whole : Bool) :
    Reached Call.run (fun _ _ => True) Monc.init (replied kind front type bytes whole) := by
  have first : Monc.init.nextTid kind = 1 := by
    cases kind <;> rfl
  have sent : Reached Call.run (fun _ _ => True) Monc.init (requested kind front) := by
    refine Reached.start.next (.submit kind (fun _ => 0) front) trivial ?_
    change Monc.init.submit kind (fun _ => 0) front = _
    rw [Monc.submit, first]
    rfl
  have room : bytes.length ≤ ((requested kind front).fronts 1).length := by
    rw [requested_front, length_ofFn]
    exact fits
  have known : ¬ (type = .getVersion ∧ (1 : UInt64) = 0) := fun both => absurd both.2 (by decide)
  have pending : (requested kind front).requests 1 = some ⟨kind, 0, false⟩ := rfl
  have ran := receive_ok rfl known pending room whole
  exact sent.next (.receive type 1 bytes whole) trivial ran

def staleReply (rest : List UInt8) : InMsg := ⟨.getVersion, 1, versionReply 1 42 ++ rest, 0⟩

theorem staleReply_answered {monc : Monc} {rest : List UInt8}
    (reached : Reached Call.run (fun _ _ => True) Monc.init monc) (held : monc.inMsg = some (staleReply rest))
    (pending : monc.requests 1 = some ⟨.getVersion, 0, false⟩) (buffer : monc.bufs 1 = [0, 0, 0, 0, 0, 0, 0, 0]) :
    ∃ monc after, Reached Call.run (fun _ _ => True) Monc.init monc ∧ monc.inMsg.map InMsg.own = some [] ∧
      monc.dispatch = .ok after ∧ after.bufs 1 = leBytes 8 42 ∧ after.requests 1 = some ⟨.getVersion, 0, true⟩ := by
  have bytes : (staleReply rest).front.take 8 = leBytes 8 (1 : UInt64).toNat := by
    change (versionReply 1 42 ++ rest).take 8 = _
    rw [versionReply, append_assoc, take_left' (length_leBytes ..)]
  have handle : (staleReply rest).handle = 1 := by
    rw [InMsg.handle, bytes]
    decide
  have long : 16 ≤ (staleReply rest).front.length := by
    change 16 ≤ (versionReply 1 42 ++ rest).length
    rw [length_append, versionReply, length_append, length_leBytes, length_leBytes]
    omega
  have room : 8 ≤ (monc.bufs (staleReply rest).handle).length := by
    rw [handle, buffer]
    exact le_rfl
  have runs := handleGetVersionReply_ok long (.inr handle.symm) (handle ▸ pending) room
  rw [handle] at runs
  have dispatches : monc.dispatch = handleGetVersionReply (staleReply rest) { monc with inMsg := none } := by
    rw [Monc.dispatch, held]
    rfl
  have own : monc.inMsg.map InMsg.own = some [] := by
    rw [held]
    rfl
  have ran := dispatches.trans runs
  generalize made : Monc.complete 1 _ _ _ _ = after at ran
  refine ⟨monc, after, reached, own, ran, ?_, ?_⟩
  · rw [← made, Monc.complete]
    dsimp only
    rw [update_self, buffer]
    rfl
  · rw [← made, Monc.complete]
    dsimp only
    rw [update_self]

theorem version_stale (front : Fin replyFrontLen → UInt8) :
    ∃ monc after, Reached Call.run (fun _ _ => True) Monc.init monc ∧ monc.inMsg.map InMsg.own = some [] ∧
      monc.dispatch = .ok after ∧ after.bufs 1 = leBytes 8 42 ∧ after.requests 1 = some ⟨.getVersion, 0, true⟩ := by
  have begun : Reached Call.run (fun _ _ => True) Monc.init _ :=
    replied_reached .getVersion front .getVersion (by decide : (versionReply 1 42).length ≤ replyFrontLen) false
  have isFront : (replied .getVersion front .getVersion (versionReply 1 42) false).fronts 1 =
      versionReply 1 42 ++ ((requested .getVersion front).fronts 1).drop (versionReply 1 42).length := by
    unfold replied
    dsimp only
    rw [update_self]
  have stale := begun.next (.receive .getVersion 1 [] true) trivial
    (receive_ok rfl (by decide) rfl (zero_le _) true)
  rw [length_nil, drop_zero, nil_append, isFront] at stale
  exact staleReply_answered stale rfl rfl rfl

def poolopReply (code : UInt32) (rest : List UInt8) : List UInt8 :=
  replicate 34 0 ++ leBytes 4 code.toNat ++ replicate 5 0 ++ rest

def noFront : Fin replyFrontLen → UInt8 := fun _ => 0

/-- A reply of `statfs` for a request that creates a snapshot id is stored beyond its buffer; a reply without a version
gives that of an interrupted one; an error of a pool operation without an id does not complete its request; and a reply
of a pool operation completes `statfs`. -/
theorem replies_confused :
    (Reached Call.run (fun _ _ => True) Monc.init (replied .createSnapid noFront .statfs (replicate 56 1) true) ∧
      (replied .createSnapid noFront .statfs (replicate 56 1) true).dispatch = .error .overrun) ∧
    (∃ monc after, Reached Call.run (fun _ _ => True) Monc.init monc ∧ monc.inMsg.map InMsg.own = some [] ∧
      monc.dispatch = .ok after ∧ after.bufs 1 = leBytes 8 42 ∧ after.requests 1 = some ⟨.getVersion, 0, true⟩) ∧
    (Reached Call.run (fun _ _ => True) Monc.init (replied .createSnapid noFront .poolop (poolopReply 5 []) true) ∧
      (replied .createSnapid noFront .poolop (poolopReply 5 []) true).dispatch.map (fun after => after.requests 1) =
        .ok (some ⟨.createSnapid, 0, false⟩)) ∧
    (Reached Call.run (fun _ _ => True) Monc.init
        (replied .statfs noFront .poolop (poolopReply 0 (leBytes 4 32 ++ replicate 32 1)) true) ∧
      (replied .statfs noFront .poolop (poolopReply 0 (leBytes 4 32 ++ replicate 32 1)) true).dispatch.map
        (fun after => after.requests 1) = .ok (some ⟨.statfs, 0, true⟩)) :=
  ⟨⟨replied_reached .createSnapid noFront .statfs (by decide) true, rfl⟩, version_stale noFront,
    ⟨replied_reached .createSnapid noFront .poolop (by decide) true, rfl⟩,
    ⟨replied_reached .statfs noFront .poolop (by decide) true, rfl⟩⟩

end KmodCeph.Mon
