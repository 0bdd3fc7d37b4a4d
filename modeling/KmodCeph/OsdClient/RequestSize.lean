import KmodCeph.OsdClient.RequestMessage

namespace KmodCeph.OsdClient

open Lib List

section

variable {r : RequestContent} {fields : RequestFields}

theorem encodeMtime_lays : Lays (encodeMtime r) (fun _ => ⟨⟩) (mtimeBytes r) := by
  unfold encodeMtime mtimeBytes
  split
  next => exact .encode _
  next =>
    have lays := @Lays.bind _ _ _ (fun _ => pure PUnit.unit) _ (fun _ _ => PUnit.unit) _ _ (.reserve 8) fun _ => .pure _
    rw [List.append_nil] at lays
    exact lays

theorem attempts_offset :
    requestLength r - 4 = 97 + (r.baseOid.length + (r.ops.length * sizeofCephOsdOp + 8 * r.snaps.length)) := by
  unfold requestLength
  lia

theorem encodeRequest_lays : Lays (encodeRequest r) (fun pos =>
    { osdmapEpoch := { offset := pos + 4, width := 4 }
      flags := { offset := pos + 8, width := 4 }
      reassertVersion := { offset := pos + 20, width := 12 }
      pool := { offset := pos + 38, width := 8 }
      pgid := { offset := pos + 55, width := 12 }
      attempts := { offset := pos + (requestLength r - 4), width := 4 } }) (requestBytes r .cleared) := by
  refine Lays.cast (.bind (.encode _) fun _ => .bind (.reserve 4) fun _ => .bind (.reserve 4) fun _ =>
    .bind encodeMtime_lays fun _ => .bind (.reserve 12) fun _ => .bind (.encode _) fun _ => .bind (.encode _) fun _ =>
    .bind (.encode _) fun _ => .bind (.reserve 8) fun _ => .bind (.encode _) fun _ => .bind (.encode _) fun _ =>
    .bind (.encode _) fun _ => .bind (.reserve 12) fun _ => .bind (.encode _) fun _ => .bind (.encode _) fun _ =>
    .bind (.encode _) fun _ => .bind (.encode _) fun _ => .bind (.each _) fun _ => .bind (.encode _) fun _ =>
    .bind (.encode _) fun _ => .bind (.encode _) fun _ => .bind (.each _) fun _ => .bind (.reserve 4) fun _ =>
    .pure _) ?_
  intro pos
  simp only [le32, le64, le16, length_leBytes, Exactly.length, length_mtimeBytes, length_ops, length_snaps,
    length_cons, length_nil, Nat.add_assoc, attempts_offset, RequestSlots.mk.injEq, Slot.mk.injEq, true_and,
    and_true]
  lia

def Laid (front : Nat) (r : RequestContent) (msg : RequestMessage) : Prop :=
  ∃ fields behind, requestLength r + behind.length = front ∧
    msg = { bytes := requestBytes r fields ++ behind, iovLen := requestLength r, slots := requestSlots r }

variable {front : Nat} {msg : RequestMessage}

theorem buildRequest_of {slots : RequestSlots} {state : Writing}
    (encoded : encodeRequest r { bytes := zeros front, pos := 0 } = .ok (slots, state)) :
    buildRequest front r = if state.pos > state.bytes.length then .error .bug
      else .ok { bytes := state.bytes, iovLen := state.pos, slots } := by
  unfold buildRequest
  rw [encoded]
  rfl

theorem buildRequest_fits (fits : requestLength r ≤ front) :
    buildRequest front r = .ok
      { bytes := requestBytes r .cleared ++ zeros (front - requestLength r)
        iovLen := requestLength r
        slots := requestSlots r } := by
  have length : (requestBytes r .cleared).length = requestLength r := length_requestBytes
  have start : Writing.ahead [] front = { bytes := zeros front, pos := 0 } := rfl
  have ran := encodeRequest_lays.fits [] front (length.symm ▸ fits)
  rw [start, length, nil_append, length_nil] at ran
  simp only [Nat.zero_add] at ran
  rw [buildRequest_of ran, Writing.ahead, if_neg (by rw [length_append]; exact Nat.not_lt.2 (Nat.le_add_right _ _)),
    length]
  rfl

theorem buildRequest_long (long : front < requestLength r) : ∃ overrun, buildRequest front r = .error overrun := by
  cases ran : encodeRequest r { bytes := zeros front, pos := 0 } with
  | error overrun =>
    refine ⟨overrun, ?_⟩
    unfold buildRequest
    rw [ran]
    rfl
  | ok pair =>
    obtain ⟨slots, state⟩ := pair
    obtain ⟨place, size, -⟩ := encodeRequest_lays.advances _ _ _ ran
    have length : (requestBytes r .cleared).length = requestLength r := length_requestBytes
    have held : state.bytes.length = front := size.trans (length_replicate ..)
    refine ⟨.bug, (buildRequest_of ran).trans (if_pos ?_)⟩
    rw [place, held, length, Nat.zero_add]
    exact long

theorem buildRequest_laid (built : buildRequest front r = .ok msg) : requestLength r ≤ front ∧ Laid front r msg := by
  cases Nat.lt_or_ge front (requestLength r) with
  | inl long =>
    obtain ⟨overrun, failed⟩ := buildRequest_long long
    rw [failed] at built
    cases built
  | inr fits =>
    rw [buildRequest_fits fits] at built
    cases built
    refine ⟨fits, .cleared, zeros (front - requestLength r), ?_, rfl⟩
    rw [zeros, length_replicate, Nat.add_sub_cancel' fits]

theorem store_field {fields next : RequestFields} {behind values : List UInt8} {slot : Slot} (index : Nat)
    (place : slot = pieceSlot (requestPieces r fields) index) (within : index < 23) (same : slot.width = values.length)
    (changed : (requestPieces r fields).set index values = requestPieces r next) :
    store (requestBytes r fields ++ behind) slot.offset values = .ok (requestBytes r next ++ behind) := by
  subst place
  unfold requestBytes
  rw [store_piece within same, changed]

theorem store_attempts {fields : RequestFields} {behind : List UInt8} :
    store (requestBytes r fields ++ behind) (requestSlots r).attempts.offset (le64 1) =
      if 4 ≤ behind.length then
        .ok (requestBytes r { fields with attempts := ⟨le32 1, length_leBytes ..⟩ } ++ (zeros 4 ++ behind.drop 4))
      else .error .outside := by
  have width : (pieceSlot (requestPieces r fields) 22).width = 4 := fields.attempts.property
  have double : (le64 1).length = 8 := length_leBytes ..
  have slot : (requestSlots r).attempts = pieceSlot (requestPieces r fields) 22 :=
    congrArg RequestSlots.attempts requestSlots_pieces
  have written := @store_last (requestPieces r fields) 22 (le64 1) behind rfl (by rw [width, double]; decide)
  rw [slot, requestBytes, written, width, double]
  refine if_congr Iff.rfl (congrArg Except.ok ?_) rfl
  have first : requestBytes r { fields with attempts := ⟨le32 1, length_leBytes ..⟩ }
      = ((requestPieces r fields).take 22).flatten ++ (le32 1 ++ []) :=
    @flatten_around _ 22 (requestPieces r _) (Nat.lt_succ_self 22)
  have halves : le64 1 = le32 1 ++ zeros 4 := by decide
  rw [first, halves, List.append_nil, append_assoc, append_assoc]

theorem sendRequestMessage_laid {fields : RequestFields} {behind : List UInt8} (u : Resend) :
    sendRequestMessage { bytes := requestBytes r fields ++ behind, iovLen := requestLength r, slots := requestSlots r } u =
      if 4 ≤ behind.length then .ok
        { bytes := requestBytes r u.fields ++ (zeros 4 ++ behind.drop 4)
          iovLen := requestLength r
          slots := requestSlots r }
      else .error .outside := by
  let first : RequestFields := { fields with osdmapEpoch := u.fields.osdmapEpoch }
  let second : RequestFields := { first with flags := u.fields.flags }
  let third : RequestFields := { second with pool := u.fields.pool }
  let fourth : RequestFields := { third with pgid := u.fields.pgid }
  let fifth : RequestFields := { fourth with attempts := u.fields.attempts }
  have epoch : store (requestBytes r fields ++ behind) (requestSlots r).osdmapEpoch.offset (le32 u.osdmapEpoch)
      = .ok (requestBytes r first ++ behind) :=
    store_field 1 (congrArg RequestSlots.osdmapEpoch requestSlots_pieces) (by decide) rfl rfl
  have flags : store (requestBytes r first ++ behind) (requestSlots r).flags.offset (le32 u.flags)
      = .ok (requestBytes r second ++ behind) :=
    store_field 2 (congrArg RequestSlots.flags requestSlots_pieces) (by decide) rfl rfl
  have pool : store (requestBytes r second ++ behind) (requestSlots r).pool.offset (le64 u.pool)
      = .ok (requestBytes r third ++ behind) :=
    store_field 8 (congrArg RequestSlots.pool requestSlots_pieces) (by decide) rfl rfl
  have pgid : store (requestBytes r third ++ behind) (requestSlots r).pgid.offset (le64 u.pgidPool ++ le32 u.pgidSeed)
      = .ok (requestBytes r fourth ++ behind) :=
    store_field 12 (congrArg RequestSlots.pgid requestSlots_pieces) (by decide) u.fields.pgid.property.symm rfl
  have reassert {more : List UInt8} : store (requestBytes r fifth ++ more) (requestSlots r).reassertVersion.offset
      (le32 u.reassertEpoch ++ le64 u.reassertVersion) = .ok (requestBytes r u.fields ++ more) :=
    store_field 4 (congrArg RequestSlots.reassertVersion requestSlots_pieces) (by decide)
      u.fields.reassertVersion.property.symm rfl
  unfold sendRequestMessage Resend.updates
  rw [storeAll_cons epoch, storeAll_cons flags, storeAll_cons pool, storeAll_cons pgid]
  cases Nat.decLe 4 behind.length with
  | isTrue room =>
    have attempts : store (requestBytes r fourth ++ behind) (requestSlots r).attempts.offset (le64 1)
        = .ok (requestBytes r fifth ++ (zeros 4 ++ behind.drop 4)) := store_attempts.trans (if_pos room)
    rw [storeAll_cons attempts, storeAll_cons reassert, if_pos room]
    rfl
  | isFalse short =>
    have attempts : store (requestBytes r fourth ++ behind) (requestSlots r).attempts.offset (le64 1)
        = .error .outside := store_attempts.trans (if_neg short)
    rw [storeAll_fails attempts, if_neg short]
    rfl

theorem Laid.send (laid : Laid front r msg) (room : requestLength r + 4 ≤ front) (u : Resend) :
    ∃ next, sendRequestMessage msg u = .ok next ∧ Laid front r next ∧ next.iovLen = requestLength r ∧
      next.sent = requestBytes r u.fields := by
  obtain ⟨fields, behind, size, rfl⟩ := laid
  have enough : 4 ≤ behind.length := by omega
  refine ⟨_, (sendRequestMessage_laid u).trans (if_pos enough), ⟨u.fields, _, ?_, rfl⟩, rfl,
    take_left' length_requestBytes⟩
  rw [length_append, length_drop, zeros, length_replicate, Nat.add_sub_cancel' enough]
  exact size

theorem Laid.sends (laid : Laid front r msg) (room : requestLength r + 4 ≤ front) (sends : List Resend) :
    ∃ last, sends.foldlM sendRequestMessage msg = .ok last ∧ Laid front r last := by
  induction sends generalizing msg with
  | nil => exact ⟨msg, rfl, laid⟩
  | cons u rest ih =>
    obtain ⟨next, sent, kept, -⟩ := laid.send room u
    obtain ⟨last, ran, stays⟩ := ih kept
    refine ⟨last, ?_, stays⟩
    rw [foldlM_cons, sent]
    exact ran

theorem Laid.overrun (laid : Laid front r msg) (short : front < requestLength r + 4) (u : Resend) :
    sendRequestMessage msg u = .error .outside := by
  obtain ⟨fields, behind, size, rfl⟩ := laid
  exact (sendRequestMessage_laid u).trans (if_neg (by omega))

def Inside (front : Nat) (r : RequestContent) : Prop :=
  ∃ msg, buildRequest front r = .ok msg ∧ ∀ sends : List Resend, ∃ last, sends.foldlM sendRequestMessage msg = .ok last

/-- What goes to the osd has the layout of the message, with the values of the last sending. -/
def SentRight (front : Nat) (r : RequestContent) : Prop :=
  ∀ msg, buildRequest front r = .ok msg → ∀ (sends : List Resend) (u : Resend) (last : RequestMessage),
    (sends ++ [u]).foldlM sendRequestMessage msg = .ok last →
    last.iovLen = requestLength r ∧ last.sent = requestBytes r u.fields

def UpdatesFit (front : Nat) (r : RequestContent) : Prop :=
  ∀ msg, buildRequest front r = .ok msg → ∀ (u : Resend), ∀ update ∈ u.updates msg.slots,
    update.2.length ≤ update.1.width

structure SizedRight (front : Nat) (r : RequestContent) : Prop where
  inside : Inside front r
  sent : SentRight front r
  within : UpdatesFit front r

theorem inside_iff : Inside front r ↔ requestLength r + 4 ≤ front := by
  constructor
  · intro inside
    obtain ⟨msg, built, stays⟩ := inside
    by_contra short
    obtain ⟨last, ran⟩ := stays [default]
    rw [foldlM_cons, (buildRequest_laid built).2.overrun (by omega)] at ran
    cases ran
  · intro room
    have built := buildRequest_fits (Nat.le_of_add_right_le room)
    refine ⟨_, built, fun sends => ?_⟩
    obtain ⟨last, ran, -⟩ := (buildRequest_laid built).2.sends room sends
    exact ⟨last, ran⟩

theorem sentRight : SentRight front r := by
  intro msg built sends u last ran
  have laid := (buildRequest_laid built).2
  cases Nat.lt_or_ge front (requestLength r + 4) with
  | inl short =>
    cases sends with
    | nil =>
      rw [nil_append, foldlM_cons, laid.overrun short] at ran
      cases ran
    | cons first rest =>
      rw [cons_append, foldlM_cons, laid.overrun short] at ran
      cases ran
  | inr room =>
    obtain ⟨before, first, kept⟩ := laid.sends room sends
    obtain ⟨next, sent, -, same⟩ := kept.send room u
    rw [foldlM_append, first] at ran
    change sendRequestMessage before u >>= pure = _ at ran
    rw [sent] at ran
    cases ran
    exact same

theorem attempts_too_wide (laid : Laid front r msg) (u : Resend) :
    ∃ update ∈ u.updates msg.slots, update.1.width < update.2.length := by
  obtain ⟨fields, behind, -, rfl⟩ := laid
  refine ⟨((requestSlots r).attempts, le64 1), ?_, ?_⟩
  · unfold Resend.updates
    simp
  · have double : (le64 1).length = 8 := length_leBytes ..
    have width : (requestSlots r).attempts.width = 4 := rfl
    rw [double, width]
    decide

theorem allocRequestFront_ok {useMempool : Bool} {numOps numSnaps : Nat}
    (allocated : allocRequestFront useMempool numOps numSnaps = .ok front) :
    numOps ≤ maxOp ∧
    front = if useMempool then osdOpFrontLen else 201 + numOps * sizeofCephOsdOp + 8 * numSnaps := by
  unfold allocRequestFront at allocated
  split at allocated
  next => cases allocated
  next few =>
    cases allocated
    refine ⟨Nat.not_lt.1 few, if_congr Iff.rfl rfl ?_⟩
    unfold cephMaxOidNameLen
    lia

/-- No request keeps the second half of its attempts within the field. It has room in the front if the name is short,
or if the message is short enough for the front of the pool. -/
theorem request_sizing {useMempool : Bool}
    (allocated : allocRequestFront useMempool r.ops.length r.snaps.length = .ok front) :
    ¬SizedRight front r ∧
    (Inside front r ↔
      if useMempool then requestLength r + 4 ≤ osdOpFrontLen else r.baseOid.length + 4 ≤ cephMaxOidNameLen) ∧
    SentRight front r := by
  refine ⟨?_, ?_, sentRight⟩
  · intro right
    obtain ⟨msg, built, -⟩ := right.inside
    obtain ⟨update, member, wide⟩ := attempts_too_wide (buildRequest_laid built).2 default
    have fits := right.within msg built default update member
    omega
  · rw [inside_iff, (allocRequestFront_ok allocated).2]
    cases useMempool with
    | true => rw [if_pos rfl, if_pos rfl]
    | false =>
      rw [if_neg Bool.false_ne_true, if_neg Bool.false_ne_true]
      unfold requestLength cephMaxOidNameLen
      lia

end

def namedRequest (length : Nat) : RequestContent where
  flags := 0
  mtimeSec := 0
  mtimeNsec := 0
  baseOid := replicate length 0x61
  ops := [cleared sizeofCephOsdOp]
  snapid := 0
  snapc := none

theorem request_sizing_short : Inside 239 (namedRequest 96) :=
  (@request_sizing (namedRequest 96) 239 false rfl).2.1.2 (by decide)

/-- The longest name that the front is allocated for. -/
theorem request_sizing_overrun : allocRequestFront false 1 0 = .ok 239 ∧
    (buildRequest 239 (namedRequest 100)).map RequestMessage.iovLen = .ok 239 ∧
    ((buildRequest 239 (namedRequest 100)).bind fun msg => sendRequestMessage msg default).map
      RequestMessage.iovLen = .error .outside ∧
    ¬SizedRight 239 (namedRequest 100) := by
  have failed : ((buildRequest 239 (namedRequest 100)).bind fun msg => sendRequestMessage msg default).map
      RequestMessage.iovLen = .error .outside := by decide +kernel
  refine ⟨rfl, by decide +kernel, failed, fun right => ?_⟩
  obtain ⟨msg, built, stays⟩ := right.inside
  obtain ⟨last, sent⟩ := stays [default]
  rw [built] at failed
  change (sendRequestMessage msg default).map RequestMessage.iovLen = _ at failed
  rw [foldlM_cons] at sent
  cases ran : sendRequestMessage msg default with
  | ok next =>
    rw [ran] at failed
    cases failed
  | error overrun =>
    rw [ran] at sent
    cases sent

end KmodCeph.OsdClient

