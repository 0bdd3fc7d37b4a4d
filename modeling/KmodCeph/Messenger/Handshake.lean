import KmodCeph.Messenger.Frames

namespace KmodCeph.Messenger

open Lib List World Kvec Entry

def addresses : List Entry → List (List UInt8)
  | [] => []
  | .opened _ addr :: _ => [addr]
  | .greeted _ addr :: rest => addr :: addresses rest
  | _ :: rest => addresses rest

def request : List Entry → List UInt8
  | [] => []
  | .opened _ _ :: _ => []
  | .greeted _ _ :: _ => []
  | .asked connect :: _ => connect
  | _ :: rest => request rest

/-- What there is to be written on the latest socket before it is open. A
request that answers a reply follows whatever was written until then. -/
def Offers : List Entry → List UInt8 → Prop
  | [], _ => False
  | .opened _ addr :: _, bytes => bytes = cephBanner ++ addr
  | .greeted _ addr :: rest, bytes => ∃ own ∈ addr :: addresses rest, bytes = cephBanner ++ own
  | .asked connect :: rest, bytes => ∃ earlier part, Offers rest earlier ∧ part <+: earlier ∧
      (stage rest = .replied ∨ stage rest = .greeted ∧ part = earlier) ∧ bytes = part ++ connect
  | _ :: rest, bytes => Offers rest bytes

section

variable {log : List Entry} {entry : Entry} {bytes : List UInt8}

theorem stage_cons (quiet : entry.shakes = false) : stage (entry :: log) = stage log := by
  cases entry <;> first | rfl | cases quiet

theorem offers_cons (quiet : entry.shakes = false) : Offers (entry :: log) bytes ↔ Offers log bytes := by
  cases entry <;> first | rfl | cases quiet

theorem addresses_cons (quiet : entry.shakes = false) : addresses (entry :: log) = addresses log := by
  cases entry <;> first | rfl | cases quiet

theorem quiet_append {added : List Entry} (quiet : ∀ entry ∈ added, entry.shakes = false) :
    stage (added ++ log) = stage log ∧ addresses (added ++ log) = addresses log ∧
      ∀ bytes, Offers (added ++ log) bytes ↔ Offers log bytes := by
  induction added with
  | nil => exact ⟨rfl, rfl, fun _ => Iff.rfl⟩
  | cons entry added ih =>
    have first := quiet entry (by simp)
    obtain ⟨stages, addrs, offers⟩ := ih fun other member => quiet other (by simp [member])
    rw [cons_append, stage_cons first, addresses_cons first]
    exact ⟨stages, addrs, fun bytes => (offers_cons first).trans (offers bytes)⟩

theorem request_of_early (early : stage log = .opened ∨ stage log = .greeted) : request log = [] := by
  induction log with
  | nil => rfl
  | cons entry rest ih =>
    cases entry with
    | opened | greeted => rfl
    | asked =>
      simp only [stage] at early
      split at early <;> simp at early
    | replied => simp [stage] at early
    | _ => exact ih early

theorem Offers.first (offers : Offers log bytes) (unreplied : stage log ≠ .replied) :
    ∃ own ∈ addresses log, bytes = cephBanner ++ own ++ request log := by
  induction log generalizing bytes with
  | nil => cases offers
  | cons entry rest ih =>
    cases entry with
    | opened clean addr => exact ⟨addr, by simp [addresses], by simpa [request, Offers] using offers⟩
    | greeted cur addr =>
      obtain ⟨own, member, equal⟩ := offers
      exact ⟨own, member, by simpa [request] using equal⟩
    | asked connect =>
      obtain ⟨earlier, part, offers, _, stages, rfl⟩ := offers
      have before : stage rest ≠ .replied := fun replied => unreplied (by simp [stage, replied])
      obtain ⟨greeted, rfl⟩ := stages.resolve_left before
      obtain ⟨own, member, rfl⟩ := ih offers before
      rw [request_of_early (.inr greeted), List.append_nil]
      exact ⟨own, member, rfl⟩
    | replied => exact absurd rfl unreplied
    | _ => exact ih offers unreplied

end

/-- What has been written once the peer has accepted: a part of what was
offered, and perhaps of a sequence number. -/
def Accepted (full hello : List UInt8) : Prop :=
  ∃ part seq number, part <+: full ∧ seq <+: leBytes 8 number ∧ hello = part ++ seq

/-- What has been written on a socket: a part of the handshake, or after a reply
the frames that follow it. -/
def Spoken (log : List Entry) (bytes : List UInt8) : Prop :=
  ∃ full, Offers log full ∧ (bytes <+: full ∨ stage log = .replied ∧
    ∃ hello session, Accepted full hello ∧ bytes = hello ++ session ∧ Framed session)

def Ref.ofHello : Ref → Bool
  | .banner | .myEncAddr | .outConnect | .authorizer _ => true
  | _ => false

/-- The handshake goes on. -/
structure Greeting (world : World) : Prop where
  open_ : world.con.sock.isSome
  state : world.con.state = .connecting ∧ stage world.log = .opened ∨
    world.con.state = .negotiating ∧ stage world.log ≠ .opened
  done : world.con.output.outMsg = none ∨ world.con.output.outMsgDone = true
  skip : world.con.output.outSkip = 0
  holds : world.con.output.Holds world.con.output.pending
  fits : Fits world.bytesAt world.con.output.pending
  bases : ∀ kvec ∈ world.con.output.pending, kvec.base.ofHello = true
  early : stage world.log = .opened ∨ stage world.log = .greeted →
    ∀ kvec ∈ world.con.output.pending, kvec.base = .banner ∨ kvec.base = .myEncAddr
  offers : ∃ full, Offers world.log full ∧ world.said <+: full ∧ (stage world.log ≠ .replied → world.said = full)
  first : stage world.log = .opened → addresses world.log = [world.msgr.myEncAddr] ∧
    (world.con.output.outKvecCur = 0 → world.con.output.pending = [] ∨
      ∃ kvec, kvec.base = .banner ∧ world.con.output.pending = [kvec, ⟨.myEncAddr, 0, sizeofEntityAddr⟩])

/-- The kvecs and the addresses have their length, and there is a socket while
the connection is being negotiated and when it is open. -/
structure World.Ready (world : World) : Prop where
  size : world.con.output.outKvec.length = 8
  inst : world.msgr.instAddr.length = sizeofEntityAddr
  enc : world.msgr.myEncAddr.length = sizeofEntityAddr
  forMe : world.con.hello.peerAddrForMe.length = sizeofEntityAddr
  sock : world.con.state = .negotiating ∨ world.con.state = .opened → world.con.sock.isSome

/-- A connection on which the handshake may go wrong: the socket was opened
while an earlier message was being sent, or the banner was answered after a
kvec had been sent. -/
def Entry.spoils : Entry → Bool
  | .opened clean _ => !clean
  | .greeted cur _ => cur ≠ 0
  | entry => entry.breaks

theorem Entry.breaks_of_spoils {entry : Entry} (calm : entry.spoils = false) : entry.breaks = false := by
  cases entry <;> first | rfl | exact calm

section

variable {before after : World}

structure Waits (before after : World) : Prop where
  open_ : after.con.sock.isSome = true
  state : after.con.state = before.con.state
  kvecs : after.con.output.outKvec = before.con.output.outKvec ∧
    after.con.output.outKvecCur = before.con.output.outKvecCur ∧
    after.con.output.outKvecLeft = before.con.output.outKvecLeft ∧
    after.con.output.outKvecBytes = before.con.output.outKvecBytes
  done : before.con.output.outMsg = none ∨ before.con.output.outMsgDone = true →
    after.con.output.outMsg = none ∨ after.con.output.outMsgDone = true
  skip : after.con.output.outSkip = before.con.output.outSkip
  addr : after.msgr.myEncAddr = before.msgr.myEncAddr
  connect : after.con.hello.outConnect = before.con.hello.outConnect ∨
    ∀ kvec ∈ before.con.output.pending, kvec.base = .banner ∨ kvec.base = .myEncAddr
  sockNo : after.sockNo = before.sockNo
  wire : after.wire = before.wire
  log : ∃ added, after.log = added ++ before.log ∧ ∀ entry ∈ added, entry.shakes = false

theorem bytesAt_of_hello {base : Ref} (hello : base.ofHello = true)
    (addr : after.msgr.myEncAddr = before.msgr.myEncAddr)
    (connect : after.con.hello.outConnect = before.con.hello.outConnect ∨ base = .banner ∨ base = .myEncAddr) :
    after.bytesAt base = before.bytesAt base := by
  cases base with
  | banner => rfl
  | myEncAddr => exact addr
  | outConnect =>
    have same : after.con.hello.outConnect = before.con.hello.outConnect := by simpa using connect
    simp only [bytesAt, same]
  | authorizer => rfl
  | _ => cases hello

theorem Greeting.wait (greeting : Greeting before) (waits : Waits before after) : Greeting after := by
  obtain ⟨outKvec, cur, left, bytes⟩ := waits.kvecs
  have pending : after.con.output.pending = before.con.output.pending := by
    rw [Output.pending, Output.pending, outKvec, cur, left]
  have memory : ∀ kvec ∈ before.con.output.pending, after.bytesAt kvec.base = before.bytesAt kvec.base := by
    intro kvec member
    exact bytesAt_of_hello (greeting.bases kvec member) waits.addr (waits.connect.imp_right fun early => early kvec member)
  have said : after.said = before.said := by
    rw [World.said, World.said, waits.wire, waits.sockNo, pendingBytes_eq, pendingBytes_eq, pending,
      gather_congr memory]
  obtain ⟨added, log, quiet⟩ := waits.log
  obtain ⟨stages, addrs, offers⟩ := @quiet_append before.log added quiet
  rw [← log] at stages addrs offers
  refine ⟨waits.open_, ?_, waits.done greeting.done, waits.skip.trans greeting.skip, ?_, ?_, ?_, ?_, ?_, ?_⟩
  · rw [waits.state, stages]
    exact greeting.state
  · rw [pending]
    exact greeting.holds.of_same outKvec cur left bytes
  · rw [pending]
    exact greeting.fits.congr memory
  · rw [pending]
    exact greeting.bases
  · rw [stages, pending]
    exact greeting.early
  · obtain ⟨full, offered, part, whole⟩ := greeting.offers
    rw [said, stages]
    exact ⟨full, (offers full).mpr offered, part, whole⟩
  · rw [stages, addrs, waits.addr, pending, cur]
    exact greeting.first

theorem Greeting.writeKvec {next : Next PUnit Int} {output : Output} {env : Env} {taken : List UInt8}
    (greeting : Greeting before) (pending : taken <+: before.pendingBytes)
    (ran : advanceKvecs before.con.output taken.length = .ok (next, output)) :
    Greeting ((before.wrote env taken).withOutput output) := by
  obtain ⟨advances, memory, said⟩ := @wrote_said before next output env taken greeting.holds greeting.fits pending ran
  have standing := advances.standing
  simp only [Output.standing, Prod.mk.injEq] at standing
  obtain ⟨outMsg, outMsgDone, outSkip, _⟩ := standing
  have done := greeting.done
  rw [← outMsg, ← outMsgDone] at done
  refine ⟨greeting.open_, greeting.state, done, outSkip.trans greeting.skip, advances.holds,
    advances.fits.congr fun kvec _ => memory kvec.base, ?_, ?_, ?_, ?_⟩
  · intro kvec member
    obtain ⟨old, member, same⟩ := advances.bases kvec member
    exact same ▸ greeting.bases old member
  · intro stages kvec member
    obtain ⟨old, member, same⟩ := advances.bases kvec member
    exact same ▸ greeting.early stages old member
  · rw [said]
    exact greeting.offers
  · intro stages
    obtain ⟨addrs, first⟩ := greeting.first stages
    refine ⟨addrs, fun cur => ?_⟩
    have zero : before.con.output.outKvecCur = 0 := Nat.le_zero.mp (cur ▸ advances.cur)
    obtain empty | ⟨kvec, later, old, new, _⟩ := advances.first cur
    · exact .inl empty
    · rcases first zero with empty | ⟨banner, base, two⟩
      · rw [old] at empty
        cases empty
      · obtain ⟨rfl, rfl⟩ := List.cons.inj (old.symm.trans two)
        exact .inr ⟨kvec.advance taken.length, base, new⟩

theorem Greeting.finishKvecs (greeting : Greeting before) (empty : before.con.output.outKvecBytes ≤ 0) :
    Greeting (before.withOutput (Messenger.finishKvecs before.con.output)) := by
  obtain ⟨none_, holds, said⟩ := finishKvecs_said greeting.holds greeting.fits empty
  have pending : (before.withOutput (Messenger.finishKvecs before.con.output)).con.output.pending = [] := none_
  refine ⟨greeting.open_, greeting.state, greeting.done, greeting.skip, ?_, ?_, ?_, ?_, ?_, fun stages => ?_⟩
  · rw [pending]
    exact holds
  · rw [pending]
    exact nofun
  · rw [pending]
    exact nofun
  · rw [pending]
    exact fun _ => nofun
  · rw [said]
    exact greeting.offers
  · exact ⟨(greeting.first stages).1, fun _ => .inl pending⟩

theorem length_swapFamily {addr : List UInt8} (length : addr.length = sizeofEntityAddr) :
    (swapFamily addr).length = sizeofEntityAddr := by
  simp only [swapFamily, sizeofEntityAddr, length_append, length_reverse, List.length_take,
    length_drop] at length ⊢
  lia

theorem length_learnAddr {msgr : Msgr} {forMe : List UInt8} (inst : msgr.instAddr.length = sizeofEntityAddr)
    (enc : msgr.myEncAddr.length = sizeofEntityAddr) (length : forMe.length = sizeofEntityAddr) :
    (learnAddr msgr forMe).instAddr.length = sizeofEntityAddr ∧
      (learnAddr msgr forMe).myEncAddr.length = sizeofEntityAddr := by
  unfold learnAddr
  split
  · have joined : (msgr.instAddr.take 8 ++ forMe.drop 8).length = sizeofEntityAddr := by
      simp only [sizeofEntityAddr, length_append, List.length_take, length_drop] at inst length ⊢
      lia
    have port : (addrPort msgr.instAddr).length = 2 := by
      unfold addrPort
      split
      · simp only [sizeofEntityAddr, List.length_take, length_drop] at inst ⊢
        lia
      · rfl
    have set : (addrSetPort (msgr.instAddr.take 8 ++ forMe.drop 8) (addrPort msgr.instAddr)).length =
        sizeofEntityAddr := by
      unfold addrSetPort
      split
      · refine (length_overwrite ?_).trans joined
        rw [port, joined]
        decide
      · exact joined
    exact ⟨set, length_swapFamily set⟩
  · exact ⟨inst, enc⟩

variable {ret : Int} {bytes : List UInt8}

/-- The banner is accepted before a kvec has been sent completely, or after
both have been sent at once. -/
theorem Greeting.greet (greeting : Greeting before) (ready : before.Ready) (state : before.con.state = .connecting)
    (calm : ∀ entry rest, after.log = entry :: rest → entry.spoils = false)
    (ran : processBanner before = .ok (ret, after)) : Greeting after := by
  have opened : stage before.log = .opened := by
    rcases greeting.state with ⟨_, opened⟩ | ⟨negotiating, _⟩
    · exact opened
    · exact absurd (state.symm.trans negotiating) (by simp)
  obtain ⟨_, hello, connect, _, rfl⟩ | ⟨_, rfl⟩ := processBanner_ok ran
  · exact greeting.wait ⟨greeting.open_, rfl, ⟨rfl, rfl, rfl, rfl⟩, fun done => done, rfl, rfl, .inl connect, rfl, rfl, [], rfl, forall_mem_nil _⟩
  · have cur : before.con.output.outKvecCur = 0 := by simpa [Entry.spoils] using calm _ _ rfl
    obtain ⟨addrs, first⟩ := greeting.first opened
    obtain ⟨full, offers, _, whole⟩ := greeting.offers
    obtain ⟨own, member, equal⟩ := offers.first (by rw [opened]; decide)
    obtain rfl : own = before.msgr.myEncAddr := by simpa [addrs] using member
    have said := whole (by rw [opened]; decide)
    have length := (length_learnAddr ready.inst ready.enc (length_swapFamily ready.forMe)).2
    rw [equal, request_of_early (.inl opened), List.append_nil, World.said, pendingBytes_eq] at said
    have state : ConState.negotiating = .connecting ∧ Stage.greeted = .opened ∨
        ConState.negotiating = .negotiating ∧ Stage.greeted ≠ .opened := .inr ⟨rfl, by decide⟩
    rcases first cur with empty | ⟨kvec, base, two⟩
    · rw [empty, gather_nil] at said
      refine ⟨greeting.open_, state, greeting.done, greeting.skip, greeting.holds, ?_, greeting.bases,
        fun _ => greeting.early (.inl opened), ⟨cephBanner ++ before.msgr.myEncAddr, ⟨_, ?_, rfl⟩, ?_⟩, (fun h => by cases h)⟩
      · simp only [empty]
        exact fun _ h => by cases h
      · simp [addrs]
      · rw [World.said, pendingBytes_eq]
        simp only [empty, gather_nil, said]
        exact ⟨prefix_refl _, fun _ => trivial⟩
    · obtain ⟨base, offset, len⟩ := kvec
      subst base
      have own : (before.bytesAt .myEncAddr).length = sizeofEntityAddr := ready.enc
      have fits := greeting.fits
      rw [two, gather_cons, gather_cons, gather_nil, List.append_nil, read_whole own, ← append_assoc] at said
      have banner := append_cancel_right said
      rw [two] at fits
      refine ⟨greeting.open_, state, greeting.done, greeting.skip, greeting.holds, ?_, greeting.bases,
        fun _ => greeting.early (.inl opened), ⟨_, ⟨_, mem_cons_self, rfl⟩, ?_⟩, (fun h => by cases h)⟩
      · simp only [two]
        intro other member
        simp only [mem_cons, not_mem_nil, or_false] at member
        rcases member with rfl | rfl
        · exact fits _ (by simp)
        · exact fits_whole length
      · rw [World.said, pendingBytes_eq]
        simp only [two, gather_cons, gather_nil, List.append_nil]
        rw [read_whole (by exact length), ← append_assoc]
        refine ⟨?_, fun _ => ?_⟩
        · rw [← banner]
          exact prefix_refl _
        · rw [← banner]
          rfl

theorem greetedAt_eq {log : List Entry} (calm : ∀ entry ∈ log, entry.spoils = false) : greetedAt log = 0 := by
  induction log with
  | nil => rfl
  | cons entry rest ih =>
    have later := ih fun other member => calm other (by simp [member])
    cases entry with
    | greeted cur addr => simpa [Entry.spoils, greetedAt] using calm (.greeted cur addr) (by simp)
    | _ => exact later

def connectKvecs (connect : MsgConnect) (bytes : List UInt8) : List Kvec :=
  ⟨.outConnect, 0, connect.encode.length⟩ ::
    if bytes = [] then [] else [⟨.authorizer bytes, 0, bytes.length⟩]

theorem gather_connectKvecs {world : World} {connect : MsgConnect} {bytes : List UInt8}
    (same : world.con.hello.outConnect = connect) :
    Fits world.bytesAt (connectKvecs connect bytes) ∧
    gather world.bytesAt (connectKvecs connect bytes) = connect.encode ++ bytes ∧
    ∀ kvec ∈ connectKvecs connect bytes, kvec.base.ofHello = true := by
  have asked : (world.bytesAt .outConnect).length = connect.encode.length := by rw [← same]; rfl
  have auth : (world.bytesAt (.authorizer bytes)).length = bytes.length := rfl
  unfold connectKvecs
  split
  · rename_i empty
    refine ⟨fun kvec member => ?_, ?_, fun kvec member => ?_⟩
    · rw [mem_singleton] at member
      subst member
      exact fits_whole asked
    · rw [gather_cons, gather_nil, read_whole asked, empty, ← same]
      rfl
    · rw [mem_singleton] at member
      subst member
      rfl
  · refine ⟨fun kvec member => ?_, ?_, fun kvec member => ?_⟩
    · simp only [mem_cons, not_mem_nil, or_false] at member
      rcases member with rfl | rfl
      · exact fits_whole asked
      · exact fits_whole auth
    · rw [gather_cons, gather_cons, gather_nil, read_whole asked, read_whole auth, List.append_nil, ← same]
      rfl
    · simp only [mem_cons, not_mem_nil, or_false] at member
      rcases member with rfl | rfl <;> rfl

theorem Output.Holds.addConnect {output asked next : Output} {kvecs : List Kvec} {connect : MsgConnect}
    (holds : output.Holds kvecs) (cur : output.outKvecCur = 0)
    (first : conOutKvecAdd output connect.encode.length .outConnect = .ok asked)
    (second : addAuthorizer asked bytes = .ok next) :
    next.Holds (kvecs ++ connectKvecs connect bytes) ∧ next.standing = output.standing := by
  obtain ⟨holds, cur, firstSame⟩ := holds.add cur first
  unfold addAuthorizer at second
  unfold connectKvecs
  split at second
  · cases second
    rw [if_pos ‹_›]
    exact ⟨holds, firstSame⟩
  · obtain ⟨holds, _, secondSame⟩ := holds.add cur second
    rw [if_neg ‹_›]
    rw [append_assoc] at holds
    exact ⟨holds, secondSame.trans firstSame⟩

theorem Greeting.queueConnect {protocol : UInt32} {reply : Option (List UInt8)}
    (greeting : Greeting before) (asking : before.Asking) (calm : ∀ entry ∈ before.log, entry.spoils = false)
    (ran : queueConnect protocol bytes reply before = .ok (ret, after)) : Greeting after := by
  obtain ⟨_, hello, asked, output, _, first, second, equal⟩ := queueConnect_ok ran
  obtain ⟨negotiating, asks⟩ := asking
  have cur : before.con.output.outKvecCur = 0 := by
    rcases asks with ⟨_, cur⟩ | ⟨_, cur, _⟩
    · exact cur.trans (greetedAt_eq calm)
    · exact cur
  obtain ⟨holds, same⟩ := greeting.holds.addConnect cur first second
  simp only [Output.standing, Prod.mk.injEq] at same
  have holds : after.con.output.Holds (before.con.output.pending ++ connectKvecs hello.outConnect bytes) := by
    rw [equal]
    exact holds.of_same rfl rfl rfl rfl
  have pending := holds.pending
  obtain ⟨fits, gathered, bases⟩ := @gather_connectKvecs after hello.outConnect bytes (by rw [equal])
  -- the kvecs that are left do not point to the request that is replaced
  have early : ∀ kvec ∈ before.con.output.pending, kvec.base = .banner ∨ kvec.base = .myEncAddr := by
    rcases asks with ⟨greeted, _⟩ | ⟨_, _, left⟩
    · exact greeting.early (.inr greeted)
    · have none_ : before.con.output.pending = [] :=
        eq_nil_of_length_eq_zero (by rw [← greeting.holds.left, left])
      rw [none_]
      simp
  have memory : ∀ kvec ∈ before.con.output.pending, after.bytesAt kvec.base = before.bytesAt kvec.base := by
    intro kvec member
    refine bytesAt_of_hello (greeting.bases kvec member) ?_ (.inr (early kvec member))
    rw [equal]
  have said : after.said = before.said ++ (hello.outConnect.encode ++ bytes) := by
    have wire : after.wire after.sockNo = before.wire before.sockNo := by rw [equal]
    rw [World.said, pendingBytes_eq, pending, gather_append, gather_congr memory, gathered, wire,
      ← append_assoc]
    rfl
  have log : after.log = .asked (hello.outConnect.encode ++ bytes) :: before.log := by rw [equal]
  have stages : stage after.log = .asked ∨ stage after.log = .replied := by
    rw [log]
    simp only [stage]
    split
    · exact .inr rfl
    · exact .inl rfl
  have late : stage after.log ≠ .opened ∧ stage after.log ≠ .greeted := by
    rcases stages with stages | stages <;> rw [stages] <;> exact ⟨(by simp), (by simp)⟩
  refine ⟨?_, .inr ⟨?_, late.1⟩, ?_, ?_, pending.symm ▸ holds, ?_, ?_, ?_, ?_, fun opened => absurd opened late.1⟩
  · rw [equal]
    exact greeting.open_
  · rw [equal]
    exact negotiating
  · rw [equal]
    simp only [same.1, same.2.1]
    exact greeting.done
  · rw [equal]
    exact same.2.2.1.trans greeting.skip
  · rw [pending]
    intro kvec member
    rcases List.mem_append.mp member with member | member
    · exact greeting.fits.congr memory kvec member
    · exact fits kvec member
  · rw [pending]
    intro kvec member
    rcases List.mem_append.mp member with member | member
    · exact greeting.bases kvec member
    · exact bases kvec member
  · intro stages
    rcases stages with opened | greeted
    · exact absurd opened late.1
    · exact absurd greeted late.2
  · obtain ⟨full, offers, part, whole⟩ := greeting.offers
    refine ⟨after.said, ?_, prefix_refl _, fun _ => rfl⟩
    rw [log]
    refine ⟨full, before.said, offers, part, ?_, said⟩
    rcases asks with ⟨greeted, _⟩ | ⟨replied, _⟩
    · exact .inr ⟨greeted, whole (by rw [greeted]; decide)⟩
    · exact .inl replied

theorem Greeting.reply (greeting : Greeting before) (negotiating : before.con.state = .negotiating) :
    Greeting (before.note .replied) := by
  refine ⟨greeting.open_, .inr ⟨negotiating, nofun⟩, greeting.done, greeting.skip, greeting.holds, greeting.fits,
    greeting.bases, by simp [World.note, stage], ?_, nofun⟩
  obtain ⟨full, offers, part, _⟩ := greeting.offers
  exact ⟨full, offers, part, fun unreplied => absurd rfl unreplied⟩

theorem Greeting.resetKvecs (greeting : Greeting before) (negotiating : before.con.state = .negotiating)
    (replied : stage before.log = .replied) :
    Greeting (before.withOutput (conOutKvecReset before.con.output)) := by
  have none_ : (before.withOutput (conOutKvecReset before.con.output)).con.output.pending = [] := by
    simp [withOutput, conOutKvecReset, Output.pending]
  have stages : stage (before.withOutput (conOutKvecReset before.con.output)).log = .replied := replied
  refine ⟨greeting.open_, .inr ⟨negotiating, by rw [stages]; simp⟩, greeting.done, greeting.skip, ?_, ?_, ?_, ?_,
    ?_, fun opened => absurd (stages.symm.trans opened) (by simp)⟩
  · rw [none_]
    exact greeting.holds.reset
  · rw [none_]
    exact fun _ h => by cases h
  · rw [none_]
    simp
  · rw [none_]
    exact fun _ => by simp
  · obtain ⟨full, offers, part, _⟩ := greeting.offers
    refine ⟨full, offers, List.IsPrefix.trans ?_ part, fun unreplied => absurd stages unreplied⟩
    rw [World.said, pendingBytes_eq, none_, gather_nil, List.append_nil]
    exact prefix_append _ _

structure Opened (world : World) : Prop where
  open_ : world.con.sock.isSome
  replied : stage world.log = .replied
  sending : ∃ full hello, Offers world.log full ∧ Accepted full hello ∧ Sending hello world

theorem Greeting.accept {hello : Hello} {output : Output} {lossytx writePending : Bool} {inSeqAcked : UInt64}
    {inTag : UInt8} (greeting : Greeting before) (replied : stage before.log = .replied)
    (connect : hello.outConnect = before.con.hello.outConnect)
    (seq : output = before.con.output ∨ conOutKvecAdd
      { conOutKvecReset before.con.output with outTempAck := inSeqAcked } 8 .outTempAck = .ok output) :
    Opened { before with con := { before.con with
      state := .opened, lossytx, writePending, hello, output
      input := { before.con.input with inSeqAcked, inTag, inBasePos := 0 } } } := by
  obtain ⟨full, offers, part, _⟩ := greeting.offers
  have noMsg : ∀ kvec ∈ before.con.output.pending, kvec.base.msg = none := by
    intro kvec member
    have base := greeting.bases kvec member
    cases same : kvec.base <;> rw [same] at base <;> first | rfl | cases base
  have finished : output.outMsg = none ∨ output.outMsgDone = true := by
    rcases seq with rfl | added
    · exact greeting.done
    · unfold conOutKvecAdd at added
      split at added <;> cases added
      exact greeting.done
  have skip : output.outSkip = 0 := by
    rcases seq with rfl | added
    · exact greeting.skip
    · unfold conOutKvecAdd at added
      split at added <;> cases added
      exact greeting.skip
  have walks {Q : Nat → Prop} : ∀ id, output.outMsg = some id → output.outMsgDone = false → Q id := by
    intro id some_ unfinished
    rcases finished with none_ | done
    · exact absurd (none_.symm.trans some_) nofun
    · exact absurd (done.symm.trans unfinished) nofun
  have nothing {world : World} (same : world.con.output = output) : world.owed = 0 :=
    owed_of_done (by rw [same]; exact finished)
  refine ⟨greeting.open_, replied, full, ?_⟩
  rcases seq with rfl | added
  · refine ⟨before.said, offers, ⟨before.said, [], 0, part, nil_prefix, (List.append_nil _).symm⟩, rfl, skip, greeting.holds,
      ?_, fun kvec member id base => absurd ((noMsg kvec member).symm.trans base) nofun, walks, fun tail length => ?_⟩
    · exact greeting.fits.congr fun kvec member =>
        bytesAt_of_hello (greeting.bases kvec member) rfl (.inl connect)
    · replace length := length.trans (nothing (by rfl))
      refine ⟨[], .nil, ?_⟩
      rw [eq_nil_of_length_eq_zero length, List.append_nil, List.append_nil, World.said, World.said,
        pendingBytes_eq, pendingBytes_eq]
      congr 1
      exact gather_congr fun kvec member =>
        bytesAt_of_hello (greeting.bases kvec member) rfl (.inl connect)
  · have reset : ({ conOutKvecReset before.con.output with outTempAck := inSeqAcked } : Output).Holds [] :=
      greeting.holds.reset.of_same rfl rfl rfl rfl
    obtain ⟨holds, _, same⟩ := reset.add rfl added
    simp only [Output.standing, Prod.mk.injEq] at same
    have pending : output.pending = [⟨.outTempAck, 0, 8⟩] := holds.pending
    have wire : before.wire before.sockNo <+: full := (prefix_append _ _).trans part
    refine ⟨before.wire before.sockNo ++ leBytes 8 inSeqAcked.toNat, offers, ⟨_, _, inSeqAcked.toNat, wire, prefix_refl _, rfl⟩, rfl, skip, ?_, ?_, ?_, walks,
      fun tail length => ?_⟩
    · simp only [pending]
      exact holds
    · simp only [pending]
      intro kvec member
      rw [mem_singleton] at member
      subst member
      exact fits_whole (length_leBytes _ _)
    · simp only [pending]
      intro kvec member id base
      rw [mem_singleton] at member
      subst member
      cases base
    · replace length := length.trans (nothing (by rfl))
      refine ⟨[], .nil, ?_⟩
      rw [eq_nil_of_length_eq_zero length, List.append_nil, List.append_nil, World.said, pendingBytes_eq]
      simp only [pending, gather_cons, gather_nil, List.append_nil]
      rw [read_whole (by exact length_leBytes _ _)]
      simp only [bytesAt, same.2.2.2]

theorem Greeting.call {request : Call} (greeting : Greeting before)
    (calm : ∀ entry ∈ after.log, entry.spoils = false) (ran : request.step before = .ok (⟨⟩, after)) :
    after.con.sock = none ∨ after.con.state = .preopen ∨ Greeting after := by
  have notStandby : before.con.state ≠ .standby := by
    rcases greeting.state with ⟨state, _⟩ | ⟨state, _⟩ <;> rw [state] <;> exact nofun
  cases request with
  | send id =>
    obtain ⟨_, rfl⟩ | ⟨_, _, _, state, _, step, rfl⟩ := cephConSend_ok ran
    · exact .inr (.inr (greeting.wait ⟨greeting.open_, rfl, ⟨rfl, rfl, rfl, rfl⟩, fun done => done, rfl, rfl, .inl rfl, rfl, rfl,
        [_], rfl, by simp [shakes]⟩))
    · have same : state = before.con.state := step.resolve_right fun standby => notStandby standby.1
      exact .inr (.inr (greeting.wait ⟨greeting.open_, same, ⟨rfl, rfl, rfl, rfl⟩, fun done => done, rfl, rfl, .inl rfl, rfl, rfl,
        [_], rfl, by simp [shakes]⟩))
  | revoke id =>
    obtain rfl | ⟨_, rfl⟩ := cephMsgRevoke_calm ran fun entry rest equal =>
      breaks_of_spoils (calm entry (by simp [equal]))
    · exact .inr (.inr greeting)
    · unfold revokeQueued
      split
      · exact .inr (.inr (greeting.wait ⟨greeting.open_, rfl, ⟨rfl, rfl, rfl, rfl⟩, fun done => done, rfl, rfl, .inl rfl,
          rfl, rfl, [_], rfl, by simp [shakes]⟩))
      · exact .inr (.inr greeting)
  | revokeIncoming id =>
    obtain rfl | ⟨_, _, _, rfl⟩ := cephMsgRevokeIncoming_ok ran
    · exact .inr (.inr greeting)
    · exact .inr (.inr (greeting.wait ⟨greeting.open_, rfl, ⟨rfl, rfl, rfl, rfl⟩, fun done => done, rfl, rfl, .inl rfl, rfl, rfl,
        [_], rfl, by simp [shakes]⟩))
  | keepalive =>
    obtain ⟨state, _, _, _, step, rfl⟩ := cephConKeepalive_ok ran
    have same : state = before.con.state := step.resolve_right fun standby => notStandby standby.1
    exact .inr (.inr (greeting.wait ⟨greeting.open_, same, ⟨rfl, rfl, rfl, rfl⟩, fun done => done, rfl, rfl, .inl rfl, rfl, rfl,
      [], rfl, forall_mem_nil _⟩))
  | close =>
    obtain ⟨_, rfl⟩ := cephConClose_ok ran
    exact .inl rfl
  | reopen type num addr =>
    cases ran
    exact .inr (.inl rfl)
  | sockClosed =>
    cases ran
    exact .inr (.inr (greeting.wait ⟨greeting.open_, rfl, ⟨rfl, rfl, rfl, rfl⟩, fun done => done, rfl, rfl, .inl rfl, rfl, rfl,
      [], rfl, forall_mem_nil _⟩))
  | write id contents =>
    obtain rfl | ⟨_, _, rfl⟩ := fillMessage_ok ran
    · exact .inr (.inr greeting)
    · exact .inr (.inr (greeting.wait ⟨greeting.open_, rfl, ⟨rfl, rfl, rfl, rfl⟩, fun done => done, rfl, rfl, .inl rfl,
        rfl, rfl, [], rfl, forall_mem_nil _⟩))

theorem Greeting.step (greeting : Greeting before) (ready : before.Ready)
    (calm : ∀ entry ∈ after.log, entry.spoils = false) (act : Act before after) :
    after.con.sock = none ∨ after.con.state = .preopen ∨ Greeting after ∨ Opened after := by
  have notOpened : before.con.state ≠ .opened := by
    rcases greeting.state with ⟨state, _⟩ | ⟨state, _⟩ <;> rw [state] <;> exact nofun
  have earlier : ∀ entry ∈ before.log, entry.spoils = false := fun entry member =>
    calm entry (act.log_suffix.subset member)
  have unfinished {P : Prop} {id : Nat} (some_ : before.con.output.outMsg = some id)
      (unfinished : before.con.output.outMsgDone = false) : P := by
    rcases greeting.done with none_ | done
    · exact absurd (none_.symm.trans some_) nofun
    · exact absurd (done.symm.trans unfinished) nofun
  cases act with
  | call request ran =>
    rcases greeting.call calm ran with none_ | preopen | greeting
    · exact .inl none_
    · exact .inr (.inl preopen)
    · exact .inr (.inr (.inl greeting))
  | quiet =>
    exact .inr (.inr (.inl (greeting.wait ⟨greeting.open_, rfl, ⟨rfl, rfl, rfl, rfl⟩, fun done => done, rfl, rfl,
      .inl rfl, rfl, rfl, [], rfl, forall_mem_nil _⟩)))
  | fault ran =>
    obtain ⟨_, rfl⟩ | ⟨_, _, _, _, _, _, rfl⟩ := conFault_ok ran <;> exact .inl rfl
  | openSocket state =>
    rcases greeting.state with ⟨other, _⟩ | ⟨other, _⟩ <;> exact absurd (state.symm.trans other) nofun
  | writeSkip _ _ _ _ skips =>
    rw [greeting.skip] at skips
    cases skips
  | writeKvec _ _ _ _ _ _ pending ran => exact .inr (.inr (.inl (greeting.writeKvec pending ran)))
  | finishKvecs _ _ empty => exact .inr (.inr (.inl (greeting.finishKvecs empty)))
  | writeData _ _ _ _ some_ _ undone => exact unfinished some_ undone
  | queueFooter _ _ some_ undone => exact unfinished some_ undone
  | finishMessage =>
    exact .inr (.inr (.inl (greeting.wait ⟨greeting.open_, rfl, ⟨rfl, rfl, rfl, rfl⟩, fun _ => .inl rfl, rfl, rfl,
      .inl rfl, rfl, rfl, [], rfl, forall_mem_nil _⟩)))
  | prepareMessage _ state => exact absurd state notOpened
  | prepareAck _ state => exact absurd state notOpened
  | prepareKeepalive _ state => exact absurd state notOpened
  | readHello _ _ _ _ _ _ connect =>
    exact .inr (.inr (.inl (greeting.wait ⟨rfl, rfl, ⟨rfl, rfl, rfl, rfl⟩, fun done => done, rfl, rfl,
      .inl connect, rfl, rfl, [], rfl, forall_mem_nil _⟩)))
  | greet state _ ran =>
    exact .inr (.inr (.inl (greeting.greet ready state (fun entry rest equal => calm entry (by simp [equal])) ran)))
  | negotiate hello globalSeq asking =>
    refine .inr (.inr (.inl (greeting.wait ⟨greeting.open_, rfl, ⟨rfl, rfl, rfl, rfl⟩, fun done => done, rfl, rfl,
      .inr ?_, rfl, rfl, [], rfl, forall_mem_nil _⟩)))
    obtain ⟨_, ⟨greeted, _⟩ | ⟨_, _, left⟩⟩ := asking
    · exact greeting.early (.inr greeted)
    · have none_ : before.con.output.pending = [] :=
        eq_nil_of_length_eq_zero (by rw [← greeting.holds.left, left])
      rw [none_]
      exact nofun
  | queueConnect asking ran => exact .inr (.inr (.inl (greeting.queueConnect asking earlier ran)))
  | adopt _ _ _ connect =>
    exact .inr (.inr (.inl (greeting.wait ⟨greeting.open_, rfl, ⟨rfl, rfl, rfl, rfl⟩, fun done => done, rfl, rfl,
      .inl connect, rfl, rfl, [], rfl, forall_mem_nil _⟩)))
  | prepareRead =>
    exact .inr (.inr (.inl (greeting.wait ⟨greeting.open_, rfl, ⟨rfl, rfl, rfl, rfl⟩, fun done => done, rfl, rfl,
      .inl rfl, rfl, rfl, [], rfl, forall_mem_nil _⟩)))
  | reply state => exact .inr (.inr (.inl (greeting.reply state)))
  | reset _ _ ran =>
    obtain ⟨_, rfl⟩ := resetConnection_ok ran
    exact .inr (.inr (.inl (greeting.wait ⟨greeting.open_, rfl, ⟨rfl, rfl, rfl, rfl⟩, fun _ => .inl rfl, rfl, rfl,
      .inl rfl, rfl, rfl, [_], rfl, by simp [shakes]⟩)))
  | resetKvecs state replied => exact .inr (.inr (.inl (greeting.resetKvecs state replied)))
  | accept _ _ _ _ _ _ _ replied connect _ seq => exact .inr (.inr (.inr (greeting.accept replied connect seq)))
  | setCrc section_ =>
    cases section_ <;>
      exact .inr (.inr (.inl (greeting.wait ⟨greeting.open_, rfl, ⟨rfl, rfl, rfl, rfl⟩, fun done => done, rfl, rfl,
        .inl rfl, rfl, rfl, [], rfl, forall_mem_nil _⟩)))
  | discard _ _ _ state => exact absurd state notOpened
  | tagMsg _ _ reads => exact absurd reads.1 notOpened
  | tagOther _ _ _ _ reads => exact absurd reads.1 notOpened
  | tagClose _ _ reads => exact absurd reads.1 notOpened
  | readHdr _ _ _ _ reads => exact absurd reads.1 notOpened
  | stale reads => exact absurd reads.1 notOpened
  | leak next => exact absurd next.1.1 notOpened
  | skipMessage next => exact absurd next.1.1 notOpened
  | install _ next => exact absurd next.1.1 notOpened
  | readSection _ _ _ _ _ reads => exact absurd reads.1.1 notOpened
  | readData _ _ _ _ _ _ reads => exact absurd reads.1.1 notOpened
  | readFooter _ _ _ _ _ reads => exact absurd reads.1.1 notOpened
  | dispatch reads => exact absurd reads.1 notOpened
  | finishRead reads => exact absurd reads.1 notOpened
  | readAck _ _ _ _ reads => rcases reads with reads | reads <;> exact absurd reads.1 notOpened
  | processAck reads => rcases reads with reads | reads <;> exact absurd reads.1 notOpened

theorem Opened.step (opened : Opened before) (stamped : before.Stamped)
    (calm : ∀ entry ∈ after.log, entry.spoils = false) (act : Act before after) :
    after.con.sock = none ∨ after.con.state = .preopen ∨ Opened after := by
  obtain ⟨full, hello, offers, accepted, sending⟩ := opened.sending
  rcases sending.step stamped (fun entry rest equal => breaks_of_spoils (calm entry (by simp [equal]))) act with
    none_ | preopen | next
  · exact .inl none_
  · exact .inr (.inl preopen)
  · cases some_ : after.con.sock with
    | none => exact .inl rfl
    | some sock =>
      refine .inr (.inr ?_)
      cases act.logStep with
      | quiet added log quiet =>
        obtain ⟨stages, _, same⟩ := @quiet_append before.log added quiet
        rw [← log] at stages same
        exact ⟨by rw [some_]; rfl, stages.trans opened.replied, full, hello, (same full).mpr offers, accepted, next⟩
      | opened _ none_ =>
        have some_ := opened.open_
        rw [none_] at some_
        cases some_
      | shaking _ _ state =>
        rw [sending.state] at state
        simp at state

/-- A socket is opened when nothing of an earlier one is left to be written. -/
theorem greeting_of_opened {env : Env} {incoming : List UInt8} (ready : before.Ready)
    (clean : before.con.output.clean = true) :
    Greeting { before with
      env
      con := { before.con.opening with sock := some ⟨incoming, 0⟩ }
      sockNo := before.sockNo + 1
      wire := Function.update before.wire (before.sockNo + 1) []
      log := .opened before.con.output.clean before.msgr.myEncAddr :: before.log } := by
  simp only [Output.clean, Bool.decide_and, Bool.and_eq_true, decide_eq_true_eq] at clean
  have banner : (before.bytesAt .banner).length = cephBanner.length := rfl
  have addr : (before.bytesAt .myEncAddr).length = sizeofEntityAddr := ready.enc
  have none_ : (conOutKvecReset before.con.output).Holds [] := .of_left ready.size rfl rfl
  have one : ({ conOutKvecReset before.con.output with
      outKvec := before.con.output.outKvec.set 0 ⟨.banner, 0, cephBanner.length⟩
      outKvecLeft := 1, outKvecBytes := cephBanner.length } : Output).Holds [⟨.banner, 0, cephBanner.length⟩] :=
    none_.store rfl (show (0 : Nat) < 8 by decide) rfl rfl rfl (by rfl)
  have holds : before.con.opening.output.Holds
      [⟨.banner, 0, cephBanner.length⟩, ⟨.myEncAddr, 0, sizeofEntityAddr⟩] :=
    one.store rfl (show (1 : Nat) < 8 by decide) rfl rfl rfl (by rfl)
  have pending := holds.pending
  refine ⟨rfl, .inl ⟨rfl, rfl⟩, clean.1, clean.2, pending.symm ▸ holds, ?_, ?_, ?_, ?_, fun _ => ⟨rfl, fun _ => .inr ?_⟩⟩
  · simp only [pending]
    intro kvec member
    simp only [mem_cons, not_mem_nil, or_false] at member
    rcases member with rfl | rfl
    · exact fits_whole rfl
    · exact fits_whole addr
  · simp only [pending]
    intro kvec member
    simp only [mem_cons, not_mem_nil, or_false] at member
    rcases member with rfl | rfl <;> rfl
  · simp only [pending]
    intro _ kvec member
    simp only [mem_cons, not_mem_nil, or_false] at member
    rcases member with rfl | rfl
    · exact .inl rfl
    · exact .inr rfl
  · refine ⟨cephBanner ++ before.msgr.myEncAddr, rfl, ?_⟩
    rw [World.said, pendingBytes_eq]
    simp only [pending, Function.update_self, gather_cons, gather_nil, List.append_nil, nil_append]
    rw [read_whole (by exact banner), read_whole (by exact addr)]
    exact ⟨prefix_refl _, fun _ => rfl⟩
  · exact ⟨_, rfl, pending⟩

theorem World.Ready.of_same (ready : before.Ready)
    (size : after.con.output.outKvec.length = before.con.output.outKvec.length)
    (msgr : after.msgr.instAddr = before.msgr.instAddr ∧ after.msgr.myEncAddr = before.msgr.myEncAddr)
    (forMe : after.con.hello.peerAddrForMe = before.con.hello.peerAddrForMe)
    (sock : after.con.state = .negotiating ∨ after.con.state = .opened → after.con.sock.isSome) : after.Ready :=
  ⟨size.trans ready.size, by rw [msgr.1, ready.inst], by rw [msgr.2, ready.enc], by rw [forMe, ready.forMe], sock⟩

theorem length_conOutKvecAdd {output next : Output} {size : Nat} {data : Ref}
    (ran : conOutKvecAdd output size data = .ok next) : next.outKvec.length = output.outKvec.length := by
  unfold conOutKvecAdd at ran
  split at ran <;> cases ran
  exact length_set

theorem length_addAuthorizer {output next : Output}
    (ran : addAuthorizer output bytes = .ok next) : next.outKvec.length = output.outKvec.length := by
  unfold addAuthorizer at ran
  split at ran
  · cases ran
    rfl
  · exact length_conOutKvecAdd ran

theorem length_addMessageKvecs {output next : Output} {id : Nat} {msg : Msg}
    (ran : addMessageKvecs output id msg = .ok next) : next.outKvec.length = output.outKvec.length := by
  obtain ⟨tagged, first, ran⟩ := ok_of_bind ran
  obtain ⟨headed, second, ran⟩ := ok_of_bind ran
  obtain ⟨fronted, third, ran⟩ := ok_of_bind ran
  have same := (length_conOutKvecAdd third).trans ((length_conOutKvecAdd second).trans (length_conOutKvecAdd first))
  split at ran
  · cases ran
    exact same
  · exact (length_conOutKvecAdd ran).trans same

theorem World.Ready.prepareMessage (ready : before.Ready) (ran : prepareWriteMessage before = .ok (⟨⟩, after)) :
    after.Ready := by
  obtain ⟨_, _, con, kvecs, _, output, _, _, _, sneaked, added, payload, rfl⟩ := prepareWriteMessage_ok ran
  have last : output.outKvec.length = kvecs.outKvec.length := by
    obtain ⟨_, _, _, rfl⟩ | ⟨_, _, _, _, rfl⟩ := payload
    · exact length_set
    · rfl
  have middle : kvecs.outKvec.length = con.output.outKvec.length := (length_addMessageKvecs added :)
  obtain ⟨rfl, _⟩ | ⟨_, _, first, second, rfl⟩ := sneakAck_ok sneaked
  · exact ready.of_same (last.trans middle) ⟨rfl, rfl⟩ rfl ready.sock
  · have acked := (length_conOutKvecAdd second).trans (length_conOutKvecAdd first :)
    exact ready.of_same (last.trans (middle.trans acked)) ⟨rfl, rfl⟩ rfl ready.sock

theorem World.Ready.call {request : Call} (ready : before.Ready) (ran : request.step before = .ok (⟨⟩, after)) :
    after.Ready := by
  cases request with
  | send id =>
    obtain ⟨_, rfl⟩ | ⟨_, _, _, state, _, step, rfl⟩ := cephConSend_ok ran
    · exact ready.of_same rfl ⟨rfl, rfl⟩ rfl ready.sock
    · refine ready.of_same rfl ⟨rfl, rfl⟩ rfl ?_
      rcases step with rfl | ⟨_, rfl⟩
      · exact ready.sock
      · rintro (state | state) <;> cases state
  | revoke id =>
    have queued (world : World) (ready : world.Ready) : (revokeQueued id world).Ready := by
      unfold revokeQueued
      split
      · exact ready.of_same rfl ⟨rfl, rfl⟩ rfl ready.sock
      · exact ready
    have sending (world : World) (ready : world.Ready) : (revokeSending id world).Ready := by
      unfold revokeSending
      split
      · refine ready.of_same ?_ ⟨rfl, rfl⟩ rfl ready.sock
        simp only [World.note, withMsg, withOutput]
        split <;> rfl
      · exact ready
    change cephMsgRevoke id before = _ at ran
    unfold cephMsgRevoke at ran
    split at ran <;> cases ran
    · exact sending _ (queued _ ready)
    · exact ready
  | revokeIncoming id =>
    obtain rfl | ⟨_, _, _, rfl⟩ := cephMsgRevokeIncoming_ok ran
    · exact ready
    · exact ready.of_same rfl ⟨rfl, rfl⟩ rfl ready.sock
  | keepalive =>
    obtain ⟨state, _, _, _, step, rfl⟩ := cephConKeepalive_ok ran
    refine ready.of_same rfl ⟨rfl, rfl⟩ rfl ?_
    rcases step with rfl | ⟨_, rfl⟩
    · exact ready.sock
    · rintro (state | state) <;> cases state
  | close =>
    obtain ⟨_, rfl⟩ := cephConClose_ok ran
    exact ready.of_same rfl ⟨rfl, rfl⟩ rfl (by simp)
  | reopen type num addr =>
    cases ran
    exact ready.of_same rfl ⟨rfl, rfl⟩ rfl (by simp)
  | sockClosed =>
    cases ran
    exact ready.of_same rfl ⟨rfl, rfl⟩ rfl ready.sock
  | write id contents =>
    obtain rfl | ⟨_, _, rfl⟩ := fillMessage_ok ran
    · exact ready
    · exact ready.of_same rfl ⟨rfl, rfl⟩ rfl ready.sock

theorem World.Ready.step (act : Act before after) (ready : before.Ready) : after.Ready := by
  cases act with
  | call request ran => exact ready.call ran
  | fault ran =>
    obtain ⟨_, rfl⟩ | ⟨_, _, state, _, _, either, rfl⟩ := conFault_ok ran
    · exact ready.of_same rfl ⟨rfl, rfl⟩ rfl (by simp)
    · exact ready.of_same rfl ⟨rfl, rfl⟩ rfl (by rcases either with rfl | rfl <;> simp)
  | openSocket _ ran =>
    obtain ⟨_, _, ⟨_, _, rfl⟩ | ⟨_, _, _, rfl⟩⟩ := openSocket_ok ran <;>
      exact ready.of_same (by simp [Con.opening]) ⟨rfl, rfl⟩ rfl (by simp [Con.opening])
  | writeKvec _ _ _ _ _ _ _ ran =>
    refine ready.of_same ?_ ⟨rfl, rfl⟩ rfl ready.sock
    obtain ⟨_, _, rfl⟩ | ⟨_, _, _, _, _, _, rfl⟩ := advanceKvecs_cases ran
    · rfl
    · exact length_modify _ _ _
  | queueFooter _ _ _ _ _ ran =>
    obtain ⟨_, rfl⟩ := prepareWriteMessageFooter_ok ran
    exact ready.of_same length_set ⟨rfl, rfl⟩ rfl ready.sock
  | prepareMessage _ _ ran => exact ready.prepareMessage ran
  | prepareAck _ _ ran =>
    obtain ⟨_, _, first, second, rfl⟩ := prepareWriteAck_ok ran
    have acked := (length_conOutKvecAdd second).trans (length_conOutKvecAdd first :)
    exact ready.of_same acked ⟨rfl, rfl⟩ rfl ready.sock
  | prepareKeepalive _ _ ran =>
    obtain ⟨_, first, rfl⟩ := prepareWriteKeepalive_ok ran
    exact ready.of_same (length_conOutKvecAdd first :) ⟨rfl, rfl⟩ rfl ready.sock
  | readHello _ _ _ _ _ _ _ addr => exact ⟨ready.size, ready.inst, ready.enc, addr ready.forMe, fun _ => rfl⟩
  | greet _ open_ ran =>
    obtain ⟨_, hello, _, addr, rfl⟩ | ⟨_, rfl⟩ := processBanner_ok ran
    · refine ⟨ready.size, ready.inst, ready.enc, ?_, ready.sock⟩
      rcases addr with same | swapped
      · exact (congrArg List.length same).trans ready.forMe
      · exact (congrArg List.length swapped).trans (length_swapFamily ready.forMe)
    · obtain ⟨inst, enc⟩ := length_learnAddr ready.inst ready.enc (length_swapFamily ready.forMe)
      exact ⟨ready.size, inst, enc, length_swapFamily ready.forMe, fun _ => open_⟩
  | negotiate _ _ _ addr => exact ready.of_same rfl ⟨rfl, rfl⟩ addr ready.sock
  | queueConnect _ ran =>
    obtain ⟨_, _, _, _, addr, first, second, rfl⟩ := queueConnect_ok ran
    exact ready.of_same ((length_addAuthorizer second).trans (length_conOutKvecAdd first)) ⟨rfl, rfl⟩ addr ready.sock
  | adopt _ _ _ _ addr => exact ready.of_same rfl ⟨rfl, rfl⟩ addr ready.sock
  | reset _ _ ran =>
    obtain ⟨_, rfl⟩ := resetConnection_ok ran
    exact ready.of_same rfl ⟨rfl, rfl⟩ rfl ready.sock
  | accept _ _ _ _ _ _ state _ _ addr seq =>
    refine ready.of_same ?_ ⟨rfl, rfl⟩ addr fun _ => ready.sock (.inl state)
    rcases seq with rfl | added
    · rfl
    · exact (length_conOutKvecAdd added :)
  | tagClose => exact ready.of_same rfl ⟨rfl, rfl⟩ rfl (by simp)
  | setCrc section_ => cases section_ <;> exact ready.of_same rfl ⟨rfl, rfl⟩ rfl ready.sock
  | dispatch _ ran =>
    obtain ⟨_, _, _, _, rfl⟩ := takeInMsg_cases ran
    exact ready.of_same rfl ⟨rfl, rfl⟩ rfl ready.sock
  | processAck _ ran =>
    obtain ⟨_, rfl⟩ := processAck_ok ran
    exact ready.of_same rfl ⟨rfl, rfl⟩ rfl ready.sock
  | discard => exact ready.of_same rfl ⟨rfl, rfl⟩ rfl fun _ => rfl
  | tagMsg => exact ready.of_same rfl ⟨rfl, rfl⟩ rfl fun _ => rfl
  | tagOther => exact ready.of_same rfl ⟨rfl, rfl⟩ rfl fun _ => rfl
  | readHdr => exact ready.of_same rfl ⟨rfl, rfl⟩ rfl fun _ => rfl
  | readSection => exact ready.of_same rfl ⟨rfl, rfl⟩ rfl fun _ => rfl
  | readData => exact ready.of_same rfl ⟨rfl, rfl⟩ rfl fun _ => rfl
  | readFooter => exact ready.of_same rfl ⟨rfl, rfl⟩ rfl fun _ => rfl
  | readAck => exact ready.of_same rfl ⟨rfl, rfl⟩ rfl fun _ => rfl
  | _ => exact ready.of_same rfl ⟨rfl, rfl⟩ rfl ready.sock

theorem Accepted.of_prefix {full hello : List UInt8} (accepted : Accepted full hello) (part : bytes <+: hello) :
    Accepted full bytes := by
  obtain ⟨first, seq, number, offered, numbered, rfl⟩ := accepted
  rcases prefix_or_prefix_of_prefix part (prefix_append first seq) with within | ⟨more, rfl⟩
  · exact ⟨bytes, [], number, within.trans offered, nil_prefix, (List.append_nil _).symm⟩
  · exact ⟨first, more, number, offered, ((prefix_append_right_inj first).mp part).trans numbered, rfl⟩

theorem Greeting.spoken (greeting : Greeting before) : Spoken before.log (before.wire before.sockNo) := by
  obtain ⟨full, offers, part, _⟩ := greeting.offers
  exact ⟨full, offers, .inl ((prefix_append _ _).trans part)⟩

theorem Opened.spoken (opened : Opened before) : Spoken before.log (before.wire before.sockNo) := by
  obtain ⟨full, hello, offers, accepted, sending⟩ := opened.sending
  refine ⟨full, offers, .inr ⟨opened.replied, ?_⟩⟩
  obtain ⟨body, _, equal⟩ := sending.whole (replicate before.owed 0) length_replicate
  have part : before.wire before.sockNo <+: hello ++ body := by
    rw [← equal, World.said, append_assoc]
    exact prefix_append _ _
  rcases prefix_or_prefix_of_prefix part (prefix_append hello body) with within | beyond
  · exact ⟨_, [], accepted.of_prefix within, (List.append_nil _).symm, .nil⟩
  · obtain ⟨session, written, framed⟩ := sending.framed beyond
    exact ⟨hello, session, accepted, written, framed⟩

/-- The socket is closed or the connection is to be opened again, or the
handshake goes on, or the connection is open. -/
structure Shaken (world : World) : Prop where
  stamped : world.Stamped
  ready : world.Ready
  live : (∀ entry ∈ world.log, entry.spoils = false) →
    world.con.sock = none ∨ world.con.state = .preopen ∨ Greeting world ∨ Opened world
  spoken : (∀ entry ∈ world.log, entry.spoils = false) → stage world.log ≠ .unopened →
    Spoken world.log (world.wire world.sockNo)

theorem Shaken.live_step (act : Act before after) (shaken : Shaken before)
    (calm : ∀ entry ∈ after.log, entry.spoils = false) :
    after.con.sock = none ∨ after.con.state = .preopen ∨ Greeting after ∨ Opened after := by
  have shut (closed : before.con.sock = none ∨ before.con.state = .preopen) :
      after.con.sock = none ∨ after.con.state = .preopen ∨ Greeting after ∨ Opened after := by
    cases act.socketStep with
    | still sock _ _ preopen =>
      rcases closed with none_ | state
      · refine .inl (sock.elim id fun same => ?_)
        rw [none_] at same
        simpa using same
      · exact (preopen state).elim (fun state => .inr (.inl state)) .inl
    | opened _ _ _ _ equal =>
      obtain ⟨env, incoming, rfl⟩ := equal
      have clean := calm _ mem_cons_self
      simp only [Entry.spoils, Bool.not_eq_false'] at clean
      exact .inr (.inr (.inl (greeting_of_opened shaken.ready clean)))
    | wrote _ open_ state =>
      rcases closed with none_ | preopen
      · rw [none_] at open_
        cases open_
      · exact absurd preopen state
  rcases shaken.live fun entry member => calm entry (act.log_suffix.subset member) with
    none_ | preopen | greeting | opened
  · exact shut (.inl none_)
  · exact shut (.inr preopen)
  · exact greeting.step shaken.ready calm act
  · rcases opened.step shaken.stamped calm act with none_ | preopen | opened
    · exact .inl none_
    · exact .inr (.inl preopen)
    · exact .inr (.inr (.inr opened))

theorem Shaken.spoken_of_shut (act : Act before after) (shaken : Shaken before)
    (calm : ∀ entry ∈ after.log, entry.spoils = false)
    (closed : after.con.sock = none ∨ after.con.state = .preopen) (stages : stage after.log ≠ .unopened) :
    Spoken after.log (after.wire after.sockNo) := by
  have earlier : ∀ entry ∈ before.log, entry.spoils = false := fun entry member =>
    calm entry (act.log_suffix.subset member)
  cases act.socketStep with
  | still _ sockNo wire =>
    cases act.logStep with
    | quiet added log quiet =>
      obtain ⟨same, _, offers⟩ := @quiet_append before.log added quiet
      rw [log, same] at stages
      obtain ⟨full, offered, written⟩ := shaken.spoken earlier stages
      rw [wire, sockNo, log, Spoken, same]
      exact ⟨full, (offers full).mpr offered, written⟩
    | opened _ _ next => omega
    | shaking _ _ state still =>
      have some_ : before.con.sock.isSome := state.elim And.right fun state => shaken.ready.sock (.inl state)
      rcases closed with none_ | preopen
      · rw [← still.1, none_] at some_
        cases some_
      · exact absurd (still.2.symm.trans preopen) nofun
  | opened _ _ _ _ equal =>
    obtain ⟨env, incoming, rfl⟩ := equal
    rcases closed with none_ | preopen
    · cases none_
    · cases preopen
  | wrote _ open_ state same =>
    rcases closed with none_ | preopen
    · rw [← same.1, none_] at open_
      cases open_
    · exact absurd (same.2.symm.trans preopen) state

theorem Shaken.step (act : Act before after) (shaken : Shaken before) : Shaken after := by
  refine ⟨shaken.stamped.step act, shaken.ready.step act, shaken.live_step act, fun calm stages => ?_⟩
  rcases shaken.live_step act calm with none_ | preopen | greeting | opened
  · exact shaken.spoken_of_shut act calm (.inl none_) stages
  · exact shaken.spoken_of_shut act calm (.inr preopen) stages
  · exact greeting.spoken
  · exact opened.spoken

end

structure World.Unopened (world : World) : Prop where
  sock : world.con.sock = none
  state : world.con.state ≠ .negotiating ∧ world.con.state ≠ .opened
  size : world.con.output.outKvec.length = 8
  inst : world.msgr.instAddr.length = sizeofEntityAddr
  enc : world.msgr.myEncAddr.length = sizeofEntityAddr
  forMe : world.con.hello.peerAddrForMe.length = sizeofEntityAddr
  outMsg : world.con.output.outMsg = none
  msgs : ∀ id, (world.msgs id).con = false
  log : world.log = []

theorem World.Unopened.shaken {world : World} (unopened : world.Unopened) : Shaken world := by
  refine ⟨fun id held => ?_, ⟨unopened.size, unopened.inst, unopened.enc, unopened.forMe, ?_⟩,
    fun _ => .inl unopened.sock, fun _ stages => ?_⟩
  · simp [unopened.msgs, unopened.outMsg] at held
  · exact fun state => absurd state (not_or.mpr unopened.state)
  · rw [unopened.log] at stages
    exact absurd rfl stages

theorem runEvents_shaken (bound : Nat) (events : List Event) {start : World} (unopened : start.Unopened) :
    Shaken (outcome (runEvents bound events) start) :=
  runEvents_preserves (fun _ _ act shaken => shaken.step act) bound events unopened.shaken

/-- In every run in which sockets are opened when no message is being sent and
banners are answered before a kvec has been passed, the bytes written on a
socket before the first reply are the banner, the own address, the connect
request and the authorizer, as far as they have been written. -/
theorem handshake_bytes (bound : Nat) (events : List Event) (start : World) (unopened : start.Unopened)
    (calm : ∀ entry ∈ (outcome (runEvents bound events) start).log, entry.spoils = false) :
    let world := outcome (runEvents bound events) start
    stage world.log ≠ .unopened → stage world.log ≠ .replied →
    ∃ own ∈ addresses world.log,
      world.wire world.sockNo <+: cephBanner ++ own ++ request world.log ∧
      (world.con.sock.isSome → world.con.state = .connecting ∨ world.con.state = .negotiating →
        world.con.output.outKvecLeft = 0 → world.wire world.sockNo = cephBanner ++ own ++ request world.log) := by
  intro world opened unreplied
  have shaken : Shaken world := runEvents_shaken bound events unopened
  have closed (shut : world.con.sock = none ∨ world.con.state = .preopen) : ∃ own ∈ addresses world.log,
      world.wire world.sockNo <+: cephBanner ++ own ++ request world.log ∧
      (world.con.sock.isSome → world.con.state = .connecting ∨ world.con.state = .negotiating →
        world.con.output.outKvecLeft = 0 →
          world.wire world.sockNo = cephBanner ++ own ++ request world.log) := by
    obtain ⟨full, offers, written⟩ := shaken.spoken calm opened
    obtain ⟨own, member, rfl⟩ := offers.first unreplied
    refine ⟨own, member, written.resolve_right fun replied => unreplied replied.1, fun some_ state => ?_⟩
    rcases shut with none_ | preopen
    · rw [none_] at some_
      cases some_
    · rw [preopen] at state
      simp at state
  rcases shaken.live calm with none_ | preopen | greeting | accepted
  · exact closed (.inl none_)
  · exact closed (.inr preopen)
  · obtain ⟨full, offers, _, whole⟩ := greeting.offers
    obtain ⟨own, member, rfl⟩ := offers.first unreplied
    refine ⟨own, member, ?_⟩
    rw [← whole unreplied]
    refine ⟨prefix_append _ _, fun _ _ left => ?_⟩
    have none_ : world.con.output.pending = [] :=
      eq_nil_of_length_eq_zero (by rw [← greeting.holds.left, left])
    rw [World.said, pendingBytes_eq, none_, gather_nil, List.append_nil]
  · exact absurd accepted.replied unreplied

def freshWorld : World :=
  World.init (cephMessengerInit ⟨8, 0⟩ (replicate 136 0) (replicate 4 0) 0 0 false)
    (fun _ => cephMsgNew 0 [7])

theorem freshWorld_unopened : freshWorld.Unopened where
  sock := rfl
  state := ⟨nofun, nofun⟩
  size := rfl
  inst := by decide +kernel
  enc := by decide +kernel
  forMe := by decide +kernel
  outMsg := rfl
  msgs _ := rfl
  log := rfl

def openingEvents (sends : List Int) : List Event :=
  [.call (.reopen 1 0 (replicate 136 0)),
    .work { Env.silent with
      connects := [(0, cephBanner ++ replicate 272 0 ++ [cephMsgrTagReady] ++ replicate 25 0)], sends },
    .work { Env.silent with recvs := [9, 136, 136], sends := [33] }]

theorem openingEvents_calm :
    ∀ entry ∈ (outcome (runEvents 20 (openingEvents [145])) freshWorld).log, entry.spoils = false := by
  decide +kernel

theorem openingEvents_asked :
    let world := outcome (runEvents 20 (openingEvents [145])) freshWorld
    stage world.log = .asked ∧ world.con.sock.isSome = true ∧ world.con.state = .negotiating ∧
      world.con.output.outKvecLeft = 0 ∧ (world.wire world.sockNo).length = 178 := by
  decide +kernel

theorem handshake_bytes_opening :
    let world := outcome (runEvents 20 (openingEvents [145])) freshWorld
    (world.wire world.sockNo).length = 178 ∧ ∃ own ∈ addresses world.log,
      world.wire world.sockNo = cephBanner ++ own ++ request world.log := by
  obtain ⟨asked, open_, state, left, length⟩ := openingEvents_asked
  have opened : stage (outcome (runEvents 20 (openingEvents [145])) freshWorld).log ≠ .unopened := by
    rw [asked]
    exact nofun
  have unreplied : stage (outcome (runEvents 20 (openingEvents [145])) freshWorld).log ≠ .replied := by
    rw [asked]
    exact nofun
  obtain ⟨own, member, _, whole⟩ :=
    handshake_bytes 20 (openingEvents [145]) freshWorld freshWorld_unopened openingEvents_calm opened unreplied
  exact ⟨length, own, member, whole open_ (.inr state) left⟩

theorem repeatedEvents_asked :
    let world := outcome (runEvents 20 (openingEvents [10, 135])) freshWorld
    stage world.log = .asked ∧ ∀ own ∈ addresses world.log,
      ¬ world.wire world.sockNo <+: cephBanner ++ own ++ request world.log := by
  decide +kernel

/-- `con_out_kvec_add` counts from the first kvec when that one has been passed,
and what is written then is the address again. -/
theorem handshake_bytes_repeated : ¬ ∀ (bound : Nat) (events : List Event) (start : World), start.Unopened →
    let world := outcome (runEvents bound events) start
    stage world.log ≠ .unopened → stage world.log ≠ .replied →
    ∃ own ∈ addresses world.log,
      world.wire world.sockNo <+: cephBanner ++ own ++ request world.log ∧
      (world.con.sock.isSome → world.con.state = .connecting ∨ world.con.state = .negotiating →
        world.con.output.outKvecLeft = 0 →
          world.wire world.sockNo = cephBanner ++ own ++ request world.log) := by
  intro holds
  obtain ⟨asked, none_⟩ := repeatedEvents_asked
  have opened : stage (outcome (runEvents 20 (openingEvents [10, 135])) freshWorld).log ≠ .unopened := by
    rw [asked]
    exact nofun
  have unreplied : stage (outcome (runEvents 20 (openingEvents [10, 135])) freshWorld).log ≠ .replied := by
    rw [asked]
    exact nofun
  obtain ⟨own, member, part, _⟩ := holds 20 (openingEvents [10, 135]) freshWorld freshWorld_unopened opened unreplied
  exact none_ own member part

/-- In every such run nothing but the handshake is written on a socket while the
connection is being opened, and what is written after that are frames. -/
theorem frames_after_handshake (bound : Nat) (events : List Event) (start : World) (unopened : start.Unopened)
    (calm : ∀ entry ∈ (outcome (runEvents bound events) start).log, entry.spoils = false) :
    let world := outcome (runEvents bound events) start
    stage world.log ≠ .unopened →
    Spoken world.log (world.wire world.sockNo) ∧
    (world.con.sock.isSome → world.con.state = .connecting ∨ world.con.state = .negotiating →
      ∃ full, Offers world.log full ∧ world.wire world.sockNo <+: full) := by
  intro world opened
  have shaken : Shaken world := runEvents_shaken bound events unopened
  refine ⟨shaken.spoken calm opened, fun some_ state => ?_⟩
  rcases shaken.live calm with none_ | preopen | greeting | accepted
  · rw [none_] at some_
    cases some_
  · rw [preopen] at state
    simp at state
  · obtain ⟨full, offers, part, _⟩ := greeting.offers
    exact ⟨full, offers, (prefix_append _ _).trans part⟩
  · obtain ⟨_, _, _, _, sending⟩ := accepted.sending
    rw [sending.state] at state
    simp at state

def dataEvents (length : Int) : List Event :=
  openingEvents [145] ++
    [.work { Env.silent with recvs := [26] },
      .call (.write 3 { cephMsgNew 0 [7] with
        hdr := { (cephMsgNew 0 [7]).hdr with dataLen := 20 }
        data := [.pages [replicate 4096 5] 20 0], dataLength := 20 }),
      .call (.send 3), .work { Env.silent with sends := [55, length] }]

theorem dataEvents_calm :
    ∀ entry ∈ (outcome (runEvents 20 (dataEvents 20)) freshWorld).log, entry.spoils = false := by
  decide +kernel

theorem dataEvents_replied :
    let world := outcome (runEvents 20 (dataEvents 20)) freshWorld
    stage world.log ≠ .unopened ∧ (world.wire world.sockNo).length = 253 := by
  decide +kernel

theorem frames_after_handshake_data :
    let world := outcome (runEvents 20 (dataEvents 20)) freshWorld
    (world.wire world.sockNo).length = 253 ∧ Spoken world.log (world.wire world.sockNo) := by
  obtain ⟨opened, length⟩ := dataEvents_replied
  have spoken := frames_after_handshake 20 (dataEvents 20) freshWorld freshWorld_unopened dataEvents_calm opened
  exact ⟨length, spoken.1⟩

def reconnectEvents : List Event :=
  dataEvents 10 ++ [.work { Env.silent with recvs := [-104] }, .work Env.silent,
    .work { Env.silent with connects := [(0, [])], sends := [145, 10] }]

theorem reconnectEvents_opened :
    let world := outcome (runEvents 20 reconnectEvents) freshWorld
    stage world.log = .opened ∧ world.con.sock.isSome = true ∧ world.con.state = .connecting ∧
      ∀ own ∈ addresses world.log, ¬ world.wire world.sockNo <+: cephBanner ++ own ++ request world.log := by
  decide +kernel

/-- `con_fault` keeps `out_msg`, and the rest of its data follows the banner on
the next socket. -/
theorem data_in_handshake : ¬ ∀ (bound : Nat) (events : List Event) (start : World), start.Unopened →
    let world := outcome (runEvents bound events) start
    stage world.log ≠ .unopened →
    Spoken world.log (world.wire world.sockNo) ∧
    (world.con.sock.isSome → world.con.state = .connecting ∨ world.con.state = .negotiating →
      ∃ full, Offers world.log full ∧ world.wire world.sockNo <+: full) := by
  intro holds
  have spoken := holds 20 reconnectEvents freshWorld freshWorld_unopened
  have opened := reconnectEvents_opened
  generalize outcome (runEvents 20 reconnectEvents) freshWorld = world at spoken opened
  obtain ⟨stages, open_, state, none_⟩ := opened
  obtain ⟨full, offers, part⟩ := (spoken (by rw [stages]; exact nofun)).2 open_ (.inl state)
  obtain ⟨own, member, rfl⟩ := offers.first (by rw [stages]; exact nofun)
  exact none_ own member part

end KmodCeph.Messenger
