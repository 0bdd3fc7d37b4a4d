import KmodCeph.Auth.Tickets

namespace KmodCeph.Auth

open Lib Function Nat

section

variable {want : WantedKeys} {alloc : BitVec 32 → Bool} {client before : AuthClient} {bit other : Nat}

theorem getLsbD_service (bit other : Nat) : (service bit).getLsbD other = (decide (bit < 32) && decide (bit = other)) := by
  rw [service, BitVec.getLsbD_twoPow]

theorem and_service_eq_zero {keys : BitVec 32} (bound : bit < 32) : keys &&& service bit = 0 ↔ keys.getLsbD bit = false := by
  rw [service, BitVec.and_twoPow]
  constructor
  · intro zero
    by_contra holds
    rw [Bool.not_eq_false] at holds
    rw [if_pos holds] at zero
    have bitZero := congrArg (BitVec.getLsbD · bit) zero
    simp [bound] at bitZero
  · intro absent
    rw [absent]
    rfl

theorem service_injective (bound : bit < 32) (same : service bit = service other) : bit = other := by
  have bits := congrArg (BitVec.getLsbD · bit) same
  simp only [getLsbD_service, bound] at bits
  simp at bits
  exact bits.2.symm

namespace WantedKeys

theorem lt_of_wanted (wanted : want.keys.getLsbD bit = true) : 2 ^ bit ≤ want.keys.toNat :=
  ge_two_pow_of_testBit wanted

theorem bit_lt (wanted : want.keys.getLsbD bit = true) : bit < 30 := by
  have below := lt_of_wanted wanted
  have small := want.small
  by_contra large
  have powers : 2 ^ 30 ≤ 2 ^ bit := Nat.pow_le_pow_right (by decide) (by omega)
  omega

end WantedKeys

namespace AuthClient

def needs (client : AuthClient) (bit : Nat) : Bool :=
  !client.haveKeys.getLsbD bit ||
    match client.handlers (service bit) with
    | none => true
    | some handler => decide (handler.renewAfter ≤ client.clock)

/-- Whether a validation finds that the ticket of a service expired. A new handler is one that expired. -/
def lapsed (client : AuthClient) (alloc : BitVec 32 → Bool) (bit : Nat) : Bool :=
  match client.handlers (service bit) with
  | none => alloc (service bit)
  | some handler => decide (handler.expires ≤ client.clock)

structure Validated (want : WantedKeys) (alloc : BitVec 32 → Bool) (before : AuthClient) (bit : Nat)
    (need : BitVec 32) (client : AuthClient) : Prop where
  clock : client.clock = before.clock
  invalidated : client.invalidated = before.invalidated
  need : ∀ other, need.getLsbD other = (want.keys.getLsbD other &&
    if other < bit then before.needs other else !before.haveKeys.getLsbD other)
  haveKeys : ∀ other, client.haveKeys.getLsbD other = (before.haveKeys.getLsbD other &&
    !(decide (other < bit) && want.keys.getLsbD other && before.lapsed alloc other))
  found : ∀ type handler, before.handlers type = some handler → client.handlers type = some handler
  fresh : ∀ type handler, client.handlers type = some handler →
    before.handlers type = some handler ∨ before.handlers type = none ∧ handler = .blank type
  ahead : ∀ other < 32, bit ≤ other → client.handlers (service other) = before.handlers (service other)

theorem validated_init : Validated want alloc before 0 (want.keys &&& ~~~before.haveKeys) before where
  clock := rfl
  invalidated := rfl
  need other := by
    by_cases wanted : want.keys.getLsbD other
    · have bound := WantedKeys.bit_lt wanted
      simp [show other < 32 by omega]
    · simp [wanted]
  haveKeys other := by simp
  found _ _ held := held
  fresh _ _ held := .inl held
  ahead _ _ _ := rfl

theorem Validated.skipped {need : BitVec 32} (validated : Validated want alloc before bit need client)
    (settled : want.keys.getLsbD bit = true → before.haveKeys.getLsbD bit = false) :
    Validated want alloc before (bit + 1) need client where
  clock := validated.clock
  invalidated := validated.invalidated
  need other := by
    rw [validated.need other]
    by_cases here : other = bit
    · subst here
      by_cases wanted : want.keys.getLsbD other
      · simp [needs, settled wanted]
      · simp [wanted]
    · simp only [show other < bit + 1 ↔ other < bit by omega]
  haveKeys other := by
    rw [validated.haveKeys other]
    by_cases here : other = bit
    · subst here
      by_cases wanted : want.keys.getLsbD other
      · simp [settled wanted]
      · simp [wanted]
    · simp only [show other < bit + 1 ↔ other < bit by omega]
  found := validated.found
  fresh := validated.fresh
  ahead other bound later := validated.ahead other bound (by omega)

theorem Validated.checked {need after : BitVec 32} {result : AuthClient} (bound : bit < 32)
    (validated : Validated want alloc before bit need client) (wanted : want.keys.getLsbD bit = true)
    (clock : result.clock = client.clock) (invalidated : result.invalidated = client.invalidated)
    (needed : ∀ other, after.getLsbD other = if other = bit then before.needs bit else need.getLsbD other)
    (kept : ∀ other, result.haveKeys.getLsbD other =
      (client.haveKeys.getLsbD other && !(decide (other = bit) && before.lapsed alloc bit)))
    (handlers : result.handlers = client.handlers ∨ client.handlers (service bit) = none ∧
      result.handlers = update client.handlers (service bit) (some (.blank (service bit)))) :
    Validated want alloc before (bit + 1) after result where
  clock := clock.trans validated.clock
  invalidated := invalidated.trans validated.invalidated
  need other := by
    rw [needed]
    by_cases here : other = bit
    · rw [if_pos here, here, if_pos (lt_succ_self _), wanted, Bool.true_and]
    · rw [if_neg here, validated.need other]
      simp only [show other < bit + 1 ↔ other < bit by lia]
  haveKeys other := by
    rw [kept, validated.haveKeys other]
    by_cases here : other = bit
    · subst here
      simp [wanted]
    · simp [here, show other < bit + 1 ↔ other < bit by lia]
  found type handler held := by
    have held := validated.found type handler held
    rcases handlers with same | ⟨missing, added⟩
    · rw [same, held]
    · have differs : type ≠ service bit := by
        rintro rfl
        rw [missing] at held
        cases held
      rw [added, update_of_ne differs, held]
  fresh type handler held := by
    rcases handlers with same | ⟨missing, added⟩
    · exact validated.fresh type handler (same ▸ held)
    · by_cases here : type = service bit
      · subst here
        rw [added, update_self] at held
        have blank := (Option.some.inj held).symm
        refine .inr ⟨?_, blank⟩
        rw [← validated.ahead bit bound le_rfl, missing]
      · rw [added, update_of_ne here] at held
        exact validated.fresh type handler held
  ahead other below later := by
    have same := validated.ahead other below (by omega)
    rcases handlers with unchanged | ⟨-, added⟩
    · rw [unchanged, same]
    · have differs : service other ≠ service bit := by
        intro equal
        have bits := service_injective below equal
        omega
      rw [added, update_of_ne differs, same]

theorem validateService_validated {need : BitVec 32} (bound : bit < 32)
    (validated : Validated want alloc before bit need client) :
    Validated want alloc before (bit + 1) (client.validateService want alloc bit need).1
      (client.validateService want alloc bit need).2 := by
  unfold validateService
  split
  · next unwanted =>
    rw [and_service_eq_zero bound] at unwanted
    exact validated.skipped fun wanted => by rw [unwanted] at wanted; cases wanted
  · next wanted =>
    rw [and_service_eq_zero bound, Bool.not_eq_false] at wanted
    have needed := validated.need bit
    rw [if_neg (Nat.lt_irrefl _), wanted, Bool.true_and] at needed
    split
    · next missing =>
      rw [Ne, and_service_eq_zero bound, Bool.not_eq_false] at missing
      rw [missing] at needed
      exact validated.skipped fun _ => by simpa using needed.symm
    · next present =>
      rw [not_not, and_service_eq_zero bound] at present
      rw [present] at needed
      have held : before.haveKeys.getLsbD bit = true := by simpa using needed.symm
      have same := validated.ahead bit bound le_rfl
      have orBit : ∀ other, (need ||| service bit).getLsbD other =
          if other = bit then true else need.getLsbD other := by
        intro other
        rw [BitVec.getLsbD_or, getLsbD_service]
        by_cases here : other = bit
        · simp [here, bound]
        · simp [here, Ne.symm here]
      have andBit : ∀ other, (client.haveKeys &&& ~~~service bit).getLsbD other =
          (client.haveKeys.getLsbD other && !decide (other = bit)) := by
        intro other
        rw [BitVec.getLsbD_and, BitVec.getLsbD_not, getLsbD_service]
        by_cases below : other < 32
        · simp [below, bound, @eq_comm _ bit]
        · rw [BitVec.getLsbD_of_ge _ _ (by omega)]
          simp
      unfold getTicketHandler
      cases looked : client.handlers (service bit) with
      | none =>
        rw [looked] at same
        have needs : before.needs bit = true := by simp [AuthClient.needs, ← same]
        by_cases allocated : alloc (service bit) = true
        · have lapses : before.lapsed alloc bit = true := by simp [lapsed, ← same, allocated]
          rw [if_pos allocated]
          dsimp only
          have expired : (TicketHandler.blank (service bit)).expires ≤ client.clock := zero_le _
          have due : (TicketHandler.blank (service bit)).renewAfter ≤ client.clock := zero_le _
          rw [if_pos expired, if_pos due]
          refine validated.checked bound wanted rfl rfl (fun other => ?_) (fun other => ?_) (.inr ⟨looked, rfl⟩)
          · rw [orBit, needs]
          · rw [andBit, lapses, Bool.and_true]
        · have lasts : before.lapsed alloc bit = false := by simp [lapsed, ← same, allocated]
          rw [if_neg allocated]
          refine validated.checked bound wanted rfl rfl (fun other => ?_) (fun other => ?_) (.inl rfl)
          · rw [orBit, needs]
          · rw [lasts, Bool.and_false, Bool.not_false, Bool.and_true]
      | some handler =>
        rw [looked] at same
        have needs : before.needs bit = decide (handler.renewAfter ≤ client.clock) := by
          simp [AuthClient.needs, held, ← same, validated.clock]
        have lapses : before.lapsed alloc bit = decide (handler.expires ≤ client.clock) := by
          simp [lapsed, ← same, validated.clock]
        have neededAfter : ∀ other,
            (if handler.renewAfter ≤ client.clock then need ||| service bit else need).getLsbD other =
              if other = bit then before.needs bit else need.getLsbD other := by
          intro other
          rw [needs]
          by_cases due : handler.renewAfter ≤ client.clock
          · rw [if_pos due, orBit, decide_eq_true due]
          · rw [if_neg due, decide_eq_false due]
            by_cases here : other = bit
            · rw [if_pos here, here, present]
            · rw [if_neg here]
        dsimp only
        split
        · next expired =>
          refine validated.checked bound wanted rfl rfl neededAfter (fun other => ?_) (.inl rfl)
          rw [andBit, lapses, decide_eq_true expired, Bool.and_true]
        · next lasting =>
          refine validated.checked bound wanted rfl rfl neededAfter (fun other => ?_) (.inl rfl)
          rw [lapses, decide_eq_false lasting, Bool.and_false, Bool.not_false, Bool.and_true]

theorem validateFrom_validated (fuel : Nat) {need : BitVec 32} (bound : bit + fuel = 31)
    (validated : Validated want alloc before bit need client) :
    ∃ last, (∀ other, want.keys.getLsbD other = true → other < last) ∧
      Validated want alloc before last (client.validateFrom want alloc fuel bit need).1
        (client.validateFrom want alloc fuel bit need).2 := by
  induction fuel generalizing bit need client with
  | zero =>
    refine ⟨bit, ?_, validated⟩
    intro other wanted
    have below := WantedKeys.bit_lt wanted
    omega
  | succ fuel ih =>
    rw [validateFrom]
    split
    · apply ih (by omega)
      exact validateService_validated (by omega) validated
    · next beyond =>
      refine ⟨bit, ?_, validated⟩
      intro other wanted
      have reached := WantedKeys.lt_of_wanted wanted
      rw [BitVec.le_def, service, BitVec.toNat_twoPow_of_lt (by omega)] at beyond
      by_contra later
      have powers : 2 ^ bit ≤ 2 ^ other := Nat.pow_le_pow_right (by decide) (by omega)
      omega

structure Checked (want : WantedKeys) (alloc : BitVec 32 → Bool) (before : AuthClient) (need : BitVec 32)
    (client : AuthClient) : Prop where
  clock : client.clock = before.clock
  invalidated : client.invalidated = before.invalidated
  need : ∀ other, need.getLsbD other = (want.keys.getLsbD other && before.needs other)
  haveKeys : ∀ other, client.haveKeys.getLsbD other =
    (before.haveKeys.getLsbD other && !(want.keys.getLsbD other && before.lapsed alloc other))
  found : ∀ type handler, before.handlers type = some handler → client.handlers type = some handler
  fresh : ∀ type handler, client.handlers type = some handler →
    before.handlers type = some handler ∨ before.handlers type = none ∧ handler = .blank type

theorem validateTickets_checked (want : WantedKeys) (alloc : BitVec 32 → Bool) (client : AuthClient) :
    Checked want alloc client (client.validateTickets want alloc).1 (client.validateTickets want alloc).2 := by
  obtain ⟨last, behind, validated⟩ := validateFrom_validated 31 (Nat.zero_add 31) (@validated_init want alloc client)
  refine ⟨validated.clock, validated.invalidated, ?_, ?_, validated.found, validated.fresh⟩
  · intro other
    rw [validateTickets, validated.need other]
    by_cases wanted : want.keys.getLsbD other = true
    · rw [if_pos (behind other wanted)]
    · rw [Bool.eq_false_of_not_eq_true wanted, Bool.false_and, Bool.false_and]
  · intro other
    rw [validateTickets, validated.haveKeys other]
    by_cases wanted : want.keys.getLsbD other = true
    · rw [decide_eq_true (behind other wanted), Bool.true_and]
    · rw [Bool.eq_false_of_not_eq_true wanted, Bool.and_false, Bool.false_and]

def Lasting (client : AuthClient) (bit : Nat) : Prop :=
  ∃ handler, client.handlers (service bit) = some handler ∧ handler.ticketBlob ≠ none ∧ client.clock < handler.expires

/-- The ticket of a service is installed, and has neither expired nor been invalidated. -/
def Valid (client : AuthClient) (bit : Nat) : Prop :=
  client.Lasting bit ∧ client.invalidated (service bit) = false

/-- What is known of a handler: only a ticket makes it last, and renewal comes before expiry. -/
structure HandlerKept (type : BitVec 32) (handler : TicketHandler) : Prop where
  service : handler.service = type
  unissued : handler.ticketBlob = none → handler.expires = 0
  renewed : handler.renewAfter ≤ handler.expires

/-- The keys that are there have tickets, and the tickets that last have their keys and were not invalidated. -/
structure Issued (want : WantedKeys) (client : AuthClient) : Prop where
  handler : ∀ type handler, client.handlers type = some handler → HandlerKept type handler
  held : ∀ bit, want.keys.getLsbD bit = true → client.haveKeys.getLsbD bit = true →
    ∃ handler, client.handlers (service bit) = some handler ∧ handler.ticketBlob ≠ none
  kept : ∀ bit, want.keys.getLsbD bit = true → client.Lasting bit → client.haveKeys.getLsbD bit = true
  dead : ∀ bit, want.keys.getLsbD bit = true → client.invalidated (service bit) = true → ¬ client.Lasting bit

theorem blank_kept (type : BitVec 32) : HandlerKept type (.blank type) where
  service := rfl
  unissued _ := rfl
  renewed := le_rfl

theorem init_issued : Issued want init where
  handler := nofun
  held bit _ present := by simp [init] at present
  kept bit _ lasting := by
    obtain ⟨handler, held, -⟩ := lasting
    cases held
  dead _ _ invalidated := nomatch invalidated

section

variable (issued : Issued want client)
include issued

theorem Issued.grown {after : AuthClient} (clock : after.clock = client.clock)
    (invalidated : after.invalidated = client.invalidated)
    (found : ∀ type handler, client.handlers type = some handler → after.handlers type = some handler)
    (fresh : ∀ type handler, after.handlers type = some handler →
      client.handlers type = some handler ∨ client.handlers type = none ∧ handler = .blank type)
    (fewer : ∀ bit, want.keys.getLsbD bit = true → after.haveKeys.getLsbD bit = true →
      client.haveKeys.getLsbD bit = true)
    (enough : ∀ bit, want.keys.getLsbD bit = true → client.Lasting bit → client.haveKeys.getLsbD bit = true →
      after.haveKeys.getLsbD bit = true) : Issued want after := by
  have lasted : ∀ bit, after.Lasting bit → client.Lasting bit := by
    rintro bit ⟨handler, held, ticket, lasts⟩
    rcases fresh _ handler held with old | ⟨-, rfl⟩
    · exact ⟨handler, old, ticket, clock ▸ lasts⟩
    · exact absurd rfl ticket
  refine ⟨?_, ?_, ?_, ?_⟩
  · intro type handler held
    rcases fresh type handler held with old | ⟨-, rfl⟩
    · exact issued.handler type handler old
    · exact blank_kept type
  · intro bit wanted present
    obtain ⟨handler, held, ticket⟩ := issued.held bit wanted (fewer bit wanted present)
    exact ⟨handler, found _ handler held, ticket⟩
  · intro bit wanted lasting
    have before := lasted bit lasting
    exact enough bit wanted before (issued.kept bit wanted before)
  · intro bit wanted gone lasting
    exact issued.dead bit wanted (invalidated ▸ gone) (lasted bit lasting)

theorem getTicketHandler_issued (alloc : BitVec 32 → Bool) (type : BitVec 32) :
    Issued want (client.getTicketHandler alloc type).2 ∧ (client.getTicketHandler alloc type).2.clock = client.clock ∧
      (client.getTicketHandler alloc type).2.invalidated = client.invalidated ∧
      ∀ handler, (client.getTicketHandler alloc type).1 = some handler →
        (client.getTicketHandler alloc type).2.handlers type = some handler := by
  unfold getTicketHandler
  cases looked : client.handlers type with
  | some found => exact ⟨issued, rfl, rfl, fun handler same => looked.trans same⟩
  | none =>
    dsimp only
    split
    · refine ⟨?_, rfl, rfl, fun handler same => (update_self ..).trans same⟩
      refine issued.grown rfl rfl ?_ ?_ (fun _ _ present => present) (fun _ _ _ present => present)
      · intro other handler held
        have differs : other ≠ type := by
          rintro rfl
          rw [looked] at held
          cases held
        exact (update_of_ne differs _ _).trans held
      · intro other handler held
        dsimp only at held
        by_cases here : other = type
        · subst here
          rw [update_self] at held
          exact .inr ⟨looked, (Option.some.inj held).symm⟩
        · rw [update_of_ne here] at held
          exact .inl held
    · exact ⟨issued, rfl, rfl, nofun⟩

theorem validateTickets_issued (alloc : BitVec 32 → Bool) : Issued want (client.validateTickets want alloc).2 := by
  have checked := validateTickets_checked want alloc client
  refine issued.grown checked.clock checked.invalidated checked.found checked.fresh ?_ ?_
  · intro bit _ present
    rw [checked.haveKeys, Bool.and_eq_true] at present
    exact present.1
  · intro bit wanted lasting present
    obtain ⟨handler, held, -, lasts⟩ := lasting
    have lapses : client.lapsed alloc bit = false := by
      simp only [lapsed, held, decide_eq_false_iff_not, not_le]
      exact lasts
    rw [checked.haveKeys, present, lapses, Bool.and_false, Bool.not_false, Bool.and_true]

/-- A ticket that comes for a service is one that lasts or expires at once, and no longer invalidated. -/
theorem install_issued {type : BitVec 32} {handler : TicketHandler}
    (sole : ∀ bit, want.keys.getLsbD bit = true → type.getLsbD bit = true → type = service bit)
    (held : client.handlers type = some handler) (new : NewTicket) : Issued want (client.install handler new) := by
  have isType : handler.service = type := (issued.handler type handler held).service
  have others : ∀ bit, want.keys.getLsbD bit = true → service bit ≠ type →
      ((client.install handler new).Lasting bit ↔ client.Lasting bit) ∧
        (client.install handler new).invalidated (service bit) = client.invalidated (service bit) ∧
        (client.install handler new).haveKeys.getLsbD bit = client.haveKeys.getLsbD bit := by
    intro bit wanted differs
    refine ⟨?_, ?_, ?_⟩
    · simp only [Lasting, install, isType, update_of_ne differs]
    · simp only [install, isType, update_of_ne differs]
    · have absent : type.getLsbD bit = false := by
        by_contra present
        exact differs (sole bit wanted (by simpa using present)).symm
      simp only [install, isType, BitVec.getLsbD_or, absent, Bool.or_false]
  refine ⟨?_, ?_, ?_, ?_⟩
  · intro other found looked
    by_cases here : other = type
    · subst here
      simp only [install, isType, update_self, Option.some.injEq] at looked
      subst looked
      exact ⟨isType, nofun, sub_le _ _⟩
    · simp only [install, isType, update_of_ne here] at looked
      exact issued.handler other found looked
  · intro bit wanted present
    by_cases here : service bit = type
    · refine ⟨handler.update new client.clock, ?_, nofun⟩
      simp only [install, isType, here, update_self]
    · obtain ⟨-, -, sameKeys⟩ := others bit wanted here
      rw [sameKeys] at present
      simp only [install, isType, update_of_ne here]
      exact issued.held bit wanted present
  · intro bit wanted lasting
    by_cases here : service bit = type
    · have below := WantedKeys.bit_lt wanted
      simp only [install, isType, ← here, BitVec.getLsbD_or, getLsbD_service]
      simp [show bit < 32 by omega]
    · obtain ⟨sameLasting, -, sameKeys⟩ := others bit wanted here
      rw [sameKeys]
      exact issued.kept bit wanted (sameLasting.mp lasting)
  · intro bit wanted gone lasting
    by_cases here : service bit = type
    · simp only [install, isType, here, update_self] at gone
      cases gone
    · obtain ⟨sameLasting, sameInvalid, -⟩ := others bit wanted here
      exact issued.dead bit wanted (sameInvalid ▸ gone) (sameLasting.mp lasting)

theorem processOneTicket_issued (alloc : BitVec 32 → Bool) {reply : TicketReply}
    (sole : ∀ type content, reply = .ticket type content →
      ∀ bit, want.keys.getLsbD bit = true → type.getLsbD bit = true → type = service bit) :
    Issued want (client.processOneTicket alloc reply).2 := by
  cases reply with
  | bad => exact issued
  | ticket type content =>
    obtain ⟨looked, -, -, found⟩ := getTicketHandler_issued issued alloc type
    unfold processOneTicket
    dsimp only
    generalize client.getTicketHandler alloc type = result at looked found
    obtain ⟨handler, after⟩ := result
    cases handler with
    | none => exact looked
    | some handler =>
      cases content with
      | error ret => exact looked
      | ok new => exact install_issued looked (sole type _ rfl) (found handler rfl) new

end

end AuthClient

def TicketReply.Sole (want : WantedKeys) : TicketReply → Prop
  | .bad => True
  | .ticket type _ => ∀ bit, want.keys.getLsbD bit = true → type.getLsbD bit = true → type = service bit

/-- Tickets come for one service each, and no ticket of a wanted service is invalidated while it lasts. -/
def AuthCall.Sound (want : WantedKeys) : AuthCall → AuthClient → Prop
  | .reply _ tickets, _ => ∀ ticket ∈ tickets, ticket.Sole want
  | .invalidate _ peerType, client =>
    ∀ bit, want.keys.getLsbD bit = true → peerType = service bit → ¬ client.Lasting bit
  | .pass _, _ | .isAuthenticated _, _ | .shouldAuthenticate _, _ | .buildRequest _, _ => True

namespace AuthClient

section

variable (issued : Issued want client)
include issued

theorem procTicketReply_issued {tickets : List TicketReply} (alloc : BitVec 32 → Bool)
    (sole : ∀ ticket ∈ tickets, ticket.Sole want) : Issued want (client.procTicketReply alloc tickets).2 := by
  induction tickets generalizing client with
  | nil => exact issued
  | cons reply rest ih =>
    have processed : Issued want (client.processOneTicket alloc reply).2 := by
      apply processOneTicket_issued issued alloc
      rintro type content rfl
      exact sole _ List.mem_cons_self
    rw [procTicketReply]
    generalize client.processOneTicket alloc reply = result at processed
    obtain ⟨ret, after⟩ := result
    split
    · next same =>
      cases same
      exact ih processed fun ticket held => sole ticket (List.mem_cons_of_mem _ held)
    · next same =>
      cases same
      exact processed

theorem pass_issued (seconds : Nat) : Issued want { client with clock := client.clock + seconds } := by
  have lasted : ∀ bit, Lasting { client with clock := client.clock + seconds } bit → client.Lasting bit := by
    rintro bit ⟨handler, held, ticket, lasts⟩
    exact ⟨handler, held, ticket, Nat.lt_of_le_of_lt (le_add_right _ _) lasts⟩
  exact {
    handler := issued.handler
    held := issued.held
    kept := fun bit wanted lasting => issued.kept bit wanted (lasted bit lasting)
    dead := fun bit wanted gone lasting => issued.dead bit wanted gone (lasted bit lasting) }

theorem invalidateAuthorizer_issued {peerType : BitVec 32} (alloc : BitVec 32 → Bool)
    (sound : ∀ bit, want.keys.getLsbD bit = true → peerType = service bit → ¬ client.Lasting bit) :
    Issued want (client.invalidateAuthorizer alloc peerType) := by
  have marked : Issued want { client with invalidated := update client.invalidated peerType true } := by
    refine ⟨issued.handler, issued.held, issued.kept, ?_⟩
    intro bit wanted gone
    by_cases here : service bit = peerType
    · exact sound bit wanted here.symm
    · dsimp only at gone
      rw [update_of_ne here] at gone
      exact issued.dead bit wanted gone
  obtain ⟨looked, -, -, found⟩ := getTicketHandler_issued marked alloc peerType
  unfold invalidateAuthorizer
  dsimp only
  generalize getTicketHandler alloc peerType _ = result at looked found
  obtain ⟨handler, after⟩ := result
  cases handler with
  | none => exact looked
  | some handler =>
    have present : after.handlers peerType = some handler := found handler rfl
    obtain ⟨isType, unissued, renewed⟩ := looked.handler peerType handler present
    have lasted : ∀ bit, Lasting { after with
        handlers := update after.handlers peerType (some handler.clearValidity) } bit →
        after.Lasting bit := by
      rintro bit ⟨other, held, ticket, lasts⟩
      dsimp only at held lasts
      by_cases here : service bit = peerType
      · rw [here, update_self] at held
        cases held
        exact ⟨handler, here ▸ present, ticket, lasts⟩
      · rw [update_of_ne here] at held
        exact ⟨other, held, ticket, lasts⟩
    refine ⟨?_, ?_, ?_, ?_⟩
    · intro type other held
      dsimp only at held
      by_cases here : type = peerType
      · rw [here, update_self] at held
        cases held
        exact ⟨here ▸ isType, unissued, renewed⟩
      · rw [update_of_ne here] at held
        exact looked.handler type other held
    · intro bit wanted keyed
      obtain ⟨other, held, ticket⟩ := looked.held bit wanted keyed
      by_cases here : service bit = peerType
      · rw [here, present] at held
        cases held
        refine ⟨handler.clearValidity, ?_, ticket⟩
        dsimp only
        rw [here, update_self]
      · exact ⟨other, (update_of_ne here _ _).trans held, ticket⟩
    · exact fun bit wanted lasting => looked.kept bit wanted (lasted bit lasting)
    · exact fun bit wanted gone lasting => looked.dead bit wanted gone (lasted bit lasting)

theorem buildRequest_issued (env : BuildEnv) : Issued want (client.buildRequest want env).2 := by
  obtain ⟨looked, -, -, -⟩ := getTicketHandler_issued issued env.alloc entityTypeAuth
  unfold buildRequest
  generalize client.getTicketHandler env.alloc entityTypeAuth = result at looked
  obtain ⟨handler, after⟩ := result
  have validated := validateTickets_issued looked env.alloc
  cases handler with
  | none => exact looked
  | some handler =>
    dsimp only at validated ⊢
    split
    · exact validated
    · split
      · exact validated
      · exact validated

end

end AuthClient

theorem AuthCall.preserves : Preserves (AuthCall.run want) (AuthCall.Sound want) (AuthClient.Issued want) := by
  intro call before after sound issued ran
  cases call with
  | reply alloc tickets =>
    cases ran
    exact AuthClient.procTicketReply_issued issued alloc sound
  | pass seconds =>
    cases ran
    exact AuthClient.pass_issued issued seconds
  | invalidate alloc peerType =>
    cases ran
    exact AuthClient.invalidateAuthorizer_issued issued alloc sound
  | isAuthenticated alloc =>
    cases ran
    exact AuthClient.validateTickets_issued issued alloc
  | shouldAuthenticate alloc =>
    cases ran
    exact AuthClient.validateTickets_issued issued alloc
  | buildRequest env =>
    cases ran
    exact AuthClient.buildRequest_issued issued env

def AuthRequest.Asks (need : BitVec 32) (bit : Nat) : AuthRequest → Prop
  | .nothing => False
  | .authSessionKey _ _ => service bit = entityTypeAuth ∨ need &&& entityTypeAuth ≠ 0
  | .principalSessionKey _ keys => keys.getLsbD bit = true

structure BuildEnv.Suffices (env : BuildEnv) (client : AuthClient) : Prop where
  alloc : env.alloc entityTypeAuth = true
  encrypt : env.encrypt = .ok ()
  authorizer : ∃ bytes, env.authorizer = .ok bytes
  room : ∀ handler, (client.getTicketHandler env.alloc entityTypeAuth).1 = some handler →
    2 + 17 + 1 + 8 + 4 + (handler.ticketBlob.getD []).length ≤ env.room

namespace AuthClient

/-- Tickets count until they are invalidated, and then are asked for again. -/
structure Effective (want : WantedKeys) (client : AuthClient) : Prop where
  authenticated : ∀ alloc, (client.isAuthenticated want alloc).1 = true ↔
    ∀ bit, want.keys.getLsbD bit = true → client.Valid bit
  should : ∀ bit, want.keys.getLsbD bit = true → client.invalidated (service bit) = true →
    ∀ alloc, (client.shouldAuthenticate want alloc).1 = true
  asks : ∀ bit, want.keys.getLsbD bit = true → client.invalidated (service bit) = true →
    ∀ env, env.Suffices client → ∃ request length, (client.buildRequest want env).1 = .ok (request, length) ∧
      request.Asks ((client.getTicketHandler env.alloc entityTypeAuth).2.validateTickets want env.alloc).1 bit

theorem Issued.valid_iff (issued : Issued want client) (wanted : want.keys.getLsbD bit = true) :
    client.Valid bit ↔ client.haveKeys.getLsbD bit = true ∧ client.lapsed alloc bit = false := by
  constructor
  · rintro ⟨lasting, -⟩
    refine ⟨issued.kept bit wanted lasting, ?_⟩
    obtain ⟨handler, held, -, lasts⟩ := lasting
    simp only [lapsed, held, decide_eq_false_iff_not, not_le]
    exact lasts
  · rintro ⟨present, lasts⟩
    obtain ⟨handler, held, ticket⟩ := issued.held bit wanted present
    simp only [lapsed, held, decide_eq_false_iff_not, not_le] at lasts
    have lasting : client.Lasting bit := ⟨handler, held, ticket, lasts⟩
    refine ⟨lasting, ?_⟩
    by_contra gone
    exact issued.dead bit wanted (by simpa using gone) lasting

theorem Issued.isAuthenticated_iff (issued : Issued want client) (alloc : BitVec 32 → Bool) :
    (client.isAuthenticated want alloc).1 = true ↔ ∀ bit, want.keys.getLsbD bit = true → client.Valid bit := by
  have checked := validateTickets_checked want alloc client
  rw [isAuthenticated]
  rw [decide_eq_true_iff]
  constructor
  · intro all bit wanted
    have here := congrArg (BitVec.getLsbD · bit) all
    simp only [BitVec.getLsbD_and, wanted, Bool.true_and, checked.haveKeys, Bool.and_eq_true, Bool.not_eq_true'] at here
    exact (issued.valid_iff wanted).mpr here
  · intro valid
    apply BitVec.eq_of_getLsbD_eq
    intro bit _
    rw [BitVec.getLsbD_and]
    by_cases wanted : want.keys.getLsbD bit = true
    · obtain ⟨present, lasts⟩ := (@Issued.valid_iff want alloc client bit issued wanted).mp (valid bit wanted)
      rw [checked.haveKeys, wanted, present, lasts]
      rfl
    · rw [Bool.eq_false_of_not_eq_true wanted, Bool.false_and]

theorem Issued.needs_of_invalidated (issued : Issued want client) (wanted : want.keys.getLsbD bit = true)
    (gone : client.invalidated (service bit) = true) : client.needs bit = true := by
  rw [needs, Bool.or_eq_true]
  by_cases present : client.haveKeys.getLsbD bit = true
  · obtain ⟨handler, held, ticket⟩ := issued.held bit wanted present
    have expired : handler.expires ≤ client.clock := by
      by_contra lasts
      exact issued.dead bit wanted gone ⟨handler, held, ticket, not_le.mp lasts⟩
    have renewed := (issued.handler _ handler held).renewed
    right
    rw [held]
    exact decide_eq_true (renewed.trans expired)
  · exact .inl (by simpa using present)

theorem Issued.effective (issued : Issued want client) : Effective want client where
  authenticated alloc := issued.isAuthenticated_iff alloc
  should bit wanted gone alloc := by
    have checked := validateTickets_checked want alloc client
    have needed := checked.need bit
    rw [wanted, issued.needs_of_invalidated wanted gone, Bool.and_true] at needed
    rw [shouldAuthenticate]
    apply decide_eq_true
    intro zero
    simp [zero] at needed
  asks bit wanted gone env enough := by
    obtain ⟨looked, -, sameInvalid, found⟩ := getTicketHandler_issued issued env.alloc entityTypeAuth
    have present : ∃ handler, (client.getTicketHandler env.alloc entityTypeAuth).1 = some handler := by
      unfold getTicketHandler
      cases client.handlers entityTypeAuth with
      | some handler => exact ⟨handler, rfl⟩
      | none =>
        rw [if_pos enough.alloc]
        exact ⟨_, rfl⟩
    obtain ⟨handler, present⟩ := present
    have room := enough.room handler present
    obtain ⟨bytes, authorizer⟩ := enough.authorizer
    unfold buildRequest
    generalize client.getTicketHandler env.alloc entityTypeAuth = result at looked sameInvalid present
    obtain ⟨same, after⟩ := result
    cases present
    dsimp only at looked sameInvalid ⊢
    have checked := validateTickets_checked want env.alloc after
    have needed := checked.need bit
    rw [wanted, looked.needs_of_invalidated wanted (sameInvalid ▸ gone), Bool.and_true] at needed
    generalize after.validateTickets want env.alloc = validated at needed
    obtain ⟨need, final⟩ := validated
    split
    · next auth =>
      let ticket := handler.ticketBlob.getD []
      refine ⟨.authSessionKey handler.secretId ticket, 2 + 17 + 1 + 8 + 4 + ticket.length, ?_, .inr auth⟩
      simp only [haltIf, encodeTicket, enough.encrypt]
      rw [if_neg (by omega), if_neg (by omega)]
      rfl
    · next noAuth =>
      have nonzero : need ≠ 0 := by
        rintro rfl
        simp at needed
      rw [if_pos nonzero]
      refine ⟨.principalSessionKey bytes need, 2 + bytes.length + 5, ?_, needed⟩
      simp only [haltIf, authorizer]
      rw [if_neg (by omega)]
      rfl

/-- As long as no ticket is invalidated while it lasts, and tickets come for single services, invalidated services are
asked for and an authenticated client has a valid ticket of each service. -/
theorem invalidation_effective (reached : Reached (AuthCall.run want) (AuthCall.Sound want) init client) :
    client.Effective want :=
  (reached.preserved AuthCall.preserves init_issued).effective

end AuthClient

end

namespace AuthClient

def hourTicket : NewTicket where
  sessionKey := [1]
  validity := (3600, 0)
  secretId := 1
  ticketBlob := [2]

def fullReply : AuthCall :=
  .reply (fun _ => true) [.ticket (service 5) (.ok hourTicket), .ticket (service 0) (.ok hourTicket),
    .ticket (service 2) (.ok hourTicket), .ticket (service 1) (.ok hourTicket)]

theorem sole_service (want : WantedKeys) (bit : Nat) (content : Except Int NewTicket) :
    TicketReply.Sole want (.ticket (service bit) content) := by
  intro other _ present
  rw [getLsbD_service, Bool.and_eq_true, decide_eq_true_iff, decide_eq_true_iff] at present
  rw [present.2]

/-- The ticket of the osds is invalidated after it expired. -/
theorem invalidation_effective_expired :
    ∃ client, Reached (AuthCall.run monKeys) (AuthCall.Sound monKeys) init client ∧
      client.invalidated (service 2) = true ∧ client.Effective monKeys := by
  have sole : fullReply.Sound monKeys init := by
    intro ticket held
    simp only [List.mem_cons, List.not_mem_nil, or_false] at held
    rcases held with rfl | rfl | rfl | rfl
    all_goals exact sole_service monKeys _ _
  have full : Reached (AuthCall.run monKeys) (AuthCall.Sound monKeys) init _ := Reached.start.next fullReply sole rfl
  have expired := full.next (.pass 3600) trivial rfl
  have invalidated := expired.next (.invalidate (fun _ => true) (service 2)) (by
    intro bit wanted same lasting
    cases service_injective (by decide) same
    obtain ⟨handler, held, -, lasts⟩ := lasting
    cases held
    exact absurd lasts (by decide)) rfl
  exact ⟨_, invalidated, by decide +kernel, invalidation_effective invalidated⟩

/-- The ticket of the osds is invalidated while it lasts, and nothing asks for another. -/
theorem invalidation_ineffective :
    ∃ client, Reached (AuthCall.run monKeys) (fun _ _ => True) init client ∧ client.invalidated (service 2) = true ∧
      (client.isAuthenticated monKeys fun _ => true).1 = true ∧
      (client.shouldAuthenticate monKeys fun _ => true).1 = false := by
  have full : Reached (AuthCall.run monKeys) (fun _ _ => True) init _ := Reached.start.next fullReply trivial rfl
  have invalidated := full.next (.invalidate (fun _ => true) (service 2)) trivial rfl
  exact ⟨_, invalidated, by decide +kernel, by decide +kernel, by decide +kernel⟩

end AuthClient

end KmodCeph.Auth
