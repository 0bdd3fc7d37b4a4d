import KmodCeph.OsdClient.Completion

namespace KmodCeph.OsdClient

open Lib CephOsdClient List

variable {μ : Type}

def unsafeCalls (req : ReqId) (log : List OsdEvent) : List Bool :=
  log.filterMap fun
    | .unsafeCallback other isUnsafe => if other = req then some isUnsafe else none
    | _ => none

def OsdReply.Closes (reply : OsdReply) : Prop :=
  reply.result < 0 ∨ reply.flagsOndisk = true ∨ reply.flagsWrite = false

instance (reply : OsdReply) : Decidable reply.Closes :=
  inferInstanceAs (Decidable (_ ∨ _ ∨ _))

def OsdReply.Acks (reply : OsdReply) : Prop := 0 ≤ reply.result ∧ reply.flagsOndisk = false

instance (reply : OsdReply) : Decidable reply.Acks :=
  inferInstanceAs (Decidable (_ ∧ _))

section

variable {osdc before middle after : CephOsdClient μ} {req other : ReqId} {reply : OsdReply}

/-- What no plain reply changes of any request. -/
def Named (before after : CephOsdClient μ) : Prop :=
  ∀ req, (after.req req).tid = (before.req req).tid ∧ (after.req req).numOps = (before.req req).numOps ∧
    (after.req req).unsafeCallback = (before.req req).unsafeCallback

theorem Named.refl : Named osdc osdc :=
  fun _ => ⟨rfl, rfl, rfl⟩

theorem Named.trans (first : Named before middle) (second : Named middle after) : Named before after :=
  fun req => ⟨(second req).1.trans (first req).1, (second req).2.1.trans (first req).2.1,
    (second req).2.2.trans (first req).2.2⟩

theorem Named.setReq (change : OsdRequest → OsdRequest)
    (same : (change (osdc.req req)).tid = (osdc.req req).tid ∧ (change (osdc.req req)).numOps = (osdc.req req).numOps ∧
      (change (osdc.req req)).unsafeCallback = (osdc.req req).unsafeCallback) :
    Named osdc (osdc.setReq req change) := by
  intro other
  by_cases here : other = req
  · subst here
    simpa [CephOsdClient.setReq] using same
  · simp [CephOsdClient.setReq, here]

theorem Named.unregister : Named osdc (osdc.unregisterRequest req) := by
  unfold unregisterRequest
  split
  · exact .refl
  · dsimp only
    split
    · exact .refl
    · split
      · exact .refl
      · exact Named.setReq (fun r => { r with osd := none }) ⟨rfl, rfl, rfl⟩

theorem Named.linger : Named osdc (osdc.registerLingerRequest req) := by
  unfold registerLingerRequest
  dsimp only
  split <;> exact .refl

theorem Named.settle : Named osdc (osdc.settleReply reply req) := by
  unfold settleReply
  have first : Named osdc
      (if (osdc.req req).linger ∧ reply.flagsOndisk then osdc.registerLingerRequest req else osdc) := by
    split
    · exact .linger
    · exact .refl
  dsimp only
  split
  · exact first.trans .unregister
  · exact first

/-- The registry and the replies after a reply is settled. -/
theorem settleReply_ledger : (osdc.settleReply reply req).ledger.requests =
      (if reply.Closes then osdc.requests.filter (· ≠ req) else osdc.requests) ∧
    (osdc.settleReply reply req).ledger.gotReply = osdc.ledger.gotReply ∧
    (osdc.settleReply reply req).ledger.noted = osdc.ledger.noted := by
  unfold settleReply
  have first : ∃ lingering, (if (osdc.req req).linger ∧ reply.flagsOndisk then osdc.registerLingerRequest req
      else osdc).ledger = { osdc.ledger with reqLinger := lingering } := by
    split
    · exact ⟨_, ledger_registerLingerRequest⟩
    · exact ⟨osdc.ledger.reqLinger, rfl⟩
  generalize (if (osdc.req req).linger ∧ reply.flagsOndisk then osdc.registerLingerRequest req else osdc) = now at first
  obtain ⟨lingering, same⟩ := first
  by_cases closes : reply.Closes
  · have ends : reply.result < 0 ∨ reply.flagsOndisk = true ∨ reply.flagsWrite = false := closes
    rw [if_pos ends, if_pos closes, ledger_unregisterRequest, same]
    exact ⟨rfl, rfl, rfl⟩
  · have stays : ¬(reply.result < 0 ∨ reply.flagsOndisk = true ∨ reply.flagsWrite = false) := closes
    rw [if_neg stays, if_neg closes, same]
    exact ⟨rfl, rfl, rfl⟩

theorem unsafeCalls_noted : unsafeCalls req osdc.ledger.noted = unsafeCalls req osdc.log := by
  unfold unsafeCalls ledger
  rw [filterMap_filter]
  congr 1
  funext event
  cases event <;> rfl

theorem unsafeCalls_append (first second : List OsdEvent) :
    unsafeCalls req (first ++ second) = unsafeCalls req first ++ unsafeCalls req second :=
  filterMap_append

def OsdReply.calls (reply : OsdReply) (already : Bool) : List Bool :=
  (if already = false ∧ reply.Acks then [true] else []) ++ if already ∧ reply.flagsOndisk then [false] else []

theorem unsafeCalls_call {isUnsafe : Bool} :
    unsafeCalls other [.unsafeCallback req isUnsafe] = if req = other then [isUnsafe] else [] := by
  unfold unsafeCalls
  rw [filterMap_cons]
  by_cases same : req = other
  · simp [same]
  · simp [same]

/-- The callback is called by the replies to the request alone. -/
theorem unsafeCalls_events {already called : Bool} : unsafeCalls other (reply.events already called req) =
    if req = other ∧ called = true then reply.calls already else [] := by
  have completed : unsafeCalls other [.completed req] = [] := rfl
  have safe : unsafeCalls other [.safe req] = [] := rfl
  have none : unsafeCalls other [] = [] := rfl
  unfold OsdReply.events OsdReply.calls
  cases already with
  | false =>
    have first : unsafeCalls other (if called = true ∧ reply.result ≥ 0 ∧ reply.flagsOndisk = false
        then [.unsafeCallback req true] else []) =
        if req = other ∧ called = true ∧ reply.Acks then [true] else [] := by
      by_cases acks : called = true ∧ reply.result ≥ 0 ∧ reply.flagsOndisk = false
      · rw [if_pos acks, unsafeCalls_call]
        have there : called = true ∧ reply.Acks := acks
        simp [there]
      · have absent : ¬(called = true ∧ reply.Acks) := acks
        rw [if_neg acks, if_neg fun all => absent all.2]
        rfl
    have last : unsafeCalls other (if reply.flagsOndisk = true then
        (if called = true ∧ false = true then [.unsafeCallback req false] else []) ++ [.safe req] else []) = [] := by
      split <;> simp [safe, none]
    rw [if_neg Bool.false_ne_true, unsafeCalls_append, unsafeCalls_append, first, completed, last]
    by_cases ours : req = other ∧ called = true
    · simp [ours]
    · have apart : ¬(req = other ∧ called = true ∧ reply.Acks) := fun all => ours ⟨all.1, all.2.1⟩
      rw [if_neg ours, if_neg apart]
      rfl
  | true =>
    have last : unsafeCalls other (if reply.flagsOndisk = true then
        (if called = true ∧ true = true then [.unsafeCallback req false] else []) ++ [.safe req] else []) =
        if req = other ∧ called = true ∧ reply.flagsOndisk = true then [false] else [] := by
      by_cases ondisk : reply.flagsOndisk = true
      · rw [if_pos ondisk, unsafeCalls_append, safe]
        cases called with
        | false => simp [none]
        | true => simp [unsafeCalls_call, ondisk]
      · simp [ondisk, none]
    rw [if_pos rfl, nil_append, last]
    by_cases ours : req = other ∧ called = true
    · simp [ours]
    · have apart : ¬(req = other ∧ called = true ∧ reply.flagsOndisk = true) := fun all => ours ⟨all.1, all.2.1⟩
      rw [if_neg ours, if_neg apart]

structure Entry where
  registered : Bool
  gotReply : Bool
  calls : List Bool

def CephOsdClient.entry (osdc : CephOsdClient μ) (req : ReqId) : Entry where
  registered := req ∈ osdc.requests
  gotReply := (osdc.req req).gotReply
  calls := unsafeCalls req osdc.log

def Entry.take (reply : OsdReply) (entry : Entry) : Entry :=
  if entry.gotReply = true ∧ reply.flagsOndisk = false then entry
  else
    { registered := if reply.Closes then false else entry.registered
      gotReply := true
      calls := entry.calls ++ reply.calls entry.gotReply }

theorem plainReply_named : Named osdc (osdc.plainReply reply req) := by
  unfold plainReply
  split
  · exact (Named.setReq reply.answer ⟨rfl, rfl, rfl⟩).trans .settle
  · split
    · exact .refl
    · exact .settle

theorem finishReply_entry {already : Bool} : (osdc.finishReply reply already req).entry other =
    { registered := if reply.Closes ∧ other = req then false else (osdc.entry other).registered
      gotReply := (osdc.entry other).gotReply
      calls := (osdc.entry other).calls ++
        if req = other ∧ (osdc.req req).unsafeCallback = true then reply.calls already else [] } := by
  obtain ⟨requests, gotReply, noted⟩ := @settleReply_ledger _ osdc req reply
  have listed : (osdc.settleReply reply req).requests =
    if reply.Closes then osdc.requests.filter (· ≠ req) else osdc.requests := requests
  have got : ((osdc.settleReply reply req).req other).gotReply = (osdc.req other).gotReply := congrFun gotReply other
  have log : unsafeCalls other (osdc.settleReply reply req).log = unsafeCalls other osdc.log := by
    rw [← unsafeCalls_noted, noted, unsafeCalls_noted]
  unfold entry finishReply CephOsdClient.note
  rw [Entry.mk.injEq]
  refine ⟨?_, got, ?_⟩
  · dsimp only
    rw [listed]
    by_cases closes : reply.Closes
    · by_cases same : other = req
      · simp [closes, same]
      · simp [closes, same]
    · simp [closes]
  · dsimp only
    rw [unsafeCalls_append, log, unsafeCalls_events]

theorem answer_entry : (osdc.setReq req reply.answer).entry other =
    { osdc.entry other with gotReply := if other = req then true else (osdc.entry other).gotReply } := by
  unfold entry setReq
  rw [Entry.mk.injEq]
  refine ⟨rfl, ?_, rfl⟩
  by_cases same : other = req
  · simp [same, OsdReply.answer]
  · simp [same]

theorem plainReply_entry (called : (osdc.req req).unsafeCallback = true) :
    (osdc.plainReply reply req).entry req = (osdc.entry req).take reply := by
  have got : (osdc.entry req).gotReply = (osdc.req req).gotReply := rfl
  unfold plainReply Entry.take
  rw [got]
  cases reached : (osdc.req req).gotReply with
  | false =>
    have still : ((osdc.setReq req reply.answer).req req).unsafeCallback = true := by
      simpa [setReq, OsdReply.answer] using called
    rw [if_pos rfl, if_neg (by simp), finishReply_entry, answer_entry]
    simp [still]
  | true =>
    rw [if_neg (by simp)]
    by_cases ondisk : reply.flagsOndisk = false
    · rw [if_pos ondisk, if_pos ⟨rfl, ondisk⟩]
    · rw [if_neg ondisk, if_neg fun both => ondisk both.2, finishReply_entry, got, reached]
      simp [called]

theorem plainReply_other (apart : other ≠ req) : (osdc.plainReply reply req).entry other = osdc.entry other := by
  have differs : ¬req = other := fun same => apart same.symm
  unfold plainReply
  split
  · rw [finishReply_entry, answer_entry]
    simp [apart, differs]
  · split
    · rfl
    · rw [finishReply_entry]
      simp [apart, differs]

variable {ops : MapOps μ} {map : μ} {memory : Bool} {tid : Nat} {replies : List OsdReply}

def OsdReply.Plain (osdc : CephOsdClient μ) (reply : OsdReply) : Prop :=
  reply.front = true ∧
    ∀ req ∈ osdc.requests, (osdc.req req).tid = reply.tid → reply.accepted (osdc.req req).numOps = some (-1)

/-- The request with an unsafe callback, alone with its tid among the registered ones, as the search tree has it. -/
structure Calling (osdc : CephOsdClient μ) (tid : Nat) (req : ReqId) : Prop where
  named : (osdc.req req).tid = tid
  called : (osdc.req req).unsafeCallback = true
  only : ∀ other ∈ osdc.requests, (osdc.req other).tid = tid → other = req

theorem handleReply_plain (plain : reply.Plain osdc) : osdc.handleReply ops map memory reply =
    match osdc.lookup reply.tid with
    | none => osdc
    | some req => osdc.plainReply reply req := by
  obtain ⟨front, accepted⟩ := plain
  unfold handleReply
  rw [if_neg (by rw [front]; exact Bool.noConfusion)]
  cases found : osdc.lookup reply.tid with
  | none => rfl
  | some req =>
    have same : (osdc.req req).tid = reply.tid := by simpa using find?_some found
    dsimp only
    rw [accepted req (lookup_registered found) same]
    rfl

/-- A plain reply leaves the names and registers nothing. -/
structure Reduces (before after : CephOsdClient μ) : Prop where
  named : Named before after
  registered : ∀ req ∈ after.requests, req ∈ before.requests

theorem Reduces.plain (reduces : Reduces before after) (plain : reply.Plain before) : reply.Plain after := by
  refine ⟨plain.1, ?_⟩
  intro req listed same
  obtain ⟨tid, numOps, -⟩ := reduces.named req
  rw [numOps]
  exact plain.2 req (reduces.registered req listed) (tid.symm.trans same)

theorem Reduces.calling (reduces : Reduces before after) (calling : Calling before tid req) :
    Calling after tid req where
  named := (reduces.named req).1.trans calling.named
  called := (reduces.named req).2.2.trans calling.called
  only := fun other listed same =>
    calling.only other (reduces.registered other listed) ((reduces.named other).1.symm.trans same)

theorem plainReply_reduces (registered : req ∈ osdc.requests) : Reduces osdc (osdc.plainReply reply req) := by
  refine ⟨plainReply_named, ?_⟩
  intro other listed
  by_cases same : other = req
  · exact same ▸ registered
  · have entries := congrArg Entry.registered (@plainReply_other _ osdc req other reply same)
    have both : decide (other ∈ (osdc.plainReply reply req).requests) = decide (other ∈ osdc.requests) := entries
    simpa [listed] using both

theorem handleReply_reduces (plain : reply.Plain osdc) :
    Reduces osdc (osdc.handleReply ops map memory reply) := by
  rw [handleReply_plain plain]
  cases found : osdc.lookup reply.tid with
  | none => exact ⟨.refl, fun _ listed => listed⟩
  | some req => exact plainReply_reduces (lookup_registered found)

def Entry.step (tid : Nat) (entry : Entry) (reply : OsdReply) : Entry :=
  if reply.tid = tid ∧ entry.registered = true then entry.take reply else entry

theorem handleReply_entry (calling : Calling osdc tid req) (plain : reply.Plain osdc) :
    (osdc.handleReply ops map memory reply).entry req = (osdc.entry req).step tid reply := by
  have listed : (osdc.entry req).registered = decide (req ∈ osdc.requests) := rfl
  rw [handleReply_plain plain]
  unfold Entry.step
  rw [listed]
  cases found : osdc.lookup reply.tid with
  | none =>
    have absent : ¬(reply.tid = tid ∧ decide (req ∈ osdc.requests) = true) := by
      rintro ⟨ours, registered⟩
      have missing := List.find?_eq_none.mp found req (of_decide_eq_true registered)
      rw [calling.named, ours] at missing
      exact missing (decide_eq_true rfl)
    rw [if_neg absent]
  | some other =>
    have same : (osdc.req other).tid = reply.tid := by simpa using find?_some found
    have registered := lookup_registered found
    by_cases ours : reply.tid = tid
    · have here : other = req := calling.only other registered (same.trans ours)
      subst here
      rw [if_pos ⟨ours, decide_eq_true registered⟩]
      exact plainReply_entry calling.called
    · have apart : req ≠ other := by
        rintro rfl
        exact ours (same.symm.trans calling.named)
      rw [if_neg fun both => ours both.1]
      exact plainReply_other apart

def CephOsdClient.handleReplies (ops : MapOps μ) (map : μ) (memory : Bool) (replies : List OsdReply)
    (osdc : CephOsdClient μ) : CephOsdClient μ :=
  replies.foldl (fun osdc reply => osdc.handleReply ops map memory reply) osdc

theorem handleReplies_entry {osdc : CephOsdClient μ} (calling : Calling osdc tid req)
    (plain : ∀ reply ∈ replies, reply.Plain osdc) :
    (osdc.handleReplies ops map memory replies).entry req = replies.foldl (Entry.step tid) (osdc.entry req) ∧
      Reduces osdc (osdc.handleReplies ops map memory replies) := by
  induction replies generalizing osdc with
  | nil => exact ⟨rfl, .refl, fun _ listed => listed⟩
  | cons reply replies ih =>
    have first := plain reply (mem_cons_self ..)
    have reduces : Reduces osdc (osdc.handleReply ops map memory reply) := handleReply_reduces first
    obtain ⟨entry, rest⟩ := ih (reduces.calling calling) fun other listed =>
      reduces.plain (plain other (mem_cons_of_mem _ listed))
    refine ⟨?_, reduces.named.trans rest.named, fun other listed => ?_⟩
    · rw [handleReply_entry calling first] at entry
      exact entry
    · exact reduces.registered other (rest.registered other listed)

def repliesTo (tid : Nat) (replies : List OsdReply) : List OsdReply :=
  replies.filter (·.tid = tid)

def Safe (replies : List OsdReply) : Prop := ∃ reply ∈ replies, reply.flagsOndisk = true

variable {entry : Entry}

theorem closed_replies (closed : entry.registered = false) : replies.foldl (Entry.step tid) entry = entry := by
  induction replies with
  | nil => rfl
  | cons reply replies ih =>
    have stays : entry.step tid reply = entry := by
      unfold Entry.step
      rw [if_neg (by simp [closed])]
    rw [foldl_cons, stays, ih]

/-- The replies after the first, to a request that is still registered. -/
theorem acked_replies (registered : entry.registered = true) (got : entry.gotReply = true) :
    (Safe (repliesTo tid replies) ∧
      replies.foldl (Entry.step tid) entry = { entry with registered := false, calls := entry.calls ++ [false] }) ∨
    (¬Safe (repliesTo tid replies) ∧ replies.foldl (Entry.step tid) entry = entry) := by
  induction replies with
  | nil => exact Or.inr ⟨fun ⟨_, listed, _⟩ => absurd listed (not_mem_nil), rfl⟩
  | cons reply replies ih =>
    rw [foldl_cons, repliesTo, filter_cons]
    by_cases ours : reply.tid = tid
    · rw [if_pos (decide_eq_true ours)]
      have step : entry.step tid reply = entry.take reply := if_pos ⟨ours, registered⟩
      cases ondisk : reply.flagsOndisk with
      | true =>
        have taken : entry.take reply = { entry with registered := false, calls := entry.calls ++ [false] } := by
          have closes : reply.Closes := Or.inr (Or.inl ondisk)
          unfold Entry.take OsdReply.calls
          simp [ondisk, got, closes]
        left
        refine ⟨⟨reply, mem_cons_self .., ondisk⟩, ?_⟩
        rw [step, taken]
        exact closed_replies rfl
      | false =>
        have taken : entry.take reply = entry := if_pos ⟨got, ondisk⟩
        rw [step, taken]
        have same : Safe (reply :: repliesTo tid replies) ↔ Safe (repliesTo tid replies) := by
          unfold Safe
          simp [ondisk]
        exact ih.imp (fun safe => ⟨same.mpr safe.1, safe.2⟩) fun not => ⟨fun safe => not.1 (same.mp safe), not.2⟩
    · have stays : entry.step tid reply = entry := if_neg fun both => ours both.1
      rw [if_neg (by simp [ours]), stays]
      exact ih

def Pairing : List OsdReply → List Bool → Prop
  | [], calls => calls = []
  | first :: rest, calls =>
    (¬first.Acks ∧ calls = []) ∨ (first.Acks ∧ ¬(first.flagsWrite = true ∧ Safe rest) ∧ calls = [true]) ∨
      first.Acks ∧ first.flagsWrite = true ∧ Safe rest ∧ calls = [true, false]

theorem Pairing.acked {calls : List Bool} (pairs : Pairing replies calls) :
    true ∈ calls ↔ ∃ first rest, replies = first :: rest ∧ first.Acks := by
  cases replies with
  | nil =>
    have none : calls = [] := pairs
    simp [none]
  | cons first rest =>
    rcases pairs with ⟨other, none⟩ | ⟨acks, -, one⟩ | ⟨acks, -, -, both⟩
    · simp [none, other]
    · simp [one, acks]
    · simp [both, acks]

theorem Pairing.safe {calls : List Bool} (pairs : Pairing replies calls) :
    false ∈ calls ↔ ∃ first rest, replies = first :: rest ∧ first.Acks ∧ first.flagsWrite = true ∧ Safe rest := by
  cases replies with
  | nil =>
    have none : calls = [] := pairs
    simp [none]
  | cons first rest =>
    rcases pairs with ⟨other, none⟩ | ⟨acks, unsure, one⟩ | ⟨acks, write, safe, both⟩
    · simp [none, other]
    · rw [one]
      constructor
      · intro listed
        simp at listed
      · rintro ⟨first, rest, same, -, sure⟩
        cases same
        exact absurd sure unsure
    · simp [both, acks, write, safe]

/-- A sequence ends its request with its first reply, or with a later one that is on disk. -/
def Ends : List OsdReply → Prop
  | [] => False
  | first :: rest => first.Closes ∨ Safe rest

theorem waiting_replies (registered : entry.registered = true) (waiting : entry.gotReply = false) :
    ∃ calls, (replies.foldl (Entry.step tid) entry).calls = entry.calls ++ calls ∧
      Pairing (repliesTo tid replies) calls ∧
      (Ends (repliesTo tid replies) → (replies.foldl (Entry.step tid) entry).registered = false) := by
  induction replies with
  | nil => exact ⟨[], (List.append_nil _).symm, rfl, False.elim⟩
  | cons reply replies ih =>
    rw [foldl_cons, repliesTo, filter_cons]
    by_cases ours : reply.tid = tid
    · have step : entry.step tid reply =
          { registered := if reply.Closes then false else true, gotReply := true
            calls := entry.calls ++ if reply.Acks then [true] else [] } := by
        unfold Entry.step Entry.take OsdReply.calls
        rw [if_pos ⟨ours, registered⟩, registered, waiting]
        simp
      rw [if_pos (decide_eq_true ours), step]
      by_cases closes : reply.Closes
      · rw [if_pos closes, closed_replies rfl]
        refine ⟨_, rfl, ?_, fun _ => rfl⟩
        by_cases acks : reply.Acks
        · rw [if_pos acks]
          refine Or.inr (Or.inl ⟨acks, ?_, rfl⟩)
          rintro ⟨write, -⟩
          rcases closes with failed | ondisk | read
          · exact absurd acks.1 (not_le.mpr failed)
          · rw [acks.2] at ondisk
            cases ondisk
          · rw [read] at write
            cases write
        · rw [if_neg acks]
          exact Or.inl ⟨acks, rfl⟩
      · obtain ⟨success, later⟩ := not_or.mp closes
        obtain ⟨volatile, write⟩ := not_or.mp later
        have acks : reply.Acks := ⟨not_lt.mp success, Bool.eq_false_of_not_eq_true volatile⟩
        have written : reply.flagsWrite = true := Bool.eq_true_of_not_eq_false write
        rw [if_neg closes, if_pos acks]
        rcases @acked_replies tid replies { registered := true, gotReply := true, calls := entry.calls ++ [true] }
          rfl rfl with ⟨safe, ended⟩ | ⟨unsure, ended⟩
        · rw [ended]
          refine ⟨[true, false], ?_, Or.inr (Or.inr ⟨acks, written, safe, rfl⟩), fun _ => rfl⟩
          rw [append_assoc]
          rfl
        · rw [ended]
          refine ⟨[true], rfl, Or.inr (Or.inl ⟨acks, fun both => unsure both.2, rfl⟩), ?_⟩
          rintro (first | safe)
          · exact absurd first closes
          · exact absurd safe unsure
    · have stays : entry.step tid reply = entry := if_neg fun both => ours both.1
      rw [if_neg (by simp [ours]), stays]
      exact ih

end

section

variable {ops : MapOps μ} {map : μ} {memory : Bool} {osdc : CephOsdClient μ} {tid : Nat} {req : ReqId}
  {replies : List OsdReply}

/-- Over any well-formed replies without redirects, the calls of an unsafe callback pair up: it is called with true by
the first reply if that is no error and not on disk, and with false by the first reply on disk behind it, if the first
one was the reply to a write. -/
theorem unsafe_callback_pairing (calling : Calling osdc tid req) (registered : req ∈ osdc.requests)
    (waiting : (osdc.req req).gotReply = false) (plain : ∀ reply ∈ replies, reply.Plain osdc) :
    ∃ calls, unsafeCalls req (osdc.handleReplies ops map memory replies).log = unsafeCalls req osdc.log ++ calls ∧
      (calls = [] ∨ calls = [true] ∨ calls = [true, false]) ∧
      (true ∈ calls ↔ ∃ first rest, repliesTo tid replies = first :: rest ∧ first.Acks) ∧
      (false ∈ calls ↔ ∃ first rest, repliesTo tid replies = first :: rest ∧ first.Acks ∧ first.flagsWrite = true ∧
        Safe rest) ∧
      (Ends (repliesTo tid replies) → req ∉ (osdc.handleReplies ops map memory replies).requests ∧
        ∀ reply, reply.tid = tid → (osdc.handleReplies ops map memory replies).handleReply ops map memory reply =
          osdc.handleReplies ops map memory replies) := by
  obtain ⟨entry, reduces⟩ := @handleReplies_entry _ req ops map memory tid replies osdc calling plain
  obtain ⟨calls, called, pairs, ends⟩ :=
    @waiting_replies tid replies (osdc.entry req) (decide_eq_true registered) waiting
  rw [← entry] at called ends
  refine ⟨calls, called, ?_, ?_, ?_, ?_⟩
  · cases mine : repliesTo tid replies with
    | nil =>
      rw [mine] at pairs
      exact Or.inl pairs
    | cons first rest =>
      rw [mine] at pairs
      rcases pairs with ⟨-, none⟩ | ⟨-, -, one⟩ | ⟨-, -, -, both⟩
      · exact Or.inl none
      · exact Or.inr (Or.inl one)
      · exact Or.inr (Or.inr both)
  · exact pairs.acked
  · exact pairs.safe
  · intro ended
    have gone : req ∉ (osdc.handleReplies ops map memory replies).requests := of_decide_eq_false (ends ended)
    refine ⟨gone, ?_⟩
    intro reply ours
    have absent : (osdc.handleReplies ops map memory replies).lookup reply.tid = none := by
      refine List.find?_eq_none.mpr fun other listed same => ?_
      have here := (reduces.calling calling).only other listed ((of_decide_eq_true same).trans ours)
      exact gone (here ▸ listed)
    unfold handleReply
    rw [absent]
    split <;> rfl

end

def callingClient : CephOsdClient PoolMap :=
  let client : CephOsdClient PoolMap := .init fun _ => { poolWrite 1 false with unsafeCallback := true }
  let map : PoolMap := { epoch := 1, pools := [(1, 3)] }
  { client with osdmap := some map }.startRequest poolOps map true false 7

theorem plain_callingClient {reply : OsdReply} (front : reply.front = true) (accepted : reply.accepted 1 = some (-1)) :
    reply.Plain callingClient := by
  refine ⟨front, ?_⟩
  intro req listed _
  have only : callingClient.requests = [7] := rfl
  rw [only, mem_singleton] at listed
  subst listed
  exact accepted

/-- The acknowledgement of a write and the reply that it is on disk, with a duplicate between them. -/
theorem unsafe_callback_pairing_written :
    ∃ calls, unsafeCalls 7 (callingClient.handleReplies poolOps { epoch := 1, pools := [(1, 3)] } true
        [writeReply 1 false, writeReply 1 false, writeReply 1 true]).log = unsafeCalls 7 callingClient.log ++ calls ∧
      false ∈ calls := by
  have plain : ∀ reply ∈ [writeReply 1 false, writeReply 1 false, writeReply 1 true], reply.Plain callingClient := by
    intro reply listed
    simp only [mem_cons, not_mem_nil, or_false] at listed
    rcases listed with rfl | rfl | rfl <;> exact plain_callingClient rfl rfl
  obtain ⟨calls, called, -, -, pairs, -⟩ := @unsafe_callback_pairing _ poolOps { epoch := 1, pools := [(1, 3)] } true
    callingClient 1 7 _ ⟨rfl, rfl, by decide⟩ (by decide) rfl plain
  have last : writeReply 1 true ∈ [writeReply 1 false, writeReply 1 true] := mem_cons_of_mem _ (mem_cons_self ..)
  exact ⟨calls, called, pairs.mpr ⟨_, _, rfl, ⟨by decide, rfl⟩, rfl, _, last, rfl⟩⟩

/-- A first reply without the flag of a write takes the request away before the reply on disk; and an error that comes
after the first reply is taken for a duplicate of it. -/
theorem unsafe_callback_unpaired :
    Calling callingClient 1 7 ∧ 7 ∈ callingClient.requests ∧ (callingClient.req 7).gotReply = false ∧
      (∀ reply ∈ [{ writeReply 1 false with flagsWrite := false }, writeReply 1 true, writeReply 1 false,
        { writeReply 1 false with result := -5 }], reply.Plain callingClient) ∧
      unsafeCalls 7 (callingClient.handleReplies poolOps { epoch := 1, pools := [(1, 3)] } true
        [{ writeReply 1 false with flagsWrite := false }, writeReply 1 true]).log = [true] ∧
      7 ∈ (callingClient.handleReplies poolOps { epoch := 1, pools := [(1, 3)] } true
        [writeReply 1 false, { writeReply 1 false with result := -5 }]).requests := by
  refine ⟨⟨rfl, rfl, by decide⟩, by decide, rfl, ?_, by decide +kernel, by decide +kernel⟩
  intro reply listed
  simp only [mem_cons, not_mem_nil, or_false] at listed
  rcases listed with rfl | rfl | rfl | rfl <;> exact plain_callingClient rfl rfl

end KmodCeph.OsdClient
