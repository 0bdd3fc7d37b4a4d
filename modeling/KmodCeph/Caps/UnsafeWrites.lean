import KmodCeph.Lib.Reached
import KmodCeph.OsdClient.Requests

namespace KmodCeph.Caps

open Lib OsdClient List

/-- Where `sync_write_wait` is: on `r_safe_completion` of a request, without the lock, or done. -/
inductive WaitPhase where
  | idle
  | waiting (lastTid : Nat) (req : ReqId)
  | returned

/-- `i_unsafe_writes` of an inode; `committed` are the requests that have left it, `safe` those
whose `r_safe_completion` is done. -/
structure UnsafeWrites where
  tid : ReqId → Nat
  writes : List ReqId
  committed : ReqId → Bool
  safe : ReqId → Bool
  phase : WaitPhase

namespace UnsafeWrites

def init (tid : ReqId → Nat) : UnsafeWrites where
  tid := tid
  writes := []
  committed := fun _ => false
  safe := fun _ => false
  phase := .idle

def cephSyncWriteUnsafe (req : ReqId) (isUnsafe : Bool) (ci : UnsafeWrites) : UnsafeWrites :=
  if isUnsafe then { ci with writes := ci.writes ++ [req] }
  else
    { ci with
      writes := ci.writes.filter (· ≠ req)
      committed := Function.update ci.committed req true }

def completeRequest (req : ReqId) (ci : UnsafeWrites) : UnsafeWrites :=
  { ci with safe := Function.update ci.safe req true }

def syncWriteWait (ci : UnsafeWrites) : UnsafeWrites :=
  match ci.writes.getLast? with
  | none => { ci with phase := .returned }
  | some req => { ci with phase := .waiting (ci.tid req) req }

def nextWait (lastTid : Nat) (ci : UnsafeWrites) : UnsafeWrites :=
  match ci.writes.head? with
  | none => { ci with phase := .returned }
  | some req =>
    if ci.tid req < lastTid then { ci with phase := .waiting lastTid req } else { ci with phase := .returned }

end UnsafeWrites

inductive UnsafeCall where
  | reply (req : ReqId) (isUnsafe : Bool)
  | complete (req : ReqId)
  | wait
  | wake

def UnsafeCall.run : UnsafeCall → UnsafeWrites → Except Empty UnsafeWrites
  | .reply req isUnsafe, ci => return ci.cephSyncWriteUnsafe req isUnsafe
  | .complete req, ci => return ci.completeRequest req
  | .wait, ci => return ci.syncWriteWait
  | .wake, ci =>
    match ci.phase with
    | .waiting lastTid _ => return ci.nextWait lastTid
    | _ => return ci

/-- A write is acknowledged at most once and before it is safe; it leaves the list before
`r_safe_completion` is done, which ends the wait for it. -/
def UnsafeCall.Proper : UnsafeCall → UnsafeWrites → Prop
  | .reply req true, ci => req ∉ ci.writes ∧ ci.committed req = false ∧ ci.safe req = false
  | .reply req false, ci => req ∈ ci.writes
  | .complete req, ci => req ∉ ci.writes
  | .wait, ci => ci.phase = .idle
  | .wake, ci => ∃ lastTid req, ci.phase = .waiting lastTid req ∧ ci.safe req

structure Uncommitted (ci : UnsafeWrites) : Prop where
  distinct : ci.writes.Nodup
  open' : ∀ req ∈ ci.writes, ci.committed req = false ∧ ci.safe req = false

/-- What holds while `sync_write_wait` waits for a write. -/
structure Waits (owed : List ReqId) (last : ReqId) (tid : ReqId → Nat) (ci : UnsafeWrites) : Prop where
  uncommitted : Uncommitted ci
  same : ci.tid = tid
  known : last ∈ owed
  left : ∃ kept new, ci.writes = kept ++ new ∧ kept.Sublist owed ∧ ∀ req ∈ owed, req ∉ kept → ci.committed req = true
  phase : match ci.phase with
    | .idle => False
    | .waiting lastTid req => lastTid = tid last ∧ (req = last ∨ ci.committed last = true)
    | .returned => ∀ req ∈ owed, ci.committed req = true

section

variable {ci next : UnsafeWrites} {call : UnsafeCall} {owed : List ReqId} {last : ReqId} {tid : ReqId → Nat}

theorem Uncommitted.init : Uncommitted (.init tid) :=
  ⟨nodup_nil, fun _ listed => by cases listed⟩

theorem UnsafeCall.uncommitted (uncommitted : Uncommitted ci) (proper : call.Proper ci) (ran : call.run ci = .ok next) :
    Uncommitted next := by
  cases call with
  | reply req isUnsafe =>
    cases ran
    cases isUnsafe with
    | true =>
      obtain ⟨absent, fresh⟩ := proper
      refine ⟨?_, ?_⟩
      · exact nodup_append'.mpr ⟨uncommitted.distinct, nodup_singleton _, by simpa using absent⟩
      · intro other listed
        rcases List.mem_append.mp listed with was | last
        · exact uncommitted.open' other was
        · cases List.mem_singleton.mp last
          exact fresh
    | false =>
      refine ⟨uncommitted.distinct.filter _, ?_⟩
      intro other listed
      obtain ⟨was, differs⟩ := List.mem_filter.mp listed
      have apart : other ≠ req := by simpa using differs
      simpa [UnsafeWrites.cephSyncWriteUnsafe, apart] using uncommitted.open' other was
  | complete req =>
    cases ran
    refine ⟨uncommitted.distinct, fun other listed => ?_⟩
    have apart : other ≠ req := fun same => proper (same ▸ listed)
    simpa [UnsafeWrites.completeRequest, apart] using uncommitted.open' other listed
  | wait =>
    cases ran
    unfold UnsafeWrites.syncWriteWait
    split <;> exact ⟨uncommitted.distinct, uncommitted.open'⟩
  | wake =>
    obtain ⟨lastTid, req, phase, -⟩ := proper
    simp only [UnsafeCall.run, phase] at ran
    cases ran
    unfold UnsafeWrites.nextWait
    split
    · exact ⟨uncommitted.distinct, uncommitted.open'⟩
    · split <;> exact ⟨uncommitted.distinct, uncommitted.open'⟩

def LastNewest (tid : ReqId → Nat) (owed : List ReqId) (last : ReqId) : Prop :=
  ∀ req ∈ owed, req ≠ last → tid req < tid last

theorem UnsafeCall.waits (newest : LastNewest tid owed last) (waits : Waits owed last tid ci) (proper : call.Proper ci)
    (ran : call.run ci = .ok next) : Waits owed last tid next := by
  have uncommitted := UnsafeCall.uncommitted waits.uncommitted proper ran
  obtain ⟨kept, new, writes, within, rest⟩ := waits.left
  have phase := waits.phase
  cases call with
  | reply req isUnsafe =>
    cases ran
    cases isUnsafe with
    | true =>
      refine ⟨uncommitted, waits.same, waits.known, ⟨kept, new ++ [req], ?_, within, rest⟩, phase⟩
      simp [UnsafeWrites.cephSyncWriteUnsafe, writes]
    | false =>
      have more : ∀ other, ci.committed other = true →
          (ci.cephSyncWriteUnsafe req false).committed other = true := by
        intro other committed
        by_cases same : other = req
        · subst same
          simp [UnsafeWrites.cephSyncWriteUnsafe]
        · simpa [UnsafeWrites.cephSyncWriteUnsafe, same] using committed
      refine ⟨uncommitted, waits.same, waits.known, ⟨kept.filter (· ≠ req), new.filter (· ≠ req), ?_, ?_, ?_⟩, ?_⟩
      · simp [UnsafeWrites.cephSyncWriteUnsafe, writes]
      · exact List.filter_sublist.trans within
      · intro other owes gone
        by_cases same : other = req
        · subst same
          simp [UnsafeWrites.cephSyncWriteUnsafe]
        · refine more other (rest other owes fun listed => gone ?_)
          exact List.mem_filter.mpr ⟨listed, by simpa using same⟩
      · have kept' : (ci.cephSyncWriteUnsafe req false).phase = ci.phase := rfl
        rw [kept']
        cases now : ci.phase with
        | idle => simp [now] at phase
        | waiting lastTid waited =>
          simp only [now] at phase
          exact ⟨phase.1, phase.2.imp id (more last)⟩
        | returned =>
          simp only [now] at phase
          exact fun other owes => more other (phase other owes)
  | complete req =>
    cases ran
    exact ⟨uncommitted, waits.same, waits.known, ⟨kept, new, writes, within, rest⟩, phase⟩
  | wait =>
    simp only [UnsafeCall.Proper] at proper
    simp [proper] at phase
  | wake =>
    obtain ⟨lastTid, req, now, safe⟩ := proper
    simp only [now] at phase
    obtain ⟨rfl, done⟩ := phase
    have final : ci.committed last = true := by
      rcases done with rfl | committed
      · refine rest req waits.known fun listed => ?_
        have unsafe' := (waits.uncommitted.open' req (writes ▸ mem_append_left _ listed)).2
        rw [safe] at unsafe'
        cases unsafe'
      · exact committed
    simp only [UnsafeCall.run, now] at ran
    cases ran
    have left : ∃ kept new, ci.writes = kept ++ new ∧ kept.Sublist owed ∧
        ∀ req ∈ owed, req ∉ kept → ci.committed req = true := waits.left
    unfold UnsafeWrites.nextWait at uncommitted ⊢
    split
    next none =>
      have empty : kept = [] := by
        rw [head?_eq_none_iff, writes] at none
        exact (List.append_eq_nil_iff.mp none).1
      refine ⟨⟨waits.uncommitted.distinct, waits.uncommitted.open'⟩, waits.same, waits.known, left, ?_⟩
      exact fun other owes => rest other owes (by simp [empty])
    next first head =>
      split
      · exact ⟨⟨waits.uncommitted.distinct, waits.uncommitted.open'⟩, waits.same, waits.known, left, rfl, .inr final⟩
      next younger =>
        refine ⟨⟨waits.uncommitted.distinct, waits.uncommitted.open'⟩, waits.same, waits.known, left, ?_⟩
        have empty : kept = [] := by
          cases equal : kept with
          | nil => rfl
          | cons oldest more =>
            rw [writes, equal] at head
            cases head
            have owes : first ∈ owed := within.subset (equal ▸ mem_cons_self)
            have listed : first ∈ ci.writes := by
              rw [writes, equal]
              exact mem_append_left _ mem_cons_self
            have differs : first ≠ last := by
              rintro rfl
              have open' := (waits.uncommitted.open' first listed).1
              rw [final] at open'
              cases open'
            rw [waits.same] at younger
            exact absurd (newest first owes differs) younger
        exact fun other owes => rest other owes (by simp [empty])

theorem Uncommitted.waits (uncommitted : Uncommitted ci) (found : ci.writes.getLast? = some last) :
    Waits ci.writes last ci.tid ci.syncWriteWait := by
  have equal : ci.syncWriteWait = { ci with phase := .waiting (ci.tid last) last } := by
    simp only [UnsafeWrites.syncWriteWait, found]
  rw [equal]
  refine ⟨⟨uncommitted.distinct, uncommitted.open'⟩, rfl, mem_of_getLast? found, ⟨ci.writes, [], ?_, ?_, ?_⟩, ?_⟩
  · simp
  · exact List.Sublist.refl _
  · exact fun req owes gone => absurd owes gone
  · exact ⟨rfl, .inl rfl⟩

/-- Any of the writes on the list can be committed in turn. -/
theorem commits_reached {start : UnsafeWrites} {reqs : List ReqId}
    (reached : Reached UnsafeCall.run UnsafeCall.Proper start ci) (listed : ∀ req ∈ reqs, req ∈ ci.writes)
    (distinct : reqs.Nodup) : ∃ later, Reached UnsafeCall.run UnsafeCall.Proper start later ∧
      later.writes = ci.writes.filter (· ∉ reqs) ∧ later.tid = ci.tid ∧ later.phase = ci.phase ∧
      ∀ req, later.committed req = true → ci.committed req = true ∨ req ∈ reqs := by
  induction reqs generalizing ci with
  | nil => exact ⟨ci, reached, by simp, rfl, rfl, fun _ => .inl⟩
  | cons req rest ih =>
    obtain ⟨first, distinct⟩ := List.nodup_cons.mp distinct
    have committed := reached.next (.reply req false) (listed req mem_cons_self) rfl
    obtain ⟨later, reached', writes, tid, phase, committed'⟩ := ih committed (by
      intro other member
      have apart : other ≠ req := fun same => first (same ▸ member)
      exact List.mem_filter.mpr ⟨listed other (mem_cons_of_mem _ member), by simpa using apart⟩) distinct
    refine ⟨later, reached', ?_, tid, phase, ?_⟩
    · rw [writes]
      simp only [UnsafeWrites.cephSyncWriteUnsafe, Bool.false_eq_true, if_false, filter_filter]
      refine filter_congr fun other _ => ?_
      simp [Bool.and_comm]
    · intro other done
      rcases committed' other done with before | member
      · by_cases same : other = req
        · exact .inr (same ▸ mem_cons_self)
        · left
          simpa [UnsafeWrites.cephSyncWriteUnsafe, same] using before
      · exact .inr (mem_cons_of_mem _ member)

theorem Uncommitted.skips (uncommitted : Uncommitted ci) (found : ci.writes.getLast? = some last) {req : ReqId}
    (listed : req ∈ ci.writes) (differs : req ≠ last) (younger : ¬ ci.tid req < ci.tid last) :
    ∃ later, Reached UnsafeCall.run UnsafeCall.Proper ci.syncWriteWait later ∧ later.phase = .returned ∧
      later.committed req = false := by
  have equal : ci.syncWriteWait = { ci with phase := .waiting (ci.tid last) last } := by
    simp only [UnsafeWrites.syncWriteWait, found]
  have begun : Reached UnsafeCall.run UnsafeCall.Proper ci.syncWriteWait ci.syncWriteWait := .start
  have others : ∀ other ∈ ci.writes.filter (· ≠ req), other ∈ ci.syncWriteWait.writes := by
    rw [equal]
    exact fun other member => (List.mem_filter.mp member).1
  obtain ⟨later, reached, writes, tid, phase, committed⟩ := commits_reached begun others (uncommitted.distinct.filter _)
  have alone : later.writes = ci.writes.filter (· = req) := by
    rw [writes, equal]
    refine filter_congr fun other member => ?_
    simp [member]
  have gone : last ∉ later.writes := by
    simp [alone, Ne.symm differs]
  have safe := reached.next (.complete last) gone rfl
  have waiting : (later.completeRequest last).phase = .waiting (ci.tid last) last := by
    simp only [UnsafeWrites.completeRequest, phase, equal]
  have head : later.writes.head? = some req := by
    cases filtered : later.writes with
    | nil =>
      have member : req ∈ later.writes := by simpa [alone] using listed
      rw [filtered] at member
      cases member
    | cons first rest =>
      have member : first ∈ later.writes := by simp [filtered]
      rw [alone] at member
      have same : first = req := by simpa using (List.mem_filter.mp member).2
      rw [head?_cons, same]
  have stops : UnsafeCall.run .wake (later.completeRequest last) = .ok { later.completeRequest last with phase := .returned } := by
    have tid' : (later.completeRequest last).tid = ci.tid := by
      rw [UnsafeWrites.completeRequest, tid, equal]
    have head' : (later.completeRequest last).writes.head? = some req := head
    simp only [UnsafeCall.run, waiting, UnsafeWrites.nextWait, head', tid', if_neg younger]
    rfl
  refine ⟨_, safe.next .wake ⟨_, _, waiting, by simp [UnsafeWrites.completeRequest]⟩ stops, rfl, ?_⟩
  have before := (uncommitted.open' req listed).1
  cases done : later.committed req with
  | false => exact done
  | true =>
    rcases committed req done with was | member
    · rw [equal] at was
      rw [before] at was
      cases was
    · simp at member

theorem uncommitted_of_reached (reached : Reached UnsafeCall.run UnsafeCall.Proper (.init tid) ci) : Uncommitted ci :=
  @Reached.preserved _ _ _ _ _ (fun ci => Uncommitted ci) _ _
    (fun _ _ _ meets holds ran => UnsafeCall.uncommitted holds meets ran) Uncommitted.init reached

/-- `sync_write_wait` always waits for every write on the list exactly if the last has the largest tid. -/
theorem syncWriteWait_waits (reached : Reached UnsafeCall.run UnsafeCall.Proper (.init tid) ci) :
    (∀ later, Reached UnsafeCall.run UnsafeCall.Proper ci.syncWriteWait later → later.phase = .returned →
      ∀ req ∈ ci.writes, later.committed req = true) ↔
    ∀ last ∈ ci.writes.getLast?, LastNewest ci.tid ci.writes last := by
  have uncommitted := uncommitted_of_reached reached
  constructor
  · intro waits last found req listed differs
    by_contra younger
    obtain ⟨later, reached, returned, open'⟩ := uncommitted.skips found listed differs younger
    have committed := waits later reached returned req listed
    rw [open'] at committed
    cases committed
  · intro newest later reached returned req listed
    cases found : ci.writes.getLast? with
    | none =>
      rw [getLast?_eq_none_iff] at found
      rw [found] at listed
      cases listed
    | some last =>
      have waits : Waits ci.writes last ci.tid later :=
        @Reached.preserved _ _ _ _ _ (fun later => Waits ci.writes last ci.tid later) _ _
          (fun _ _ _ meets holds ran => UnsafeCall.waits (newest last found) holds meets ran)
          (uncommitted.waits found) reached
      have phase := waits.phase
      rw [returned] at phase
      exact phase req listed

end

def acknowledged (reqs : List ReqId) : UnsafeWrites :=
  reqs.foldl (fun ci req => ci.cephSyncWriteUnsafe req true) (.init fun req => req)

/-- Two writes, of which the first is acknowledged first. -/
theorem syncWriteWait_waits_ordered : ∃ ci later : UnsafeWrites, ci.writes = [3, 5] ∧ later.phase = .returned ∧
    ∀ req ∈ ci.writes, later.committed req = true := by
  have first : Reached UnsafeCall.run UnsafeCall.Proper (.init fun req => req) _ :=
    Reached.start.next (.reply 3 true) ⟨by decide, rfl, rfl⟩ rfl
  have second : Reached _ _ _ (acknowledged [3, 5]) := first.next (.reply 5 true) ⟨by decide, rfl, rfl⟩ rfl
  have begun : Reached UnsafeCall.run UnsafeCall.Proper (acknowledged [3, 5]).syncWriteWait _ := .start
  have committed := begun.next (.reply 5 false) (by unfold UnsafeCall.Proper; decide) rfl
  have safe := committed.next (.complete 5) (by unfold UnsafeCall.Proper; decide) rfl
  have waits := safe.next .wake ⟨5, 5, rfl, by decide⟩ rfl
  have committed' := waits.next (.reply 3 false) (by unfold UnsafeCall.Proper; decide) rfl
  have safe' := committed'.next (.complete 3) (by unfold UnsafeCall.Proper; decide) rfl
  have returned := safe'.next .wake ⟨5, 3, rfl, by decide⟩ rfl
  have newest : ∀ last ∈ (acknowledged [3, 5]).writes.getLast?,
      LastNewest (acknowledged [3, 5]).tid (acknowledged [3, 5]).writes last := by
    intro last found
    cases found
    exact fun req listed differs => by revert req; decide
  exact ⟨_, _, rfl, rfl, (syncWriteWait_waits second).mpr newest _ returned rfl⟩

/-- The write with the larger tid is acknowledged first. -/
theorem syncWriteWait_skips : ∃ ci later : UnsafeWrites,
    Reached UnsafeCall.run UnsafeCall.Proper (.init fun req => req) ci ∧
    Reached UnsafeCall.run UnsafeCall.Proper ci.syncWriteWait later ∧ later.phase = .returned ∧
    ¬ ∀ req ∈ ci.writes, later.committed req = true := by
  have first : Reached UnsafeCall.run UnsafeCall.Proper (.init fun req => req) _ :=
    Reached.start.next (.reply 5 true) ⟨by decide, rfl, rfl⟩ rfl
  have second : Reached _ _ _ (acknowledged [5, 3]) := first.next (.reply 3 true) ⟨by decide, rfl, rfl⟩ rfl
  have begun : Reached UnsafeCall.run UnsafeCall.Proper (acknowledged [5, 3]).syncWriteWait _ := .start
  have committed := begun.next (.reply 3 false) (by unfold UnsafeCall.Proper; decide) rfl
  have safe := committed.next (.complete 3) (by unfold UnsafeCall.Proper; decide) rfl
  have returned := safe.next .wake ⟨3, 3, rfl, by decide⟩ rfl
  exact ⟨_, _, second, returned, rfl, by decide⟩

end KmodCeph.Caps
