import KmodCeph.Caps.Issued

namespace KmodCeph.Caps

open Lib CephInode

def erofs : Int := 30
def enospc : Int := 28
def eoldsnapc : Int := 85

/-- How often `ceph_sync_write_unsafe` was called for a request before the write returned. -/
inductive Commit where
  | never
  | pending
  | safe
deriving DecidableEq

structure OsdWrite where
  len : Nat
  ret : Int
  commit : Commit

/-- What happens from `retry_snap` on. Only the osds return `-EOLDSNAPC`. -/
structure Attempt where
  full : Bool
  getCaps : Int
  issued : CapMask
  writeback : Int
  invalidated : Int
  requests : List OsdWrite
  buffered : Int
  nearfull : Bool
  fsync : Int
  local' : ∀ err ∈ [getCaps, writeback, invalidated, buffered, fsync], err ≠ -eoldsnapc

structure AioCall where
  snap : Bool
  segmentChecks : Int
  writeChecks : Int
  count : Nat
  removeSuid : Int
  updateTime : Int
  lazy : Bool
  direct : Bool
  sync : Bool
  osync : Bool
  local' : ∀ err ∈ [segmentChecks, writeChecks, removeSuid, updateTime], err ≠ -eoldsnapc

/-- The inode, whether `i_mutex` is held, and how many requests of the call are unsafe. -/
structure WriteState where
  ci : CephInode
  locked : Bool
  pending : Nat

namespace WriteState

def get (caps : CapMask) (s : WriteState) : WriteState := { s with ci := takeCapRefs caps s.ci }

def put (caps : CapMask) (s : WriteState) : Except InodeBug WriteState := do
  let ci ← cephPutCapRefs caps s.ci
  pure { s with ci }

def syncWriteUnsafe (commit : Commit) (s : WriteState) : Except InodeBug WriteState :=
  match commit with
  | .never => pure s
  | .pending => pure { s.get cephCapFileWr with pending := s.pending + 1 }
  | .safe => (s.get cephCapFileWr).put cephCapFileWr

/-- The loop of `ceph_sync_write` and `ceph_sync_direct_write`; only the first has a callback. -/
def syncWrites (direct : Bool) : List OsdWrite → Int → Nat → WriteState → Except InodeBug (Int × Nat × WriteState)
  | [], ret, written, s => pure (ret, written, s)
  | req :: rest, _, written, s => do
    let s ← s.syncWriteUnsafe (if direct then .never else req.commit)
    if req.ret = 0 then syncWrites direct rest req.ret (written + req.len) s else pure (req.ret, written, s)

def cephSyncWrite (direct : Bool) (attempt : Attempt) (s : WriteState) : Except InodeBug (Int × WriteState) :=
  if attempt.writeback < 0 then pure (attempt.writeback, s)
  else do
    let (ret, written, s) ← s.syncWrites direct attempt.requests attempt.invalidated 0
    pure (if ret ≠ -eoldsnapc ∧ written > 0 then written else ret, s)

/-- From the label `out` on -/
def out (err written : Int) (s : WriteState) : Int × WriteState :=
  (if written ≠ 0 then written else err, { s with locked := false })

def finish (call : AioCall) (attempt : Attempt) (got : CapMask) (written : Int) (s : WriteState) :
    Except InodeBug (Int × WriteState) := do
  let s ← s.put got
  let synced := written ≥ 0 ∧ (call.osync ∨ attempt.nearfull)
  let err := if synced then attempt.fsync else attempt.getCaps
  let written := if synced ∧ attempt.fsync < 0 then attempt.fsync else written
  pure (if written ≠ 0 then written else err, s)

end WriteState

def AioCall.want (call : AioCall) : CapMask :=
  if call.lazy then cephCapFileBuffer ||| cephCapFileLazyio else cephCapFileBuffer

def AioCall.got (call : AioCall) (attempt : Attempt) : CapMask := cephCapFileWr ||| (attempt.issued &&& call.want)

def AioCall.synchronous (call : AioCall) (attempt : Attempt) : Bool :=
  call.got attempt &&& (cephCapFileBuffer ||| cephCapFileLazyio) = 0 ∨ call.direct ∨ call.sync

/-- From `retry_snap` on; none while it is tried again. -/
def retrySnap (call : AioCall) : List Attempt → Int → WriteState → Except InodeBug (Option (Int × WriteState))
  | [], _, _ => pure none
  | attempt :: rest, written, s =>
    if attempt.full then pure (some (s.out (-enospc) written))
    else if attempt.getCaps < 0 then pure (some (s.out attempt.getCaps written))
    else
      let s := s.get (call.got attempt)
      if call.synchronous attempt then do
        let (written, s) ← { s with locked := false }.cephSyncWrite call.direct attempt
        if written = -eoldsnapc then retrySnap call rest written { s with locked := true }
        else some <$> s.finish call attempt (call.got attempt) written
      else some <$> { s with locked := false }.finish call attempt (call.got attempt) attempt.buffered

def cephAioWrite (call : AioCall) (attempts : List Attempt) (ci : CephInode) :
    Except InodeBug (Option (Int × WriteState)) :=
  if call.snap then pure (some (-erofs, { ci, locked := false, pending := 0 }))
  else
    let s : WriteState := { ci, locked := true, pending := 0 }
    if call.segmentChecks ≠ 0 then pure (some (s.out call.segmentChecks 0))
    else if call.writeChecks ≠ 0 then pure (some (s.out call.writeChecks 0))
    else if call.count = 0 then pure (some (s.out call.writeChecks 0))
    else if call.removeSuid ≠ 0 then pure (some (s.out call.removeSuid 0))
    else if call.updateTime ≠ 0 then pure (some (s.out call.updateTime 0))
    else retrySnap call attempts 0 s

/-- The attempt gets to a write to the osds, which stops at `-EOLDSNAPC`. -/
def Attempt.Old (attempt : Attempt) : Prop :=
  0 ≤ attempt.writeback ∧ ∃ req, attempt.requests.find? (·.ret ≠ 0) = some req ∧ req.ret = -eoldsnapc

def Attempt.Retried (call : AioCall) (attempt : Attempt) : Prop :=
  attempt.full = false ∧ 0 ≤ attempt.getCaps ∧ call.synchronous attempt ∧ attempt.Old

/-- The call gets to its first attempt, and this is not the last. -/
def Retries (call : AioCall) (attempts : List Attempt) : Prop :=
  call.snap = false ∧ call.segmentChecks = 0 ∧ call.writeChecks = 0 ∧ call.count ≠ 0 ∧ call.removeSuid = 0 ∧
    call.updateTime = 0 ∧ ∃ attempt ∈ attempts.head?, attempt.Retried call

/-- The counts of references: pin, rd, rdcache, wr and wb. -/
def CephInode.capRefs (ci : CephInode) : Int × Int × Int × Int × Int :=
  (ci.pinRef, ci.rdRef, ci.rdcacheRef, ci.wrRef, ci.wbRef)

def capWeight (caps : CapMask) : Int × Int × Int × Int × Int :=
  let one (bit : CapMask) : Int := if caps &&& bit ≠ 0 then 1 else 0
  (one cephCapPin, one cephCapFileRd, one cephCapFileCache, one cephCapFileWr, one cephCapFileBuffer)

/-- What is left is the references of unsafe requests. -/
def Balanced (ci : CephInode) (value : Int) (after : WriteState) : Prop :=
  after.ci.capRefs = ci.capRefs + (after.pending : Int) • capWeight cephCapFileWr ∧ after.locked = false ∧
    value ≠ -eoldsnapc

/-- The counts without those of the unsafe requests. -/
def WriteState.owed (s : WriteState) : Int × Int × Int × Int × Int :=
  s.ci.capRefs - (s.pending : Int) • capWeight cephCapFileWr

section

variable {call : AioCall} {attempt : Attempt} {attempts : List Attempt} {caps : CapMask} {s after : WriteState}
variable {value written : Int}

theorem owed_get : (s.get caps).owed = s.owed + capWeight caps := by
  simp only [WriteState.owed, WriteState.get, capRefs, takeCapRefs, capWeight]
  ext <;> simp <;> split <;> lia

theorem capRefs_putCapRefs {ci ci' : CephInode} (ran : cephPutCapRefs caps ci = .ok ci') :
    ci'.capRefs = ci.capRefs - capWeight caps := by
  unfold cephPutCapRefs at ran
  by_cases writer : caps &&& cephCapFileWr ≠ 0
  · simp only [if_pos writer] at ran
    split at ran
    · obtain ⟨capSnaps, -, done⟩ := ok_of_bind ran
      cases done
      simp only [capRefs, capWeight, if_pos writer]
      ext <;> simp <;> split <;> lia
    · cases ran
      simp only [capRefs, capWeight, if_pos writer]
      ext <;> simp <;> split <;> lia
  · simp only [if_neg writer] at ran
    cases ran
    simp only [capRefs, capWeight, if_neg writer]
    ext <;> simp <;> split <;> lia

theorem owed_put (ran : s.put caps = .ok after) : after.owed = s.owed - capWeight caps ∧ after.locked = s.locked := by
  obtain ⟨ci, put, done⟩ := ok_of_bind ran
  cases done
  refine ⟨?_, rfl⟩
  simp only [WriteState.owed, capRefs_putCapRefs put]
  abel

theorem owed_syncWriteUnsafe {commit : Commit} (ran : s.syncWriteUnsafe commit = .ok after) :
    after.owed = s.owed ∧ after.locked = s.locked := by
  cases commit with
  | never =>
    cases ran
    exact ⟨rfl, rfl⟩
  | pending =>
    cases ran
    have taken := @owed_get cephCapFileWr s
    refine ⟨?_, rfl⟩
    simp only [WriteState.owed, Nat.cast_add, Nat.cast_one, add_smul, one_smul] at taken ⊢
    rw [← sub_sub, eq_sub_of_add_eq taken.symm]
    rfl
  | safe =>
    obtain ⟨owed, locked⟩ := owed_put ran
    refine ⟨?_, locked⟩
    rw [owed, owed_get, add_sub_cancel_right]

/-- The loop keeps the balance, and returns what the first request that fails does. -/
theorem syncWrites_keeps {direct : Bool} {requests : List OsdWrite} {ret ret' : Int} {written written' : Nat}
    (fresh : ret ≠ -eoldsnapc) (ran : s.syncWrites direct requests ret written = .ok (ret', written', after)) :
    after.owed = s.owed ∧ after.locked = s.locked ∧
      (ret' = -eoldsnapc ↔ ∃ req, requests.find? (·.ret ≠ 0) = some req ∧ req.ret = -eoldsnapc) := by
  induction requests generalizing s ret written with
  | nil =>
    cases ran
    exact ⟨rfl, rfl, by simp [fresh]⟩
  | cons req rest ih =>
    obtain ⟨middle, called, ran⟩ := ok_of_bind ran
    have kept := owed_syncWriteUnsafe called
    by_cases zero : req.ret = 0
    · rw [if_pos zero] at ran
      obtain ⟨owed, locked, last⟩ := ih (by rw [zero]; decide) ran
      refine ⟨owed.trans kept.1, locked.trans kept.2, ?_⟩
      rw [last, List.find?_cons_of_neg (by simpa using zero)]
    · rw [if_neg zero] at ran
      cases ran
      refine ⟨kept.1, kept.2, ?_⟩
      rw [List.find?_cons_of_pos (by simpa using zero)]
      simp

theorem cephSyncWrite_keeps {direct : Bool} (ran : s.cephSyncWrite direct attempt = .ok (value, after)) :
    after.owed = s.owed ∧ after.locked = s.locked ∧ (value = -eoldsnapc ↔ attempt.Old) := by
  unfold WriteState.cephSyncWrite at ran
  split at ran
  next failed =>
    cases ran
    have other := attempt.local' attempt.writeback (by simp)
    exact ⟨rfl, rfl, by simp [Attempt.Old, other, failed]⟩
  next passed =>
    obtain ⟨⟨ret, written, middle⟩, wrote, done⟩ := ok_of_bind ran
    cases done
    obtain ⟨owed, locked, last⟩ := syncWrites_keeps (attempt.local' attempt.invalidated (by simp)) wrote
    refine ⟨owed, locked, ?_⟩
    rw [Attempt.Old, ← last]
    unfold eoldsnapc
    split <;> lia

theorem finish_keeps {got : CapMask} (other : written ≠ -eoldsnapc)
    (ran : s.finish call attempt got written = .ok (value, after)) :
    after.owed = s.owed - capWeight got ∧ after.locked = s.locked ∧ value ≠ -eoldsnapc := by
  obtain ⟨middle, put, done⟩ := ok_of_bind ran
  have fsync := attempt.local' attempt.fsync (by simp)
  have getCaps := attempt.local' attempt.getCaps (by simp)
  cases done
  refine ⟨(owed_put put).1, (owed_put put).2, ?_⟩
  split_ifs <;> assumption

/-- `i_wr_ref` counts what was got and not put. -/
theorem got_counts : 0 < (capWeight (call.got attempt)).2.2.2.1 := by
  have writer : call.got attempt &&& cephCapFileWr ≠ 0 := by
    intro none
    have bit := congrArg (·.getLsbD 12) none
    simp [AioCall.got, cephCapFileWr] at bit
  change (0 : Int) < if call.got attempt &&& cephCapFileWr ≠ 0 then 1 else 0
  rw [if_pos writer]
  decide

theorem ok_of_some {α : Type} {result : Except InodeBug α} {a : α} (ran : some <$> result = .ok (some a)) :
    result = .ok a := by
  cases result with
  | error bug => cases ran
  | ok other =>
    cases ran
    rfl

/-- An attempt keeps the balance, or it keeps what it got and there is another. -/
theorem retrySnap_cases {rest : List Attempt}
    (ran : retrySnap call (attempt :: rest) written s = .ok (some (value, after))) :
    (¬ attempt.Retried call ∧ after.owed = s.owed ∧ after.locked = false ∧ (written = 0 → value ≠ -eoldsnapc)) ∨
      attempt.Retried call ∧ ∃ middle : WriteState, middle.owed = s.owed + capWeight (call.got attempt) ∧
        retrySnap call rest (-eoldsnapc) middle = .ok (some (value, after)) := by
  have local' := attempt.local'
  unfold retrySnap at ran
  split at ran
  next full =>
    cases ran
    exact .inl ⟨by simp [Attempt.Retried, full], rfl, rfl, by simp +contextual [enospc, eoldsnapc]⟩
  next =>
  split at ran
  next failed =>
    cases ran
    refine .inl ⟨by simp [Attempt.Retried, failed], rfl, rfl, fun first => ?_⟩
    rw [if_neg (not_not.mpr first)]
    exact local' _ (by simp)
  next passed =>
  have taken := @owed_get (call.got attempt) s
  split at ran
  next synchronous =>
    obtain ⟨⟨written', middle⟩, wrote, ran⟩ := ok_of_bind ran
    obtain ⟨owed, locked, old⟩ := cephSyncWrite_keeps wrote
    dsimp only at ran
    split at ran
    next again =>
      refine .inr ⟨⟨by simp_all, by omega, synchronous, old.mp again⟩, { middle with locked := true }, ?_, again ▸ ran⟩
      exact Eq.trans owed taken
    next other =>
      obtain ⟨kept, unlocked, value⟩ := finish_keeps other (ok_of_some ran)
      refine .inl ⟨fun retried => other (old.mpr retried.2.2.2), ?_, unlocked.trans locked, fun _ => value⟩
      rw [kept, owed]
      exact sub_eq_of_eq_add taken
  next buffered =>
    obtain ⟨kept, unlocked, value⟩ := finish_keeps (local' _ (by simp)) (ok_of_some ran)
    refine .inl ⟨fun retried => buffered retried.2.2.1, kept.trans (sub_eq_of_eq_add taken), unlocked, fun _ => value⟩

/-- No attempt gives back more than it took. -/
theorem retrySnap_counts (ran : retrySnap call attempts written s = .ok (some (value, after))) :
    s.owed.2.2.2.1 ≤ after.owed.2.2.2.1 := by
  induction attempts generalizing written s with
  | nil => cases ran
  | cons attempt rest ih =>
    rcases retrySnap_cases ran with ⟨-, same, -⟩ | ⟨-, middle, kept, again⟩
    · rw [same]
    · have more := ih again
      have got := @got_counts call attempt
      rw [kept] at more
      exact le_trans (le_add_of_nonneg_right got.le) more

/-- The references are balanced, the mutex is free and the value is no `-EOLDSNAPC` exactly
if the call is not tried again. -/
theorem aio_write_balanced_iff {ci : CephInode}
    (ran : cephAioWrite call attempts ci = .ok (some (value, after))) :
    Balanced ci value after ↔ ¬ Retries call attempts := by
  have local' := call.local'
  have start : WriteState.owed { ci, locked := true, pending := 0 } = ci.capRefs := by simp [WriteState.owed]
  have balanced (owed : after.owed = ci.capRefs) (unlocked : after.locked = false) (other : value ≠ -eoldsnapc) :
      Balanced ci value after := ⟨sub_eq_iff_eq_add.mp owed, unlocked, other⟩
  unfold cephAioWrite at ran
  split at ran
  next snap =>
    cases ran
    exact iff_of_true (balanced (by simp [WriteState.owed]) rfl (by decide)) (by simp [Retries, snap])
  next =>
  split at ran
  next failed =>
    cases ran
    exact iff_of_true (balanced start rfl (local' _ (by simp))) (by simp [Retries, failed])
  next =>
  split at ran
  next failed =>
    cases ran
    exact iff_of_true (balanced start rfl (local' _ (by simp))) (by simp [Retries, failed])
  next =>
  split at ran
  next empty =>
    cases ran
    exact iff_of_true (balanced start rfl (local' _ (by simp))) (by simp [Retries, empty])
  next =>
  split at ran
  next failed =>
    cases ran
    exact iff_of_true (balanced start rfl (local' _ (by simp))) (by simp [Retries, failed])
  next =>
  split at ran
  next failed =>
    cases ran
    exact iff_of_true (balanced start rfl (local' _ (by simp))) (by simp [Retries, failed])
  next =>
  cases attempts with
  | nil => cases ran
  | cons attempt rest =>
    rcases retrySnap_cases ran with ⟨once, owed, unlocked, other⟩ | ⟨retried, middle, kept, again⟩
    · refine iff_of_true (balanced (owed.trans start) unlocked (other rfl)) ?_
      rintro ⟨-, -, -, -, -, -, _, first, retried⟩
      cases first
      exact once retried
    · refine iff_of_false (fun balanced => ?_) fun never => never ?_
      · have more := retrySnap_counts again
        have got := @got_counts call attempt
        have same : after.owed = ci.capRefs := sub_eq_iff_eq_add.mpr balanced.1
        rw [kept, start, same] at more
        exact absurd more (not_le.mpr (lt_add_of_pos_right _ got))
      · exact ⟨by simp_all, by simp_all, by simp_all, by assumption, by simp_all, by simp_all, attempt, rfl, retried⟩

end

/-- An attempt to write a page to the osds. -/
def pageWrite (full : Bool) (ret : Int) : Attempt :=
  { full, getCaps := 0, issued := 0, writeback := 0, invalidated := 0, requests := [⟨4096, ret, .never⟩]
    buffered := 0, nearfull := false, fsync := 0, local' := by decide }

def pageCall : AioCall :=
  { snap := false, segmentChecks := 0, writeChecks := 0, count := 4096, removeSuid := 0, updateTime := 0
    lazy := false, direct := false, sync := false, osync := false, local' := by decide }

def idleInode : CephInode := .clean ⟨1, 1⟩

theorem aio_write_balanced_page : ∃ after, cephAioWrite pageCall [pageWrite false 0] idleInode = .ok (some (4096, after)) ∧
    Balanced idleInode 4096 after := by
  obtain ⟨after, ran⟩ : ∃ after, cephAioWrite pageCall [pageWrite false 0] idleInode = .ok (some (4096, after)) := ⟨_, rfl⟩
  refine ⟨after, ran, (aio_write_balanced_iff ran).mpr ?_⟩
  rintro ⟨-, -, -, -, -, -, _, first, -, -, -, -, req, found, -⟩
  cases first
  cases found

/-- A write that is tried again keeps a reference, and ends with `-EOLDSNAPC` if the osds are full then. -/
theorem aio_write_leaks :
    (∃ after, cephAioWrite pageCall [pageWrite false (-eoldsnapc), pageWrite false 0] idleInode =
        .ok (some (4096, after)) ∧ ¬ Balanced idleInode 4096 after) ∧
      ∃ after, cephAioWrite pageCall [pageWrite false (-eoldsnapc), pageWrite true 0] idleInode =
        .ok (some (-eoldsnapc, after)) :=
  ⟨⟨_, rfl, fun balanced => absurd (congrArg (·.2.2.2.1) balanced.1) (by decide)⟩, _, rfl⟩

end KmodCeph.Caps
