import KmodCeph.Lib.Avoids
import KmodCeph.Locks.Ranges

namespace KmodCeph.Locks

open Lib List

def enospc : Int := 28
def sizeofCephFilelock : Nat := 41

/-- Why the locks are not encoded: an error code or a write outside the array. -/
inductive EncodeStop where
  | code (code : Int)
  | outside

/-- The numbers of fcntl and of flock locks. -/
def cephCountLocks (locks : List FileLock) : Nat × Nat :=
  (locks.countP (·.kind = .posix), locks.countP (·.kind = .flock))

/-- One of the two loops of `ceph_encode_locks_to_buffer`; records not yet written are none. -/
def encodeKind (lockSecret : UInt64) (kind : LockKind) (num : Nat) :
    List FileLock → Nat → Nat → List (Option CephFilelock) → Except EncodeStop (Nat × List (Option CephFilelock))
  | [], _, l, flocks => .ok (l, flocks)
  | lock :: rest, seen, l, flocks =>
    if lock.kind = kind then
      if seen + 1 > num then .error (.code (-enospc))
      else do
        let flocks ← writeAt .outside flocks l (lockToCephFilelock lockSecret lock).toOption
        match lockToCephFilelock lockSecret lock with
        | .error code => .error (.code code)
        | .ok _ => encodeKind lockSecret kind num rest (seen + 1) (l + 1) flocks
    else encodeKind lockSecret kind num rest seen l flocks

def cephEncodeLocksToBuffer (lockSecret : UInt64) (locks : List FileLock) (flocks : List (Option CephFilelock))
    (numFcntlLocks numFlockLocks : Nat) : Except EncodeStop (List (Option CephFilelock)) := do
  let (l, flocks) ← encodeKind lockSecret .posix numFcntlLocks locks 0 0 flocks
  let (_, flocks) ← encodeKind lockSecret .flock numFlockLocks locks 0 l flocks
  pure flocks

/-- What is appended to the page list: the record with its `flock_len`, a number of locks, the locks. -/
inductive Piece where
  | reconnect (flockLen : UInt32)
  | count (nlocks : UInt32)
  | locks (flocks : List (Option CephFilelock))
deriving DecidableEq

def cephLocksToPagelist (flocks : List (Option CephFilelock)) (numFcntlLocks numFlockLocks : Nat) : List Piece :=
  [.count (UInt32.ofNat numFcntlLocks), .locks (flocks.take numFcntlLocks), .count (UInt32.ofNat numFlockLocks),
    .locks ((flocks.drop numFcntlLocks).take numFlockLocks)]

/-- The locks when they are counted and when they are encoded, and whether there is memory. -/
structure Round where
  counted : List FileLock
  encoded : List FileLock
  memory : Bool

/-- The last section of `encode_caps_cb` with its rounds, up to that which ends them. So
many pieces fit into the page list; `kmalloc` has no more than `kmallocMax` bytes. -/
def encodeCapsCb (lockSecret : UInt64) (kmallocMax room : Nat) :
    List Round → Option (Round × Except EncodeStop (List Piece))
  | [] => none
  | round :: rest =>
    let (numFcntlLocks, numFlockLocks) := cephCountLocks round.counted
    let size := (numFcntlLocks + numFlockLocks) * sizeofCephFilelock
    if round.memory ∧ size ≤ kmallocMax then
      match cephEncodeLocksToBuffer lockSecret round.encoded (replicate (numFcntlLocks + numFlockLocks) none)
        numFcntlLocks numFlockLocks with
      | .error (.code code) =>
        if code = -enospc then encodeCapsCb lockSecret kmallocMax room rest else some (round, .error (.code code))
      | .error .outside => some (round, .error .outside)
      | .ok flocks =>
        let pieces := .reconnect (UInt32.ofNat (2 * 4 + size)) :: cephLocksToPagelist flocks numFcntlLocks numFlockLocks
        some (round, if pieces.length ≤ room then .ok pieces else .error (.code (-enomem)))
    else some (round, .error (.code (-enomem)))

/-- The records are those of the locks of this kind, in their order. -/
def Records (lockSecret : UInt64) (kind : LockKind) (locks : List FileLock) (records : List CephFilelock) : Prop :=
  (locks.filter (·.kind = kind)).map (lockToCephFilelock lockSecret) = records.map .ok

/-- What is to be appended for these locks; no number in it is too large for its field. -/
def FlockSection (lockSecret : UInt64) (locks : List FileLock) (pieces : List Piece) : Prop :=
  ∃ fcntls flocks : List CephFilelock, Records lockSecret .posix locks fcntls ∧ Records lockSecret .flock locks flocks ∧
    2 * 4 + (fcntls.length + flocks.length) * sizeofCephFilelock < 2 ^ 32 ∧
    pieces = [.reconnect (UInt32.ofNat (2 * 4 + (fcntls.length + flocks.length) * sizeofCephFilelock)),
      .count (UInt32.ofNat fcntls.length), .locks (fcntls.map some),
      .count (UInt32.ofNat flocks.length), .locks (flocks.map some)]

section

variable {lockSecret : UInt64} {kind : LockKind} {locks : List FileLock} {written records : List CephFilelock}

theorem Records.length_eq (encoded : Records lockSecret kind locks records) :
    records.length = locks.countP (·.kind = kind) := by
  have same := congrArg List.length encoded
  rw [length_map, length_map] at same
  rw [countP_eq_length_filter, same]

theorem set_written (record : CephFilelock) (left : Nat) :
    (written.map some ++ replicate (left + 1) none).set written.length (some record) =
      (written ++ [record]).map some ++ replicate left none := by
  rw [set_append_right _ _ (length_map some).le, length_map, Nat.sub_self, replicate_succ,
    set_cons_zero, map_append, append_assoc]
  rfl

/-- What a loop leaves: behind what was written there are the records of its locks. -/
def Wrote (lockSecret : UInt64) (kind : LockKind) (locks : List FileLock) (written : List CephFilelock)
    (left bound : Nat) (result : Nat × List (Option CephFilelock)) : Prop :=
  ∃ records, Records lockSecret kind locks records ∧ records.length ≤ bound ∧ result.1 = (written ++ records).length ∧
    result.2 = (written ++ records).map some ++ replicate (left - records.length) none

theorem encodeKind_writes {num seen left : Nat} (room : num ≤ seen + left) :
    Avoids (· = .outside) (encodeKind lockSecret kind num locks seen written.length
      (written.map some ++ replicate left none)) (Wrote lockSecret kind locks written left (num - seen)) := by
  induction locks generalizing seen written left with
  | nil => exact ⟨[], rfl, Nat.zero_le _, by rw [List.append_nil], by rw [List.append_nil]; rfl⟩
  | cons lock rest ih =>
    refine Avoids.ite (fun this => Avoids.ite (fun _ => nofun) fun few => ?_) fun other => ?_
    · obtain ⟨left, rfl⟩ := Nat.exists_eq_succ_of_ne_zero (n := left) (by omega)
      refine Avoids.bind _ (Avoids.writeAt fun _ => by simp) fun flocks wrote => ?_
      cases ran : lockToCephFilelock lockSecret lock with
      | error code => exact nofun
      | ok record =>
        rw [wrote.1, ran]
        have next := @ih (written ++ [record]) (seen + 1) left (by omega)
        rw [length_append, length_singleton, ← set_written] at next
        refine next.mono fun result later => ?_
        obtain ⟨records, encoded, bounded, position, filled⟩ := later
        rw [append_assoc, singleton_append] at position filled
        refine ⟨record :: records, ?_, ?_, position, ?_⟩
        · unfold Records at encoded ⊢
          rw [filter_cons_of_pos (by simpa using this), map_cons, ran, encoded, map_cons]
        · rw [length_cons]
          lia
        · rw [filled, length_cons, Nat.succ_eq_add_one, Nat.add_sub_add_right]
    · refine (@ih written seen left room).mono fun result later => ?_
      unfold Wrote Records at later ⊢
      rwa [filter_cons_of_neg (by simpa using other)]

/-- The buffer has the records of both kinds first, no more of a kind than were counted. -/
theorem encodeLocks_writes (numFcntl numFlock : Nat) :
    Avoids (· = .outside)
      (cephEncodeLocksToBuffer lockSecret locks (replicate (numFcntl + numFlock) none) numFcntl numFlock)
      fun flocks => ∃ fcntls records, Records lockSecret .posix locks fcntls ∧ Records lockSecret .flock locks records ∧
        fcntls.length ≤ numFcntl ∧ records.length ≤ numFlock ∧ flocks = (fcntls ++ records).map some ++
          replicate (numFcntl + numFlock - fcntls.length - records.length) none := by
  refine Avoids.bind _ (@encodeKind_writes _ _ _ [] _ _ _ (by omega)) fun result first => ?_
  obtain ⟨fcntls, encoded, fewer, position, filled⟩ := first
  have second := @encodeKind_writes lockSecret .flock locks ([] ++ fcntls) numFlock 0
    (numFcntl + numFlock - fcntls.length) (by lia)
  rw [← position, ← filled] at second
  refine Avoids.bind _ second fun result later => ?_
  obtain ⟨records, encodedFlocks, fewerFlocks, -, filled⟩ := later
  exact ⟨fcntls, records, encoded, encodedFlocks, fewer, fewerFlocks, filled⟩

end

section

variable {lockSecret : UInt64} {kmallocMax room : Nat} {rounds : List Round} {last : Round}
variable {result : Except EncodeStop (List Piece)}

/-- Where the rounds end, there was memory for as many locks as were counted. -/
theorem encodeCapsCb_ends
    (ran : encodeCapsCb lockSecret kmallocMax room rounds = some (last, result)) :
    result ≠ .error .outside ∧ ∀ pieces, result = .ok pieces →
      ∃ fcntls records, Records lockSecret .posix last.encoded fcntls ∧
        Records lockSecret .flock last.encoded records ∧
        let (numFcntl, numFlock) := cephCountLocks last.counted
        (numFcntl + numFlock) * sizeofCephFilelock ≤ kmallocMax ∧
        fcntls.length ≤ numFcntl ∧ records.length ≤ numFlock ∧
        pieces = .reconnect (UInt32.ofNat (2 * 4 + (numFcntl + numFlock) * sizeofCephFilelock)) ::
          cephLocksToPagelist ((fcntls ++ records).map some ++
            replicate (numFcntl + numFlock - fcntls.length - records.length) none) numFcntl numFlock := by
  induction rounds with
  | nil => cases ran
  | cons round rest ih =>
    unfold encodeCapsCb at ran
    simp only at ran
    split at ran
    next enough =>
      have writes := @encodeLocks_writes lockSecret round.encoded (cephCountLocks round.counted).1
        (cephCountLocks round.counted).2
      split at ran
      next code encoded =>
        split at ran
        · exact ih ran
        · cases ran
          exact ⟨nofun, nofun⟩
      next encoded => exact absurd rfl (writes.error encoded)
      next flocks encoded =>
        obtain ⟨fcntls, records, posix, flock, fewer, fewerFlocks, rfl⟩ := writes.ok encoded
        cases ran
        split
        · refine ⟨nofun, fun pieces same => ?_⟩
          cases same
          exact ⟨fcntls, records, posix, flock, enough.2, fewer, fewerFlocks, rfl⟩
        · exact ⟨nofun, nofun⟩
    next =>
      cases ran
      exact ⟨nofun, nofun⟩

/-- Nothing is written outside the array. What is appended is as it should be exactly if,
the last time, there were as many locks of each kind to encode as had been counted. -/
theorem flock_section_exact_iff (limited : kmallocMax < 2 ^ 31)
    (ran : encodeCapsCb lockSecret kmallocMax room rounds = some (last, result)) :
    result ≠ .error .outside ∧ ∀ pieces, result = .ok pieces →
      (FlockSection lockSecret last.encoded pieces ↔ cephCountLocks last.encoded = cephCountLocks last.counted) := by
  obtain ⟨inside, appended⟩ := encodeCapsCb_ends ran
  refine ⟨inside, fun pieces same => ?_⟩
  obtain ⟨fcntls, records, posix, flock, enough, fewer, fewerFlocks, rfl⟩ := appended pieces same
  have fcntlCount := posix.length_eq
  have flockCount := flock.length_eq
  simp only [sizeofCephFilelock] at enough
  constructor
  · rintro ⟨fcntls', records', posix', flock', small, same⟩
    have fcntlCount' := posix'.length_eq
    have flockCount' := flock'.length_eq
    simp only [cephLocksToPagelist, List.cons.injEq, Piece.count.injEq] at same
    obtain ⟨-, fcntlSame, -, flockSame, -⟩ := same
    simp only [sizeofCephFilelock] at small
    have size : UInt32.size = 2 ^ 32 := rfl
    have fcntlSame := congrArg UInt32.toNat fcntlSame
    have flockSame := congrArg UInt32.toNat flockSame
    rw [UInt32.toNat_ofNat_of_lt' (by lia), UInt32.toNat_ofNat_of_lt' (by lia)] at fcntlSame flockSame
    exact Prod.ext (fcntlCount'.symm.trans fcntlSame.symm) (flockCount'.symm.trans flockSame.symm)
  · intro counted
    have fcntlSame : last.counted.countP (·.kind = .posix) = fcntls.length :=
      (fcntlCount.trans (congrArg Prod.fst counted)).symm
    have flockSame : last.counted.countP (·.kind = .flock) = records.length :=
      (flockCount.trans (congrArg Prod.snd counted)).symm
    refine ⟨fcntls, records, posix, flock, ?_, ?_⟩
    · simp only [sizeofCephFilelock]
      lia
    · simp [cephLocksToPagelist, fcntlSame, flockSame]

end

/-- A lock that was added after the first count is encoded in the second round. -/
def addedLater : List Round := [⟨[], [lockOf 99], true⟩, ⟨[lockOf 99], [lockOf 99], true⟩]

theorem flock_section_exact_added :
    ∃ pieces, encodeCapsCb 1 4096 5 addedLater = some (⟨[lockOf 99], [lockOf 99], true⟩, .ok pieces) ∧
      FlockSection 1 [lockOf 99] pieces :=
  ⟨_, rfl, ((@flock_section_exact_iff 1 4096 5 addedLater _ _ (by decide) rfl).2 _ rfl).mpr rfl⟩

/-- Of two locks that were counted one is gone: a record is appended that was never written. -/
theorem flock_section_unwritten :
    ∃ pieces, encodeCapsCb 1 4096 5 [⟨[lockOf 99, lockOf 9], [lockOf 99], true⟩] =
        some (⟨[lockOf 99, lockOf 9], [lockOf 99], true⟩, .ok pieces) ∧
      .count 2 ∈ pieces ∧ (∃ flocks, .locks flocks ∈ pieces ∧ none ∈ flocks) ∧
      ¬ FlockSection 1 [lockOf 99] pieces := by
  refine ⟨_, rfl, by decide, ⟨_, .tail _ (.tail _ (.head _)), by decide⟩, ?_⟩
  rintro ⟨fcntls, flocks, posix, -, -, same⟩
  simp only [cephLocksToPagelist, List.cons.injEq, Piece.count.injEq] at same
  have one := posix.length_eq
  rw [show fcntls.length = 1 from one] at same
  exact absurd same.2.1 (by decide)

end KmodCeph.Locks
