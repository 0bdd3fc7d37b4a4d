import KmodCeph.Basic

namespace KmodCeph.Locks

def enolck : Int := 37
def llongMax : Int64 := 9223372036854775807

def cephLockFcntl : UInt8 := 1
def cephLockFlock : UInt8 := 2
def cephLockShared : UInt8 := 1
def cephLockExcl : UInt8 := 2
def cephLockUnlock : UInt8 := 4

def fRdlck : UInt8 := 0
def fWrlck : UInt8 := 1
def fUnlck : UInt8 := 2

def cephMdsOpSetfilelock : UInt16 := 0x1109
def cephMdsOpGetfilelock : UInt16 := 0x110

/-- Which of `FL_POSIX`, `FL_FLOCK` and neither a lock has; no lock has both. -/
inductive LockKind where
  | posix
  | flock
  | other
deriving DecidableEq

/-- `struct file_lock`; the owner and the file are their addresses. -/
structure FileLock where
  kind : LockKind
  flType : UInt8
  flOwner : UInt64
  flFile : UInt64
  flPid : UInt32
  flStart : Int64
  flEnd : Int64
deriving DecidableEq

inductive LockCmd where
  | getlk
  | setlk
  | setlkw
deriving DecidableEq

/-- The operation and the arguments of a request about a file lock. -/
structure FilelockChange where
  operation : UInt16
  rule : UInt8
  type : UInt8
  owner : UInt64
  pid : UInt64
  start : UInt64
  length : UInt64
  wait : UInt8

/-- `struct ceph_filelock` -/
structure CephFilelock where
  start : UInt64
  length : UInt64
  client : UInt64
  owner : UInt64
  pid : UInt64
  type : UInt8
deriving DecidableEq

def lockCommand (fl : FileLock) : UInt8 :=
  if fl.flType = fRdlck then cephLockShared else if fl.flType = fWrlck then cephLockExcl else cephLockUnlock

section

variable (lockSecret : UInt64)

def secureAddr (addr : UInt64) : UInt64 := (lockSecret ^^^ addr) ||| 0x8000000000000000

/-- What `ceph_lock_message` sends. -/
def cephLockMessage (lockType : UInt8) (operation : UInt16) (cmd wait : UInt8) (fl : FileLock) : FilelockChange :=
  { operation, wait
    rule := lockType
    type := cmd
    owner := secureAddr lockSecret (if lockType = cephLockFcntl then fl.flOwner else fl.flFile)
    pid := fl.flPid.toUInt64
    start := fl.flStart.toUInt64
    length := if fl.flEnd = llongMax then 0 else (fl.flEnd - fl.flStart + 1).toUInt64 }

/-- What `ceph_lock_message` makes of the reply to a `GETFILELOCK`. -/
def readReply (reply : CephFilelock) (fl : FileLock) : FileLock :=
  let length := reply.start + reply.length
  { fl with
    flPid := reply.pid.toUInt32
    flType :=
      if reply.type = cephLockShared then fRdlck else if reply.type = cephLockExcl then fWrlck else fUnlck
    flStart := reply.start.toInt64
    flEnd := if length ≥ 1 then (length - 1).toInt64 else 0 }

/-- The first message of `ceph_lock`; the last argument but one is whether the inode has mandatory locks. -/
def cephLock (cmd : LockCmd) (mandatory : Bool) (fl : FileLock) : Except Int FilelockChange :=
  if fl.kind ≠ .posix then .error (-enolck)
  else if mandatory ∧ fl.flType ≠ fUnlck then .error (-enolck)
  else .ok (cephLockMessage lockSecret cephLockFcntl
    (if cmd = .getlk then cephMdsOpGetfilelock else cephMdsOpSetfilelock) (lockCommand fl)
    (if cmd = .setlkw then 1 else 0) fl)

def cephFlock (cmd : LockCmd) (mandatory : Bool) (fl : FileLock) : Except Int FilelockChange :=
  if fl.kind ≠ .flock then .error (-enolck)
  else if mandatory ∧ fl.flType ≠ fUnlck then .error (-enolck)
  else .ok (cephLockMessage lockSecret cephLockFlock cephMdsOpSetfilelock (lockCommand fl)
    (if cmd = .setlkw then 1 else 0) fl)

def lockToCephFilelock (lock : FileLock) : Except Int CephFilelock :=
  if lock.flType = fRdlck ∨ lock.flType = fWrlck ∨ lock.flType = fUnlck then
    .ok {
      start := lock.flStart.toUInt64
      length := (lock.flEnd - lock.flStart + 1).toUInt64
      client := 0
      pid := lock.flPid.toUInt64
      owner := secureAddr lockSecret (if lock.kind = .posix then lock.flOwner else lock.flFile)
      type := lockCommand lock }
  else .error (-einval)

/-- The record of the lock says what the message said. -/
def Matches (message : FilelockChange) (lock : FileLock) : Prop :=
  ∃ record, lockToCephFilelock lockSecret lock = .ok record ∧ record.start = message.start ∧
    record.length = message.length ∧ record.type = message.type ∧ record.owner = message.owner ∧
    record.pid = message.pid

end

def Decodes (message : FilelockChange) (lock : FileLock) : Prop :=
  ∀ (reply : CephFilelock) (fl : FileLock), reply.start = message.start → reply.length = message.length →
    (readReply reply fl).flStart = lock.flStart ∧ (readReply reply fl).flEnd = lock.flEnd

def FileLock.Ranged (lock : FileLock) : Prop := 0 ≤ lock.flStart ∧ lock.flStart ≤ lock.flEnd

instance (lock : FileLock) : Decidable lock.Ranged := inferInstanceAs (Decidable (_ ∧ _))

def FileLock.KnownType (lock : FileLock) : Prop :=
  lock.flType = fRdlck ∨ lock.flType = fWrlck ∨ lock.flType = fUnlck

section

variable {lockSecret : UInt64} {cmd : LockCmd} {mandatory : Bool} {lock : FileLock} {message : FilelockChange}

theorem FileLock.Ranged.toNat (ranged : lock.Ranged) :
    lock.flStart.toUInt64.toNat ≤ lock.flEnd.toUInt64.toNat ∧ lock.flEnd.toUInt64.toNat < 2 ^ 63 := by
  have nonneg := Int64.le_trans ranged.1 ranged.2
  have largest : lock.flEnd ≤ llongMax := Int64.le_maxValue lock.flEnd
  have bounded : lock.flEnd.toUInt64.toNat ≤ 2 ^ 63 - 1 :=
    UInt64.le_iff_toNat_le.mp (Int64.toUInt64_le nonneg largest)
  exact ⟨UInt64.le_iff_toNat_le.mp (Int64.toUInt64_le ranged.1 ranged.2), by omega⟩

/-- The number of bytes, also where it is that of the largest range. -/
theorem FileLock.Ranged.length_toNat (ranged : lock.Ranged) :
    (lock.flEnd - lock.flStart + 1).toUInt64.toNat =
      lock.flEnd.toUInt64.toNat - lock.flStart.toUInt64.toNat + 1 := by
  obtain ⟨ordered, bounded⟩ := ranged.toNat
  have one : (1 : Int64).toUInt64.toNat = 1 := rfl
  have difference := UInt64.toNat_sub_of_le _ _ (UInt64.le_iff_toNat_le.mpr ordered)
  rw [Int64.toUInt64_add, Int64.toUInt64_sub, UInt64.toNat_add, difference, one]
  lia

/-- What a lock of either kind has sent. -/
theorem taken_eq (taken : cephLock lockSecret cmd mandatory lock = .ok message ∨
      cephFlock lockSecret cmd mandatory lock = .ok message) :
    ∃ operation wait, message = cephLockMessage lockSecret (if lock.kind = .posix then cephLockFcntl else cephLockFlock)
      operation (lockCommand lock) wait lock := by
  rcases taken with taken | taken
  · unfold cephLock at taken
    split at taken
    · cases taken
    · rename_i posix
      split at taken
      · cases taken
      · rw [if_pos (not_not.mp posix)]
        exact ⟨_, _, (Except.ok.inj taken).symm⟩
  · unfold cephFlock at taken
    split at taken
    · cases taken
    · rename_i flock
      split at taken
      · cases taken
      · rw [if_neg (by simp [not_not.mp flock])]
        exact ⟨_, _, (Except.ok.inj taken).symm⟩

/-- A record and a message are made of the lock alike, but for the length. -/
theorem matches_iff {operation : UInt16} {wait : UInt8} :
    Matches lockSecret (cephLockMessage lockSecret (if lock.kind = .posix then cephLockFcntl else cephLockFlock)
        operation (lockCommand lock) wait lock) lock ↔
      lock.KnownType ∧ (lock.flEnd = llongMax → (lock.flEnd - lock.flStart + 1).toUInt64 = 0) := by
  have owner : (if (if lock.kind = .posix then cephLockFcntl else cephLockFlock) = cephLockFcntl then lock.flOwner
      else lock.flFile) = if lock.kind = .posix then lock.flOwner else lock.flFile := by
    by_cases posix : lock.kind = .posix
    · rw [if_pos posix, if_pos rfl, if_pos posix]
    · rw [if_neg posix, if_neg (by decide), if_neg posix]
  unfold Matches lockToCephFilelock
  constructor
  · rintro ⟨record, ran, -, length, -⟩
    split at ran
    next known =>
      refine ⟨known, fun last => ?_⟩
      cases ran
      exact length.trans (if_pos last)
    next => cases ran
  · rintro ⟨known, last⟩
    refine ⟨_, if_pos known, rfl, ?_, rfl, congrArg (secureAddr lockSecret) owner.symm, rfl⟩
    unfold cephLockMessage
    by_cases whole : lock.flEnd = llongMax
    · rw [if_pos whole]
      exact last whole
    · rw [if_neg whole]

/-- The end comes back from its length. -/
theorem Decodes.of_length (ranged : lock.Ranged)
    (start : message.start = lock.flStart.toUInt64) (length : message.length = (lock.flEnd - lock.flStart + 1).toUInt64) :
    Decodes message lock := by
  intro reply fl sameStart sameLength
  obtain ⟨ordered, below⟩ := ranged.toNat
  have one : (1 : UInt64).toNat = 1 := rfl
  have sum : reply.start + reply.length = lock.flEnd.toUInt64 + 1 := by
    apply UInt64.toNat_inj.mp
    rw [sameStart, sameLength, start, length, UInt64.toNat_add, ranged.length_toNat, UInt64.toNat_add, one]
    lia
  have positive : reply.start + reply.length ≥ 1 := by
    apply UInt64.le_iff_toNat_le.mpr
    rw [sum, UInt64.toNat_add, one]
    omega
  refine ⟨?_, ?_⟩
  · unfold readReply
    rw [sameStart, start, Int64.toInt64_toUInt64]
  · simp only [readReply, if_pos positive]
    rw [sum, UInt64.add_sub_cancel, Int64.toInt64_toUInt64]

/-- A length of zero gives the byte before the start. -/
theorem not_decodes_of_zero (ranged : lock.Ranged) (last : lock.flEnd = llongMax)
    (start : message.start = lock.flStart.toUInt64) (length : message.length = 0) : ¬ Decodes message lock := by
  intro decodes
  have wrong := (decodes ⟨message.start, message.length, 0, 0, 0, 0⟩ lock rfl rfl).2
  obtain ⟨ordered, below⟩ := ranged.toNat
  unfold readReply at wrong
  simp only [length, start, UInt64.add_zero, last] at wrong
  split at wrong
  next positive =>
    have before := congrArg (fun x => x.toUInt64.toNat) wrong
    have one : (1 : UInt64).toNat = 1 := rfl
    have largest : llongMax.toUInt64.toNat = 2 ^ 63 - 1 := rfl
    rw [UInt64.toUInt64_toInt64, UInt64.toNat_sub_of_le _ _ positive, largest, one] at before
    omega
  next => exact absurd wrong (by decide)

/-- The lock is sent again as it was taken, and a reply gives its range back, exactly
if it does not go to the end of the file and is of a type that can be sent. -/
theorem lock_range_survives (taken : cephLock lockSecret cmd mandatory lock = .ok message ∨
      cephFlock lockSecret cmd mandatory lock = .ok message) (ranged : lock.Ranged) :
    Matches lockSecret message lock ∧ Decodes message lock ↔ lock.flEnd ≠ llongMax ∧ lock.KnownType := by
  obtain ⟨operation, wait, rfl⟩ := taken_eq taken
  rw [matches_iff]
  by_cases last : lock.flEnd = llongMax
  · have zero : (cephLockMessage lockSecret (if lock.kind = .posix then cephLockFcntl else cephLockFlock)
        operation (lockCommand lock) wait lock).length = 0 := if_pos last
    have wrong := not_decodes_of_zero ranged last rfl zero
    exact ⟨fun survives => absurd survives.2 wrong, fun bounded => absurd last bounded.1⟩
  · constructor
    · rintro ⟨⟨known, -⟩, -⟩
      exact ⟨last, known⟩
    · rintro ⟨-, known⟩
      exact ⟨⟨known, fun whole => absurd whole last⟩, Decodes.of_length ranged rfl (if_neg last)⟩

end

/-- A lock of so many bytes from the start of the file on, all of it if none. -/
def lockOf (flEnd : Int64) : FileLock :=
  { kind := .posix, flType := fWrlck, flOwner := 7, flFile := 8, flPid := 9, flStart := 0, flEnd }

theorem lock_range_survives_bytes :
    ∃ message, Matches 1 message (lockOf 99) ∧ Decodes message (lockOf 99) :=
  ⟨_, (@lock_range_survives 1 .setlk false (lockOf 99) _ (.inl rfl) (by decide)).mpr ⟨by decide, .inr (.inl rfl)⟩⟩

/-- A lock of the whole file is sent with length 0 when it is taken and with another when the session comes back. -/
theorem lock_range_changes : ∃ message, cephLock 1 .setlk false (lockOf llongMax) = .ok message ∧
    ¬ Matches 1 message (lockOf llongMax) ∧ ¬ Decodes message (lockOf llongMax) := by
  have ranged : (lockOf llongMax).Ranged := by decide
  refine ⟨_, rfl, ?_, not_decodes_of_zero ranged rfl rfl rfl⟩
  rintro ⟨record, ran, -, length, -⟩
  cases ran
  exact absurd length (by decide)

end KmodCeph.Locks
