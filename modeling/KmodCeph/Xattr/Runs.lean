import KmodCeph.Xattr.Codec

namespace KmodCeph.Xattr

open Lib XattrInode Nat Option

namespace XattrInode

def loadFails (failing : Option Nat) (ci : XattrInode) : Bool :=
  ci.indexVersion < ci.version && ci.blob.any fun blob =>
    4 < blob.length && failing.any fun index => index ≤ leValue (blob.take 4)

def emptied (memory : Memory) (nameSize valSize : Nat) (ci : XattrInode) : Bool :=
  ci.loadFails (memory.loads 0) &&
    (ci.preallocBlob.any (fun allocLen => sizeT (ci.destroyXattrs.getRequiredBlobSize nameSize valSize) ≤ allocLen) ||
      memory.buffers 0 && sizeT (ci.destroyXattrs.getRequiredBlobSize nameSize valSize) < 2 ^ 63 &&
        ci.loadFails (memory.loads 1))

end XattrInode

def Holds (ci : XattrInode) (attributes : Attributes) : Prop :=
  ∃ blob entries, ci.blob = some blob ∧ ValidBlob blob entries ∧ attributesOf entries = attributes

/-- The index is that of the current version, and a blob is there for it if it is dirty. -/
structure UpToDate (ci : XattrInode) (attributes : Attributes) : Prop where
  accounted : Accounted ci
  bounded : encodedLength (inorder ci.index) < 2 ^ 31
  allocated : ∀ allocLen, ci.preallocBlob = some allocLen → allocLen < 2 ^ 63
  version : ci.indexVersion = ci.version
  represents : Represents (inorder ci.index) attributes
  fits : ci.dirty = true → ∃ allocLen, ci.preallocBlob = some allocLen ∧ encodedLength (inorder ci.index) ≤ allocLen
  stored : ci.dirty = false → Holds ci attributes

structure Older (ci : XattrInode) (attributes : Attributes) : Prop where
  accounted : Accounted ci
  bounded : encodedLength (inorder ci.index) < 2 ^ 31
  allocated : ∀ allocLen, ci.preallocBlob = some allocLen → allocLen < 2 ^ 63
  version : ci.indexVersion < ci.version
  clean : ci.dirty = false
  stored : Holds ci attributes

def Consistent (ci : XattrInode) (attributes : Attributes) : Prop := UpToDate ci attributes ∨ Older ci attributes

section

variable {ci : XattrInode} {attributes other : Attributes} {balancing : Balancing Xattr} {failing : Option Nat}
variable {blob : List UInt8} {entries : List Xattr}

theorem loadFails_iff (older : ci.indexVersion < ci.version) (stored : ci.blob = some blob) (valid : ValidBlob blob entries) :
    ci.loadFails failing = true ↔ LoadFails failing entries := by
  have long : 4 < blob.length ↔ entries ≠ [] := by
    rw [← not_le, valid.empty_iff]
  simp only [XattrInode.loadFails, older, stored, decide_true, Bool.true_and, any_some, Bool.and_eq_true,
    decide_eq_true_eq, valid.numattr, long, LoadFails]

theorem Accounted.same {prealloc : Option Nat} {dirty : Bool} (accounted : Accounted ci) :
    Accounted { ci with
      preallocBlob := prealloc
      dirty := dirty } :=
  ⟨accounted.sorted, accounted.noNul, accounted.count, accounted.namesSize, accounted.valsSize⟩

theorem Consistent.accounted (consistent : Consistent ci attributes) : Accounted ci := by
  rcases consistent with loaded | older
  · exact loaded.accounted
  · exact older.accounted

theorem Older.destroy (older : Older ci attributes) : Older ci.destroyXattrs attributes :=
  ⟨.destroyed, by simp [encodedLength, XattrInode.destroyXattrs, inorder], older.allocated, zero_lt_of_lt older.version, older.clean, older.stored⟩

theorem Consistent.load (consistent : Consistent ci attributes) (works : ci.loadFails failing = false) :
    UpToDate (ci.buildXattrs balancing failing).2 attributes ∧ (ci.buildXattrs balancing failing).2.blob = ci.blob ∧
      (ci.buildXattrs balancing failing).1 = 0 := by
  rcases consistent with loaded | older
  · rw [buildXattrs_upToDate loaded.version.ge]
    exact ⟨loaded, rfl, rfl⟩
  · obtain ⟨blob, entries, stored, valid, same⟩ := older.stored
    have passes : ¬ LoadFails failing entries := by
      rw [← loadFails_iff older.version stored valid, works]
      exact Bool.false_ne_true
    obtain ⟨next, ran, built, length⟩ := @buildXattrs_loads balancing _ _ _ _ older.version stored valid passes
    rw [ran]
    refine ⟨⟨built.accounted, length.trans_lt valid.length, ?_, ?_, same ▸ built.represents, ?_, ?_⟩, ?_, rfl⟩
    all_goals rw [built.frame]
    · exact older.allocated
    · nofun
    · exact fun _ => older.stored

theorem Consistent.fail (consistent : Consistent ci attributes) (fails : ci.loadFails failing = true) :
    Older ci attributes ∧ ci.buildXattrs balancing failing = (-12, ci.destroyXattrs) := by
  rcases consistent with loaded | older
  · simp [XattrInode.loadFails, loaded.version] at fails
  · obtain ⟨blob, entries, stored, valid, same⟩ := older.stored
    exact ⟨older, buildXattrs_fails older.version stored valid ((loadFails_iff older.version stored valid).mp fails)⟩

theorem Consistent.built (consistent : Consistent ci attributes) : Consistent (ci.buildXattrs balancing failing).2 attributes := by
  cases fails : ci.loadFails failing with
  | false => exact .inl (consistent.load fails).1
  | true =>
    obtain ⟨older, ran⟩ := @Consistent.fail ci attributes balancing failing consistent fails
    rw [ran]
    exact .inr older.destroy

end

section

variable {ci : XattrInode} {attributes : Attributes} {balancing : Balancing Xattr} {memory : Memory} {nameSize valSize : Nat}

theorem fits_of_sizeT {size : Int} {allocLen : Nat} (positive : 0 ≤ size) (bounded : size < 2 ^ 32) (allocated : allocLen < 2 ^ 63)
    (fits : sizeT (Int.bmod size (2 ^ 32)) ≤ allocLen) : size ≤ allocLen ∧ size < 2 ^ 31 := by
  have small : size < 2 ^ 31 := by
    by_contra large
    have wrapped : Int.bmod size (2 ^ 32) = size - 2 ^ 32 := by
      lia
    rw [wrapped, sizeT] at fits
    lia
  have same : Int.bmod size (2 ^ 32) = size := by
    lia
  rw [same, sizeT] at fits
  lia

theorem Accounted.required_eq (accounted : Accounted ci) :
    ci.getRequiredBlobSize nameSize valSize = Int.bmod ((encodedLength (inorder ci.index) : Int) +
      (if nameSize ≠ 0 then 8 + nameSize + valSize else 0 : Nat)) (2 ^ 32) := by
  unfold getRequiredBlobSize
  simp only [accounted.size]
  congr 1
  split
  · push_cast
    ring
  · simp

def HasRoom (ci : XattrInode) (growth : Nat) : Prop :=
  ∃ allocLen, ci.preallocBlob = some allocLen ∧ encodedLength (inorder ci.index) + growth ≤ allocLen ∧
    encodedLength (inorder ci.index) + growth < 2 ^ 31

theorem HasRoom.of_required {next : XattrInode} {allocLen : Nat} (accounted : Accounted next)
    (bounded : encodedLength (inorder next.index) < 2 ^ 31) (small : nameSize ≤ kmallocLimit) (small' : valSize ≤ kmallocLimit)
    (prealloc : next.preallocBlob = some allocLen) (allocated : allocLen < 2 ^ 63)
    (fits : sizeT (next.getRequiredBlobSize nameSize valSize) ≤ allocLen) :
    HasRoom next (if nameSize ≠ 0 then 8 + nameSize + valSize else 0) := by
  rw [accounted.required_eq] at fits
  unfold kmallocLimit at small small'
  obtain ⟨large, below⟩ := @fits_of_sizeT _ allocLen (by positivity) (by split_ifs <;> lia) allocated fits
  rw [← cast_add] at large below
  exact ⟨allocLen, prealloc, by exact_mod_cast large, by exact_mod_cast below⟩

variable {bound pass : Nat}

theorem prepare_eq {built : XattrInode} (ran : (ci.buildXattrs balancing (memory.loads pass)).2 = built) :
    ci.prepare balancing memory nameSize valSize (bound + 1) pass =
      if built.preallocBlob.any (fun allocLen => sizeT (built.getRequiredBlobSize nameSize valSize) ≤ allocLen) then .ok (true, built)
      else if memory.buffers pass ∧ sizeT (built.getRequiredBlobSize nameSize valSize) < 2 ^ 63 then
        (built.withPrealloc (sizeT (built.getRequiredBlobSize nameSize valSize))).prepare balancing memory
          nameSize valSize bound (pass + 1) else .ok (false, built) := by
  rw [XattrInode.prepare, ran]

/-- With the index up to date a blob is allocated at most once. -/
theorem UpToDate.prepared {pass bound : Nat} (loaded : UpToDate ci attributes) (small : nameSize ≤ kmallocLimit)
    (small' : valSize ≤ kmallocLimit) : ∃ ready next, ci.prepare balancing memory nameSize valSize (bound + 2) pass = .ok (ready, next) ∧
      UpToDate next attributes ∧ next.blob = ci.blob ∧
      (ready = true → HasRoom next (if nameSize ≠ 0 then 8 + nameSize + valSize else 0)) := by
  have ran : (ci.buildXattrs balancing (memory.loads pass)).2 = ci := by rw [buildXattrs_upToDate loaded.version.ge]
  rw [prepare_eq ran]
  split
  next fits =>
    obtain ⟨allocLen, prealloc, enough⟩ := (any_eq_true _ _).mp fits
    refine ⟨true, ci, rfl, loaded, rfl, fun _ => ?_⟩
    exact .of_required loaded.accounted loaded.bounded small small' prealloc (loaded.allocated allocLen prealloc)
      (of_decide_eq_true enough)
  next =>
    split
    next alloc =>
      have room : HasRoom (ci.withPrealloc (sizeT (ci.getRequiredBlobSize nameSize valSize))) _ :=
        .of_required loaded.accounted.same loaded.bounded small small' rfl alloc.2 le_rfl
      have after : UpToDate (ci.withPrealloc (sizeT (ci.getRequiredBlobSize nameSize valSize))) attributes := by
        refine ⟨loaded.accounted.same, loaded.bounded, ?_, loaded.version, loaded.represents, ?_, loaded.stored⟩
        · intro allocLen prealloc
          cases prealloc
          exact alloc.2
        · obtain ⟨allocLen, prealloc, enough, _⟩ := room
          exact fun _ => ⟨allocLen, prealloc, (le_add_right _ _).trans enough⟩
      have again : ((ci.withPrealloc (sizeT (ci.getRequiredBlobSize nameSize valSize))).buildXattrs balancing
          (memory.loads (pass + 1))).2 = ci.withPrealloc (sizeT (ci.getRequiredBlobSize nameSize valSize)) := by
        rw [buildXattrs_upToDate after.version.ge]
      rw [prepare_eq again, if_pos (by simp [getRequiredBlobSize, withPrealloc])]
      exact ⟨true, _, rfl, after, rfl, fun _ => room⟩
    next => exact ⟨false, ci, rfl, loaded, rfl, nofun⟩

theorem prepare_loaded (loaded : UpToDate (ci.buildXattrs balancing (memory.loads pass)).2 attributes) :
    ci.prepare balancing memory nameSize valSize (bound + 1) pass =
      (ci.buildXattrs balancing (memory.loads pass)).2.prepare balancing memory nameSize valSize (bound + 1) pass := by
  have ran : ((ci.buildXattrs balancing (memory.loads pass)).2.buildXattrs balancing (memory.loads pass)).2 =
      (ci.buildXattrs balancing (memory.loads pass)).2 := by
    rw [buildXattrs_upToDate loaded.version.ge]
  rw [prepare_eq rfl, prepare_eq ran]

/-- The passes end with the index up to date, unless a failed load empties it. -/
theorem Consistent.prepared (consistent : Consistent ci attributes) (small : nameSize ≤ kmallocLimit)
    (small' : valSize ≤ kmallocLimit) : ∃ ready next, ci.prepare balancing memory nameSize valSize 3 0 = .ok (ready, next) ∧
      (ready = false → next.blob = ci.blob) ∧ (ci.emptied memory nameSize valSize = true → ready = true ∧ Older ci attributes ∧ Older next attributes ∧
        next = { ci.destroyXattrs with preallocBlob := next.preallocBlob } ∧
        HasRoom next (if nameSize ≠ 0 then 8 + nameSize + valSize else 0)) ∧
      (ci.emptied memory nameSize valSize = false → Consistent next attributes ∧
        (ready = true → UpToDate next attributes ∧ HasRoom next (if nameSize ≠ 0 then 8 + nameSize + valSize else 0))) := by
  cases first : ci.loadFails (memory.loads 0) with
  | false =>
    have loaded := @Consistent.load _ _ balancing _ consistent first
    have kept : ci.emptied memory nameSize valSize = false := by simp [XattrInode.emptied, first]
    obtain ⟨ready, next, ran, after, blob, room⟩ :=
      @UpToDate.prepared _ _ balancing memory nameSize valSize 0 1 loaded.1 small small'
    rw [prepare_loaded loaded.1, ran, kept]
    exact ⟨ready, next, rfl, fun _ => blob.trans loaded.2.1, nofun, fun _ => ⟨.inl after, fun done => ⟨after, room done⟩⟩⟩
  | true =>
    obtain ⟨older, failed⟩ := @Consistent.fail _ _ balancing _ consistent first
    have destroyed := older.destroy
    have ran : (ci.buildXattrs balancing (memory.loads 0)).2 = ci.destroyXattrs := by rw [failed]
    have emptied_eq : ci.emptied memory nameSize valSize =
        (ci.preallocBlob.any (fun allocLen => sizeT (ci.destroyXattrs.getRequiredBlobSize nameSize valSize) ≤ allocLen) ||
          memory.buffers 0 && sizeT (ci.destroyXattrs.getRequiredBlobSize nameSize valSize) < 2 ^ 63 &&
            ci.loadFails (memory.loads 1)) := by
      rw [XattrInode.emptied, first, Bool.true_and]
    rw [prepare_eq ran]
    split
    next fits =>
      obtain ⟨allocLen, prealloc, enough⟩ := (any_eq_true _ _).mp fits
      rw [emptied_eq, show ci.preallocBlob.any _ = true from fits, Bool.true_or]
      refine ⟨true, _, rfl, fun _ => rfl, fun _ => ⟨rfl, older, destroyed, rfl, ?_⟩, nofun⟩
      exact .of_required destroyed.accounted destroyed.bounded small small' prealloc (destroyed.allocated allocLen prealloc)
        (of_decide_eq_true enough)
    next tight =>
      have tight' : ci.preallocBlob.any (fun allocLen => sizeT (ci.destroyXattrs.getRequiredBlobSize nameSize valSize) ≤ allocLen) =
          false := Bool.eq_false_iff.mpr tight
      rw [emptied_eq, tight', Bool.false_or]
      split
      next alloc =>
        have room : Older (ci.destroyXattrs.withPrealloc (sizeT (ci.destroyXattrs.getRequiredBlobSize nameSize valSize)))
            attributes := by
          refine ⟨destroyed.accounted.same, destroyed.bounded, ?_, destroyed.version, destroyed.clean, destroyed.stored⟩
          intro allocLen prealloc
          cases prealloc
          exact alloc.2
        have same : (ci.destroyXattrs.withPrealloc (sizeT (ci.destroyXattrs.getRequiredBlobSize nameSize valSize))).loadFails
            (memory.loads 1) = ci.loadFails (memory.loads 1) := by
          simp only [XattrInode.loadFails, XattrInode.destroyXattrs, withPrealloc, older.version,
            zero_lt_of_lt older.version]
        rw [alloc.1, decide_eq_true alloc.2, Bool.true_and, Bool.true_and, ← same]
        cases second : (ci.destroyXattrs.withPrealloc (sizeT (ci.destroyXattrs.getRequiredBlobSize nameSize valSize))).loadFails
            (memory.loads 1) with
        | false =>
          have loaded := @Consistent.load _ _ balancing _ (.inr room) second
          obtain ⟨ready, next, ran, after, blob, room⟩ :=
            @UpToDate.prepared _ _ balancing memory nameSize valSize 1 0 loaded.1 small small'
          rw [prepare_loaded loaded.1, ran]
          exact ⟨ready, next, rfl, fun _ => blob.trans loaded.2.1, nofun, fun _ => ⟨.inl after, fun done => ⟨after, room done⟩⟩⟩
        | true =>
          obtain ⟨_, failed⟩ := @Consistent.fail _ _ balancing _ (.inr room) second
          have again : ((ci.destroyXattrs.withPrealloc (sizeT (ci.destroyXattrs.getRequiredBlobSize nameSize valSize))).buildXattrs
              balancing (memory.loads 1)).2 = (ci.destroyXattrs.withPrealloc
              (sizeT (ci.destroyXattrs.getRequiredBlobSize nameSize valSize))) := by
            rw [failed]
            rfl
          rw [prepare_eq again, if_pos (by simp [getRequiredBlobSize, withPrealloc])]
          refine ⟨true, _, rfl, fun _ => rfl, fun _ => ⟨rfl, older, room, rfl, ?_⟩, nofun⟩
          exact .of_required room.accounted room.bounded small small' rfl alloc.2 le_rfl
      next none =>
        have kept : (memory.buffers 0 && decide (sizeT (ci.destroyXattrs.getRequiredBlobSize nameSize valSize) < 2 ^ 63)) =
            false := by
          simpa using none
        rw [kept, Bool.false_and]
        exact ⟨false, _, rfl, fun _ => rfl, nofun, fun _ => ⟨.inr destroyed, nofun⟩⟩

end

/-- Changes of the attributes, with what the memory has for them. -/
inductive XattrChange where
  | set (name : CString) (value : Option (List UInt8)) (flags : XattrFlags) (readonly : Bool) (memory : Memory)
  | remove (name : CString) (readonly : Bool) (memory : Memory)

namespace XattrChange

def run (balancing : Balancing Xattr) : XattrChange → XattrInode → Except XattrBug (XattrOutcome × XattrInode)
  | .set name value flags readonly memory, ci => ci.cephSetxattr balancing name value flags readonly memory
  | .remove name readonly memory, ci => ci.cephRemovexattr balancing name readonly memory

def name : XattrChange → CString
  | .set name _ _ _ _ => name
  | .remove name _ _ => name

def value : XattrChange → Option (List UInt8)
  | .set _ value _ _ _ => value
  | .remove _ _ _ => none

def spoils : XattrChange → XattrInode → Bool
  | .set name value flags readonly memory, ci =>
    ci.unchanged name readonly = none && memory.copies && name.bytes.length + 1 ≤ kmallocLimit &&
      (value.getD []).length ≤ kmallocLimit && ci.version ≠ 0 && ci.excl &&
      ci.emptied memory name.bytes.length (value.getD []).length && !flags.replace
  | .remove name readonly memory, ci =>
    ci.unchanged name readonly = none && ci.version ≠ 0 && ci.excl && ci.emptied memory 0 0

end XattrChange

def XattrChange.apply (change : XattrChange) (attributes : Attributes) : Attributes :=
  Function.update attributes change.name.bytes change.value

structure Flushable (ci : XattrInode) (attributes : Attributes) : Prop where
  accounted : Accounted ci
  represents : Represents (inorder ci.index) attributes
  dirty : ci.dirty = true
  room : HasRoom ci 0

section

variable {ci : XattrInode} {attributes : Attributes} {balancing : Balancing Xattr} {change : XattrChange}

theorem Flushable.flush (flushable : Flushable ci attributes) : ci.buildXattrsBlob = .ok { ci with
    blob := some (encodeXattrs (inorder ci.index))
    preallocBlob := none
    dirty := false
    version := ci.version + 1 } := by
  obtain ⟨allocLen, prealloc, enough, bounded⟩ := flushable.room
  have required := @Accounted.required_eq _ 0 0 flushable.accounted
  have count : (ci.count % 2 ^ 32).toNat = (inorder ci.index).length := by
    have atLeast := @length_le_encodedLength (inorder ci.index)
    rw [flushable.accounted.count]
    lia
  have fits : ¬ sizeT (ci.getRequiredBlobSize 0 0) > allocLen := by
    rw [required]
    simp only [ne_eq, not_true, if_false, cast_zero, add_zero, Int.bmod_def, sizeT]
    lia
  unfold buildXattrsBlob
  rw [if_neg (by rw [flushable.dirty]; decide), prealloc]
  simp only [haltIf, fits, if_false, count]
  rfl

theorem Flushable.holds (flushable : Flushable ci attributes) : ∃ next, ci.buildXattrsBlob = .ok next ∧ Holds next attributes := by
  obtain ⟨allocLen, prealloc, enough, bounded⟩ := flushable.room
  obtain ⟨valid, same⟩ := flushable.accounted.validBlob flushable.represents bounded
  exact ⟨_, flushable.flush, _, _, rfl, valid, same⟩

theorem UpToDate.flushable (loaded : UpToDate ci attributes) (dirty : ci.dirty = true) : Flushable ci attributes := by
  obtain ⟨allocLen, prealloc, enough⟩ := loaded.fits dirty
  exact ⟨loaded.accounted, loaded.represents, dirty, allocLen, prealloc, enough, loaded.bounded⟩

theorem Consistent.flush (consistent : Consistent ci attributes) :
    ∃ next, ci.buildXattrsBlob = .ok next ∧ Consistent next attributes ∧ Holds next attributes ∧
      (ci.dirty = true → next.blob = some (encodeXattrs (inorder ci.index))) := by
  cases dirty : ci.dirty with
  | false =>
    refine ⟨ci, by rw [buildXattrsBlob, if_pos dirty], consistent, ?_, nofun⟩
    rcases consistent with loaded | older
    · exact loaded.stored dirty
    · exact older.stored
  | true =>
    rcases consistent with loaded | older
    · have flushable := loaded.flushable dirty
      obtain ⟨valid, same⟩ := loaded.accounted.validBlob loaded.represents loaded.bounded
      refine ⟨_, flushable.flush, .inr ⟨⟨loaded.accounted.sorted, loaded.accounted.noNul, loaded.accounted.count,
        loaded.accounted.namesSize, loaded.accounted.valsSize⟩, loaded.bounded, nofun, ?_, rfl, ?_⟩, ?_, fun _ => rfl⟩
      · exact loaded.version.trans_lt (lt_succ_self _)
      · exact ⟨_, _, rfl, valid, same⟩
      · exact ⟨_, _, rfl, valid, same⟩
    · rw [older.clean] at dirty
      cases dirty

theorem bytes_ne_nil {name : CString} {readonly : Bool} (goes : ci.unchanged name readonly = none) : name.bytes.length ≠ 0 := by
  intro empty
  have none : name.bytes = [] := List.length_eq_zero_iff.mp empty
  unfold XattrInode.unchanged at goes
  rw [none] at goes
  split at goes
  · cases goes
  · rw [if_pos (by decide)] at goes
    cases goes

theorem Stored.flushable {next : XattrInode} {changed : Attributes} {growth : Nat} (stored : Stored ci next changed growth)
    (room : HasRoom ci growth) : Flushable { next with dirty := true } changed := by
  obtain ⟨allocLen, prealloc, enough, bounded⟩ := room
  have length := stored.length
  have prealloc' : next.preallocBlob = some allocLen := by
    rw [stored.only]
    exact prealloc
  exact ⟨stored.accounted.same, stored.represents, rfl, allocLen, prealloc', by dsimp only; omega, by dsimp only; omega⟩

theorem UpToDate.changed {next : XattrInode} {changed : Attributes} {growth : Nat} (loaded : UpToDate ci attributes)
    (stored : Stored ci next changed growth) (room : HasRoom ci growth) : UpToDate { next with dirty := true } changed := by
  have flushable := stored.flushable room
  obtain ⟨allocLen, prealloc, enough, bounded⟩ := flushable.room
  refine ⟨flushable.accounted, bounded, ?_, ?_, stored.represents, fun _ => ⟨allocLen, prealloc, enough⟩, nofun⟩
  · dsimp only
    rw [stored.only]
    exact loaded.allocated
  · dsimp only
    rw [stored.only]
    exact loaded.version

/-- What is known after a change. A change that is spoiled goes on with no other attribute. -/
structure Changed (ci : XattrInode) (attributes : Attributes) (change : XattrChange) (outcome : XattrOutcome) (next : XattrInode) :
    Prop where
  kept : change.spoils ci = false →
    Consistent next (if outcome = .done 0 then change.apply attributes else attributes)
  spoiled : change.spoils ci = true → Older ci attributes ∧ Flushable next (change.apply fun _ => none) ∧
    (outcome = .done 0 ∨ change.value = none)

theorem Changed.idle {outcome : XattrOutcome} {next : XattrInode} (consistent : Consistent next attributes)
    (idle : outcome ≠ .done 0) (sound : change.spoils ci = false) : Changed ci attributes change outcome next := by
  refine ⟨fun _ => ?_, fun spoiled => ?_⟩
  · rw [if_neg idle]
    exact consistent
  · rw [sound] at spoiled
    cases spoiled

theorem unchanged_ne {name : CString} {readonly : Bool} {outcome : XattrOutcome} (goes : ci.unchanged name readonly = some outcome) :
    outcome ≠ .done 0 := by
  unfold XattrInode.unchanged at goes
  split_ifs at goes <;> cases goes <;> decide

theorem destroyed_represents {next : XattrInode} (emptied : next = { ci.destroyXattrs with preallocBlob := next.preallocBlob }) :
    Accounted next ∧ Represents (inorder next.index) fun _ => none := by
  rw [emptied]
  exact ⟨Accounted.destroyed.same, fun name val => iff_of_false List.not_mem_nil nofun⟩

theorem Consistent.set {name : CString} {value : Option (List UInt8)} {flags : XattrFlags} {readonly : Bool} {memory : Memory}
    (consistent : Consistent ci attributes) : ∃ outcome next,
      ci.cephSetxattr balancing name value flags readonly memory = .ok (outcome, next) ∧
      Changed ci attributes (.set name value flags readonly memory) outcome next := by
  unfold cephSetxattr
  cases goes : ci.unchanged name readonly with
  | some outcome => exact ⟨outcome, ci, rfl, .idle consistent (unchanged_ne goes) (by simp [XattrChange.spoils, goes])⟩
  | none =>
    simp only
    split
    next refused =>
      refine ⟨_, ci, rfl, .idle consistent (by decide) ?_⟩
      rcases refused with failed | long | long
      · simp [XattrChange.spoils, failed]
      · have large : ¬ name.bytes.length + 1 ≤ kmallocLimit := by omega
        simp [XattrChange.spoils, large]
      · have large : ¬ (value.getD []).length ≤ kmallocLimit := by omega
        simp [XattrChange.spoils, large]
    next copied =>
      split
      next passed =>
        refine ⟨_, ci, rfl, .idle consistent (by decide) ?_⟩
        rcases passed with unknown | shared
        · simp [XattrChange.spoils, unknown]
        · simp [XattrChange.spoils, shared]
      next stays =>
        have named := bytes_ne_nil goes
        have spoils : XattrChange.spoils (.set name value flags readonly memory) ci =
            (ci.emptied memory name.bytes.length (value.getD []).length && !flags.replace) := by
          have short : name.bytes.length + 1 ≤ kmallocLimit := by omega
          have short' : (value.getD []).length ≤ kmallocLimit := by omega
          simp only [not_or] at stays copied
          simp [XattrChange.spoils, goes, copied.1, stays.1, stays.2, short, short']
        obtain ⟨ready, next, ran, -, empties, kept⟩ := @Consistent.prepared _ _ balancing memory name.bytes.length
          (value.getD []).length consistent (by omega) (by omega)
        rw [ran]
        cases emptied : ci.emptied memory name.bytes.length (value.getD []).length with
        | true =>
          obtain ⟨rfl, older, older', left, room⟩ := empties emptied
          obtain ⟨accounted, represents⟩ := destroyed_represents left
          rw [if_pos named] at room
          have absent := accounted.lookup represents name
          rw [map_eq_none_iff] at absent
          rcases @setXattr_cases next _ balancing name flags accounted represents value with
            ⟨refused, err, nonzero, set⟩ | ⟨-, goes', after, set, stored⟩
          · have replaced : flags.replace = true := by
              rw [absent] at refused
              simpa using refused
            refine ⟨.done err, next, ?_, .idle (.inr older') (by simpa using nonzero) (by rw [spoils, emptied, replaced]; rfl)⟩
            simp [bind, Except.bind, set, nonzero]
          · have kept : flags.replace = false := by
              rw [absent] at goes'
              simpa using goes'
            refine ⟨.done 0, { after with dirty := true }, ?_, fun sound => ?_, fun _ => ?_⟩
            · simp [bind, Except.bind, set]
            · rw [spoils, emptied, kept] at sound
              cases sound
            · exact ⟨older, stored.flushable room, .inl rfl⟩
        | false =>
          obtain ⟨consistent, loads⟩ := kept emptied
          have sound : XattrChange.spoils (.set name value flags readonly memory) ci = false := by rw [spoils, emptied]; rfl
          cases ready with
          | false => exact ⟨.done (-12), next, rfl, .idle consistent (by decide) sound⟩
          | true =>
            obtain ⟨loaded, room⟩ := loads rfl
            rw [if_pos named] at room
            rcases @setXattr_cases next _ balancing name flags loaded.accounted loaded.represents value with
              ⟨-, err, nonzero, set⟩ | ⟨-, -, after, set, stored⟩
            · refine ⟨.done err, next, ?_, .idle consistent (by simpa using nonzero) sound⟩
              simp [bind, Except.bind, set, nonzero]
            · refine ⟨.done 0, { after with dirty := true }, ?_, fun _ => .inl (loaded.changed stored room), fun spoiled => ?_⟩
              · simp [bind, Except.bind, set]
              · rw [sound] at spoiled
                cases spoiled

theorem Consistent.remove {name : CString} {readonly : Bool} {memory : Memory} (consistent : Consistent ci attributes) :
    ∃ outcome next, ci.cephRemovexattr balancing name readonly memory = .ok (outcome, next) ∧
      Changed ci attributes (.remove name readonly memory) outcome next := by
  unfold cephRemovexattr
  cases goes : ci.unchanged name readonly with
  | some outcome => exact ⟨outcome, ci, rfl, .idle consistent (unchanged_ne goes) (by simp [XattrChange.spoils, goes])⟩
  | none =>
    simp only
    split
    next passed =>
      refine ⟨_, ci, rfl, .idle consistent (by decide) ?_⟩
      rcases passed with unknown | shared
      · simp [XattrChange.spoils, unknown]
      · simp [XattrChange.spoils, shared]
    next stays =>
      have spoils : XattrChange.spoils (.remove name readonly memory) ci = ci.emptied memory 0 0 := by
        simp only [not_or] at stays
        simp [XattrChange.spoils, goes, stays.1, stays.2]
      obtain ⟨ready, next, ran, -, empties, kept⟩ := @Consistent.prepared _ _ balancing memory 0 0 consistent
        (zero_le _) (zero_le _)
      rw [ran]
      cases emptied : ci.emptied memory 0 0 with
      | true =>
        obtain ⟨rfl, older, -, left, room⟩ := empties emptied
        obtain ⟨accounted, represents⟩ := destroyed_represents left
        have stored := @Stored.remove next _ balancing name accounted represents 0
        refine ⟨_, _, rfl, fun sound => ?_, fun _ => ⟨older, stored.flushable room, .inr rfl⟩⟩
        rw [spoils, emptied] at sound
        cases sound
      | false =>
        obtain ⟨consistent, loads⟩ := kept emptied
        have sound : XattrChange.spoils (.remove name readonly memory) ci = false := by rw [spoils, emptied]
        cases ready with
        | false => exact ⟨.done (-12), next, rfl, .idle consistent (by decide) sound⟩
        | true =>
          obtain ⟨loaded, room⟩ := loads rfl
          have stored := @Stored.remove next _ balancing name loaded.accounted loaded.represents 0
          refine ⟨_, _, rfl, fun _ => .inl ?_, fun spoiled => ?_⟩
          · have same : (if XattrOutcome.done (next.removeXattrByName balancing name).1 = .done 0 then
                XattrChange.apply (.remove name readonly memory) attributes else attributes) =
                Function.update attributes name.bytes none := by
              split
              next => rfl
              next refused =>
                have absent : next.getXattr name = none := by
                  cases found : next.getXattr name with
                  | none => rfl
                  | some xattr => simp [removeXattrByName, removeXattr, found] at refused
                have missing := loaded.accounted.lookup loaded.represents name
                rw [absent] at missing
                rw [show (none : Option (List UInt8)) = attributes name.bytes from missing, Function.update_eq_self]
            rw [same]
            exact loaded.changed stored room
          · rw [sound] at spoiled
            cases spoiled

theorem Consistent.run_change (consistent : Consistent ci attributes) :
    ∃ outcome next, change.run balancing ci = .ok (outcome, next) ∧ Changed ci attributes change outcome next := by
  cases change with
  | set => exact consistent.set
  | remove => exact consistent.remove

end

inductive XattrCall where
  | change (change : XattrChange)
  | load (failing : Option Nat)
  | flush

/-- An inode, and the map that the calls that have succeeded left. -/
structure XattrRun where
  inode : XattrInode
  attributes : Attributes

def XattrCall.run (balancing : Balancing Xattr) : XattrCall → XattrRun → Except XattrBug XattrRun
  | .change made, run => do
    let (outcome, inode) ← made.run balancing run.inode
    return { inode, attributes := if outcome = .done 0 then made.apply run.attributes else run.attributes }
  | .load failing, run => return { run with inode := (run.inode.buildXattrs balancing failing).2 }
  | .flush, run => do
    let inode ← run.inode.buildXattrsBlob
    return { run with inode }

def XattrCall.Sound : XattrCall → XattrRun → Prop
  | .change made, run => made.spoils run.inode = false
  | _, _ => True

/-- The index is a finite map and the sizes are those of its encoding. -/
structure FiniteMap (balancing : Balancing Xattr) (ci : XattrInode) (attributes : Attributes) : Prop where
  entries : ci.version ≤ ci.indexVersion → Represents (inorder ci.index) attributes
  lookup : ci.version ≤ ci.indexVersion → ∀ name, (ci.getXattr name).map Xattr.val = attributes name.bytes
  apart : ((inorder ci.index).map Xattr.name).Nodup
  count : ci.count = (inorder ci.index).length
  namesSize : ci.namesSize = ((inorder ci.index).map fun xattr => xattr.name.length).sum
  valsSize : ci.valsSize = ((inorder ci.index).map fun xattr => xattr.val.length).sum
  required : ci.getRequiredBlobSize 0 0 = (encodeXattrs (inorder ci.index)).length
  parsed : ∃ next, ci.buildXattrsBlob = .ok next ∧
    (ci.dirty = true → next.blob = some (encodeXattrs (inorder ci.index))) ∧
    ∃ loaded, next.buildXattrs balancing none = (0, loaded) ∧ ∀ name, (loaded.getXattr name).map Xattr.val = attributes name.bytes

section

variable {ci : XattrInode} {attributes : Attributes} {balancing : Balancing Xattr} {run : XattrRun}

theorem Consistent.bounded (consistent : Consistent ci attributes) : encodedLength (inorder ci.index) < 2 ^ 31 := by
  rcases consistent with loaded | older
  · exact loaded.bounded
  · exact older.bounded

theorem Consistent.finiteMap (consistent : Consistent ci attributes) : FiniteMap balancing ci attributes := by
  have accounted := consistent.accounted
  have bounded := consistent.bounded
  have represents : ci.version ≤ ci.indexVersion → Represents (inorder ci.index) attributes := by
    intro current
    rcases consistent with loaded | older
    · exact loaded.represents
    · exact absurd current older.version.not_ge
  refine ⟨represents, fun current => accounted.lookup (represents current), ?_, accounted.count, accounted.namesSize,
    accounted.valsSize, ?_, ?_⟩
  · exact List.pairwise_map.mpr accounted.apart
  · rw [accounted.required_eq, length_encodeXattrs]
    lia
  · obtain ⟨next, ran, flushed, -, blob⟩ := consistent.flush
    have works : next.loadFails none = false := by
      cases stored : next.blob with
      | none => simp [XattrInode.loadFails, stored]
      | some => simp [XattrInode.loadFails, stored]
    obtain ⟨loaded, -, zero⟩ := @Consistent.load _ _ balancing none flushed works
    exact ⟨next, ran, blob, (next.buildXattrs balancing none).2, Prod.ext zero rfl, loaded.accounted.lookup loaded.represents⟩

theorem XattrCall.consistent (call : XattrCall) (sound : call.Sound run) (consistent : Consistent run.inode run.attributes) :
    Returns (call.run balancing run) fun next => Consistent next.inode next.attributes := by
  cases call with
  | change change =>
    obtain ⟨outcome, next, ran, changed⟩ := @Consistent.run_change _ _ balancing change consistent
    refine ⟨⟨next, if outcome = .done 0 then change.apply run.attributes else run.attributes⟩, ?_, changed.kept sound⟩
    rw [XattrCall.run, ran]
    rfl
  | load failing => exact ⟨{ run with inode := (run.inode.buildXattrs balancing failing).2 }, rfl, consistent.built⟩
  | flush =>
    obtain ⟨next, ran, flushed, -⟩ := consistent.flush
    refine ⟨{ run with inode := next }, ?_, flushed⟩
    rw [XattrCall.run, ran]
    rfl

end

/-- From an inode with a blob, the index is the map that the changes left, and encodes and loads as that. -/
theorem xattrs_finiteMap (balancing : Balancing Xattr) {ci : XattrInode} {attributes : Attributes} {run : XattrRun}
    (older : Older ci attributes)
    (reached : Reached (XattrCall.run balancing) XattrCall.Sound ⟨ci, attributes⟩ run) :
    FiniteMap balancing run.inode run.attributes ∧
      ∀ call : XattrCall, call.Sound run → ∃ next, call.run balancing run = .ok next := by
  have keeps : Keeps (XattrCall.run balancing) XattrCall.Sound fun run => Consistent run.inode run.attributes :=
    fun call before sound consistent => call.consistent sound consistent
  have consistent := reached.holds keeps (.inr older)
  refine ⟨consistent.finiteMap, fun call sound => ?_⟩
  obtain ⟨next, ran, -⟩ := keeps call run sound consistent
  exact ⟨next, ran⟩

def userName (letters : List UInt8) (noNul : 0 ∉ userPrefix ++ letters) : CString := ⟨userPrefix ++ letters, noNul⟩

def oneXattr : XattrInode where
  snap := false
  excl := true
  blob := some (encodeXattrs [⟨userPrefix ++ [97], [1]⟩])
  preallocBlob := none
  index := .nil
  dirty := false
  count := 0
  namesSize := 0
  valsSize := 0
  version := 1
  indexVersion := 0

theorem oneXattr_older : Older oneXattr (attributesOf [⟨userPrefix ++ [97], [1]⟩]) := by
  refine ⟨⟨sorted_nil, nofun, rfl, rfl, rfl⟩, by decide, nofun, by decide, rfl, _, _, rfl, ⟨rfl, ?_, ?_⟩, rfl⟩
  · decide
  · decide

def plenty : Memory := ⟨true, fun _ => none, fun _ => true⟩

def scarce : Memory := ⟨true, fun _ => some 0, fun _ => true⟩

def twoXattrs : XattrInode :=
  { oneXattr with
    preallocBlob := some 36
    index := .node ⟨userPrefix ++ [97], [1]⟩ .nil (.node ⟨userPrefix ++ [97, 98], [2, 3]⟩ .nil .nil)
    dirty := true
    count := 2
    namesSize := 13
    valsSize := 3
    indexVersion := 1 }

def otherXattr : XattrInode :=
  { oneXattr with
    preallocBlob := some 19
    index := .node ⟨userPrefix ++ [98], [2]⟩ .nil .nil
    dirty := true
    count := 1
    namesSize := 6
    valsSize := 1 }

def XattrInode.encoded (ci : XattrInode) : XattrInode :=
  { ci with
    blob := some (encodeXattrs (inorder ci.index))
    preallocBlob := none
    dirty := false
    version := 2 }

theorem set_oneXattr : oneXattr.cephSetxattr (Balancing.small Xattr) (userName [97, 98] (by decide)) (some [2, 3]) ⟨false, false⟩
    false plenty = .ok (.done 0, twoXattrs) := by
  decide +kernel

theorem set_oneXattr_scarce : oneXattr.cephSetxattr (Balancing.small Xattr) (userName [98] (by decide)) (some [2]) ⟨false, false⟩
    false scarce = .ok (.done 0, otherXattr) := by
  decide +kernel

/-- A longer name is set, the blob is encoded, and the shorter name is removed. -/
theorem xattrs_finiteMap_removed : ∃ run : XattrRun, run.inode.version = 2 ∧ run.attributes (userPrefix ++ [97]) = none ∧
    run.attributes (userPrefix ++ [97, 98]) = some [2, 3] ∧
    (FiniteMap (Balancing.small Xattr) run.inode run.attributes ∧
      ∀ call : XattrCall, call.Sound run → ∃ next, call.run (Balancing.small Xattr) run = .ok next) := by
  have set : Reached (XattrCall.run (Balancing.small Xattr)) XattrCall.Sound ⟨oneXattr, attributesOf [⟨userPrefix ++ [97], [1]⟩]⟩
      ⟨twoXattrs, _⟩ :=
    Reached.start.next (.change (.set (userName [97, 98] (by decide)) (some [2, 3]) ⟨false, false⟩ false plenty)) rfl (by
      rw [XattrCall.run, XattrChange.run, set_oneXattr]
      rfl)
  have encoded : Reached (XattrCall.run (Balancing.small Xattr)) XattrCall.Sound ⟨oneXattr, attributesOf [⟨userPrefix ++ [97], [1]⟩]⟩
      ⟨twoXattrs.encoded, _⟩ := set.next .flush trivial rfl
  have removed := encoded.next (.change (.remove (userName [97] (by decide)) false plenty)) rfl rfl
  exact ⟨_, rfl, rfl, rfl, xattrs_finiteMap _ oneXattr_older removed⟩

/-- An attribute is set with an index that a failed load has emptied. -/
theorem xattrs_lost : ∃ run : XattrRun,
    Reached (XattrCall.run (Balancing.small Xattr)) (fun _ _ => True) ⟨oneXattr, attributesOf [⟨userPrefix ++ [97], [1]⟩]⟩ run ∧
    run.attributes (userPrefix ++ [97]) = some [1] ∧ run.inode.getXattr (userName [97] (by decide)) = none ∧
    ¬ FiniteMap (Balancing.small Xattr) run.inode run.attributes := by
  have set : Reached (XattrCall.run (Balancing.small Xattr)) (fun _ _ => True) ⟨oneXattr, attributesOf [⟨userPrefix ++ [97], [1]⟩]⟩
      ⟨otherXattr, _⟩ :=
    Reached.start.next (.change (.set (userName [98] (by decide)) (some [2]) ⟨false, false⟩ false scarce)) trivial (by
      rw [XattrCall.run, XattrChange.run, set_oneXattr_scarce]
      rfl)
  have encoded : Reached (XattrCall.run (Balancing.small Xattr)) (fun _ _ => True)
      ⟨oneXattr, attributesOf [⟨userPrefix ++ [97], [1]⟩]⟩ ⟨otherXattr.encoded, _⟩ := set.next .flush trivial rfl
  have loaded := encoded.next (.load none) trivial rfl
  refine ⟨_, loaded, rfl, rfl, fun finite => ?_⟩
  have lookup := finite.lookup (by decide) (userName [97] (by decide))
  cases lookup

end KmodCeph.Xattr
