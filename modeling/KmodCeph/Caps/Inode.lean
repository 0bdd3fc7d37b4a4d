import KmodCeph.Lib.Reached

namespace KmodCeph.Caps

open Lib

abbrev CapMask := BitVec 32

def cephCapPin : CapMask := 0x1
def cephCapAuthExcl : CapMask := 0x8
def cephCapXattrExcl : CapMask := 0x80
def cephCapFileExcl : CapMask := 0x200
def cephCapFileCache : CapMask := 0x400
def cephCapFileRd : CapMask := 0x800
def cephCapFileWr : CapMask := 0x1000
def cephCapFileBuffer : CapMask := 0x2000
def cephCapBits : Nat := 22

abbrev InodeId := Nat
abbrev Session := Nat
abbrev PageId := Nat

/-- A `struct ceph_snap_context`; pointers to it are equal if the addresses are. -/
structure SnapContext where
  addr : Nat
  seq : Nat
deriving DecidableEq

structure FileState where
  size : Nat
  mtime : Nat
  atime : Nat
  ctime : Nat
  timeWarpSeq : Nat
deriving DecidableEq

/-- `struct ceph_cap_snap`. The size and the times are there once it is finished;
`queued` says that its inode was queued for flush when it had nothing more to wait
for, and `flushing` that it has been sent. -/
structure CapSnap where
  addr : Nat
  follows : Nat
  flushTid : Nat
  dirty : CapMask
  context : SnapContext
  recorded : Option FileState
  writing : Bool
  dirtyPages : Int
  queued : Bool
  flushing : Bool

/-- A dirty page with its `page->private` and the counter it is counted in: that of
the head or of a cap_snap. -/
structure DirtyPage where
  page : PageId
  snapc : SnapContext
  counter : Option Nat
deriving DecidableEq

/-- The part of `struct ceph_inode_info` that the functions below use, with the
references to the inode they hold and its dirty pages; `dirtying` are the pages
for which `ceph_set_page_dirty` has read the context of the realm. -/
structure CephInode where
  dirtyCaps : CapMask
  flushingCaps : CapMask
  capFlushSeq : Nat
  capFlushLastTid : BitVec 16
  capFlushTid : Nat → BitVec 16
  capSnaps : List CapSnap
  headSnapc : Option SnapContext
  pinRef : Int
  rdRef : Int
  rdcacheRef : Int
  wrRef : Int
  wbRef : Int
  wrbufferRef : Int
  wrbufferRefHead : Int
  nrpages : Nat
  cachedContext : SnapContext
  file : FileState
  refs : Int
  dirtying : List (PageId × SnapContext)
  pages : List DirtyPage

/-- The lists of the mds client that inodes are on; an inode is on the flushing list
of at most one session. -/
structure CapLists where
  capDirty : List InodeId
  capFlushing : List (Session × InodeId)
  numCapFlushing : Int
  capFlushSeq : Nat

inductive InodeBug where
  | dirtyItemLinked
  | dirtyItemUnlinked
  | nothingDirty
  | headUnset
  | notFound
  | stillWriting
  | nothingToFlush
  | pinNotRetained
  | issuedNotImplemented

def CapLists.Flushing (lists : CapLists) (self : InodeId) : Prop :=
  ∃ session, (session, self) ∈ lists.capFlushing

def CapLists.unlinkFlushing (lists : CapLists) (self : InodeId) : List (Session × InodeId) :=
  lists.capFlushing.filter fun item => item.2 ≠ self

def cephCapsUsed (ci : CephInode) : CapMask :=
  (if ci.pinRef ≠ 0 then cephCapPin else 0) |||
  (if ci.rdRef ≠ 0 then cephCapFileRd else 0) |||
  (if ci.rdcacheRef ≠ 0 ∨ ci.nrpages ≠ 0 then cephCapFileCache else 0) |||
  (if ci.wrRef ≠ 0 then cephCapFileWr else 0) |||
  (if ci.wbRef ≠ 0 ∨ ci.wrbufferRef ≠ 0 then cephCapFileBuffer else 0)

def cephCapsDirty (ci : CephInode) : CapMask :=
  ci.dirtyCaps ||| ci.flushingCaps

def cephMarkDirtyCaps (self : InodeId) (mask : CapMask) (ci : CephInode) (lists : CapLists) :
    Except InodeBug (CephInode × CapLists) := do
  let was := ci.dirtyCaps
  let ci := { ci with dirtyCaps := was ||| mask }
  if was = 0 then
    haltIf (self ∈ lists.capDirty) .dirtyItemLinked
    return ({ ci with
      headSnapc := some (ci.headSnapc.getD ci.cachedContext)
      refs := if ci.flushingCaps = 0 then ci.refs + 1 else ci.refs },
      { lists with capDirty := self :: lists.capDirty })
  else
    haltIf (self ∉ lists.capDirty) .dirtyItemUnlinked
    return (ci, lists)

def markCapsFlushing (self : InodeId) (session : Session) (ci : CephInode) (lists : CapLists) :
    Except InodeBug (CapMask × CephInode × CapLists) := do
  haltIf (ci.dirtyCaps = 0) .nothingDirty
  haltIf (self ∉ lists.capDirty) .dirtyItemUnlinked
  let flushing := ci.dirtyCaps
  let seq := lists.capFlushSeq + 1
  return (flushing,
    { ci with
      flushingCaps := ci.flushingCaps ||| flushing
      dirtyCaps := 0
      capFlushSeq := seq },
    { capDirty := lists.capDirty.erase self
      capFlushing := lists.unlinkFlushing self ++ [(session, self)]
      numCapFlushing :=
        if self ∈ lists.capFlushing.map (·.2) then lists.numCapFlushing else lists.numCapFlushing + 1
      capFlushSeq := seq })

def cleanedBits (ci : CephInode) (flushTid : Nat) (dirty : CapMask) : CapMask :=
  (List.range cephCapBits).foldl (fun cleaned bit =>
    if dirty.getLsbD bit ∧ BitVec.ofNat 16 flushTid = ci.capFlushTid bit then cleaned ||| ((1 : CapMask) <<< bit) else cleaned) 0

def handleCapFlushAck (self : InodeId) (flushTid : Nat) (dirty : CapMask) (ci : CephInode) (lists : CapLists) :
    Except InodeBug (CephInode × CapLists) := do
  let cleaned := cleanedBits ci flushTid dirty
  if ci.flushingCaps = ci.flushingCaps &&& ~~~cleaned then return (ci, lists)
  let ci := { ci with flushingCaps := ci.flushingCaps &&& ~~~cleaned }
  if ci.flushingCaps ≠ 0 then return (ci, lists)
  let lists := { lists with
    capFlushing := lists.unlinkFlushing self
    numCapFlushing := lists.numCapFlushing - 1 }
  if ci.dirtyCaps = 0 then
    haltIf (self ∈ lists.capDirty) .dirtyItemLinked
    let ci := { ci with refs := ci.refs - 1 }
    if ci.wrbufferRefHead = 0 then
      haltIf (ci.headSnapc = none) .headUnset
      return ({ ci with headSnapc := none }, lists)
    return (ci, lists)
  else
    haltIf (self ∉ lists.capDirty) .dirtyItemUnlinked
    return (ci, lists)

def readPageContext (page : PageId) (ci : CephInode) : CephInode :=
  { ci with dirtying := (page, ci.cachedContext) :: ci.dirtying }

def dirtyHead (page : PageId) (snapc : SnapContext) (ci : CephInode) : CephInode :=
  { ci with
    headSnapc := some (ci.headSnapc.getD snapc)
    wrbufferRefHead := ci.wrbufferRefHead + 1
    refs := if ci.wrbufferRef = 0 then ci.refs + 1 else ci.refs
    wrbufferRef := ci.wrbufferRef + 1
    dirtying := ci.dirtying.erase (page, snapc)
    pages := { page := page, snapc := snapc, counter := none } :: ci.pages }

def putHeadRefs (nr : Int) (ci : CephInode) : Except InodeBug CephInode := do
  let ci := { ci with wrbufferRefHead := ci.wrbufferRefHead - nr }
  if ci.wrbufferRefHead = 0 ∧ ci.dirtyCaps = 0 ∧ ci.flushingCaps = 0 then
    haltIf (ci.headSnapc = none) .headUnset
    return { ci with headSnapc := none }
  return ci

def CapSnap.release (nr : Int) (capsnap : CapSnap) : Option CapSnap :=
  let capsnap := { capsnap with dirtyPages := capsnap.dirtyPages - nr }
  if capsnap.dirtyPages = 0 then
    if capsnap.dirty = 0 then none else some { capsnap with queued := capsnap.queued || !capsnap.writing }
  else some capsnap

def releaseFirst (nr : Int) (snapc : SnapContext) : List CapSnap → Option (List CapSnap)
  | [] => none
  | capsnap :: rest =>
    if capsnap.context = snapc then some ((capsnap.release nr).toList ++ rest)
    else (releaseFirst nr snapc rest).map (capsnap :: ·)

def putSnapRefs (nr : Int) (snapc : SnapContext) (ci : CephInode) : Except InodeBug CephInode :=
  match releaseFirst nr snapc ci.capSnaps with
  | none => throw .notFound
  | some capSnaps =>
    return { ci with
      capSnaps := capSnaps
      refs := ci.refs - (ci.capSnaps.length - capSnaps.length) }

def cephPutWrbufferCapRefs (nr : Int) (snapc : SnapContext) (ci : CephInode) : Except InodeBug CephInode := do
  let ci := { ci with wrbufferRef := ci.wrbufferRef - nr }
  let last := ci.wrbufferRef = 0
  let ci ← if ci.headSnapc = some snapc then putHeadRefs nr ci else putSnapRefs nr snapc ci
  return if last then { ci with refs := ci.refs - 1 } else ci

def havePendingCapSnap (ci : CephInode) : Bool :=
  match ci.capSnaps.getLast? with
  | none => false
  | some capsnap => capsnap.writing

def finishCapSnap (file : FileState) (capsnap : CapSnap) : Except InodeBug CapSnap := do
  haltIf (capsnap.writing = true) .stillWriting
  return { capsnap with recorded := some file, queued := capsnap.dirtyPages = 0 }

def newCapSnap (addr : Nat) (snapc : SnapContext) (dirty : CapMask) (ci : CephInode) : CapSnap where
  addr := addr
  follows := snapc.seq
  flushTid := 0
  dirty := dirty
  context := snapc
  recorded := none
  writing := false
  dirtyPages := ci.wrbufferRefHead
  queued := false
  flushing := false

/-- The pages counted in the head move to a cap_snap. -/
def DirtyPage.moveTo (addr : Nat) (page : DirtyPage) : DirtyPage :=
  if page.counter = none then { page with counter := some addr } else page

/-- What `ceph_queue_cap_snap` takes for dirty: a write that is going on will be. -/
def dirtyForSnap (ci : CephInode) : CapMask :=
  if cephCapsUsed ci &&& cephCapFileWr ≠ 0 then cephCapsDirty ci ||| cephCapFileWr else cephCapsDirty ci

def snapWorthyCaps : CapMask := cephCapAuthExcl ||| cephCapXattrExcl ||| cephCapFileExcl ||| cephCapFileWr

def Queues (ci : CephInode) : Prop :=
  havePendingCapSnap ci = false ∧ dirtyForSnap ci &&& snapWorthyCaps ≠ 0

instance (ci : CephInode) : Decidable (Queues ci) :=
  inferInstanceAs (Decidable (_ ∧ _))

def cephQueueCapSnap (addr : Nat) (ci : CephInode) : Except InodeBug CephInode := do
  if Queues ci then
    let capsnap := newCapSnap addr (ci.headSnapc.getD ci.cachedContext) (dirtyForSnap ci) ci
    let capsnap ←
      if cephCapsUsed ci &&& cephCapFileWr ≠ 0 then pure { capsnap with writing := true }
      else finishCapSnap ci.file capsnap
    return { ci with
      wrbufferRefHead := 0
      headSnapc := some ci.cachedContext
      capSnaps := ci.capSnaps ++ [capsnap]
      refs := ci.refs + 1
      pages := ci.pages.map (DirtyPage.moveTo addr) }
  return ci

def takeCapRefs (got : CapMask) (ci : CephInode) : CephInode :=
  { ci with
    pinRef := if got &&& cephCapPin ≠ 0 then ci.pinRef + 1 else ci.pinRef
    rdRef := if got &&& cephCapFileRd ≠ 0 then ci.rdRef + 1 else ci.rdRef
    rdcacheRef := if got &&& cephCapFileCache ≠ 0 then ci.rdcacheRef + 1 else ci.rdcacheRef
    wrRef := if got &&& cephCapFileWr ≠ 0 then ci.wrRef + 1 else ci.wrRef
    wbRef := if got &&& cephCapFileBuffer ≠ 0 then ci.wbRef + 1 else ci.wbRef
    refs := if got &&& cephCapFileBuffer ≠ 0 ∧ ci.wbRef = 0 then ci.refs + 1 else ci.refs }

def finishFirst (file : FileState) : List CapSnap → Except InodeBug (List CapSnap)
  | [] => return []
  | capsnap :: rest =>
    if capsnap.writing then do
      let capsnap ← finishCapSnap file { capsnap with writing := false }
      return capsnap :: rest
    else return capsnap :: rest

def cephPutCapRefs (had : CapMask) (ci : CephInode) : Except InodeBug CephInode := do
  let ci := { ci with
    pinRef := if had &&& cephCapPin ≠ 0 then ci.pinRef - 1 else ci.pinRef
    rdRef := if had &&& cephCapFileRd ≠ 0 then ci.rdRef - 1 else ci.rdRef
    rdcacheRef := if had &&& cephCapFileCache ≠ 0 then ci.rdcacheRef - 1 else ci.rdcacheRef
    wbRef := if had &&& cephCapFileBuffer ≠ 0 then ci.wbRef - 1 else ci.wbRef
    refs := if had &&& cephCapFileBuffer ≠ 0 ∧ ci.wbRef = 1 then ci.refs - 1 else ci.refs }
  if had &&& cephCapFileWr ≠ 0 then
    let ci := { ci with wrRef := ci.wrRef - 1 }
    if ci.wrRef = 0 then
      let capSnaps ← finishFirst ci.file ci.capSnaps
      return { ci with capSnaps := capSnaps }
    return ci
  return ci

def flushCapSnap (addr : Nat) (ci : CephInode) : Except InodeBug CephInode := do
  haltIf (∃ capsnap ∈ ci.capSnaps, capsnap.addr = addr ∧ capsnap.dirty = 0) .nothingToFlush
  let tid := ci.capFlushLastTid + 1
  return { ci with
    capFlushLastTid := tid
    capSnaps := ci.capSnaps.map fun capsnap =>
      if capsnap.addr = addr then { capsnap with flushTid := tid.toNat, flushing := true } else capsnap }

def ackFlushSnap (follows flushTid : Nat) : List CapSnap → List CapSnap
  | [] => []
  | capsnap :: rest =>
    if capsnap.follows = follows then
      if capsnap.flushTid ≠ flushTid then capsnap :: rest else rest
    else capsnap :: ackFlushSnap follows flushTid rest

def handleCapFlushsnapAck (follows flushTid : Nat) (ci : CephInode) : CephInode :=
  let capSnaps := ackFlushSnap follows flushTid ci.capSnaps
  { ci with capSnaps := capSnaps, refs := ci.refs - (ci.capSnaps.length - capSnaps.length) }

section

variable {ci : CephInode} {nr : Int} {snapc : SnapContext}

/-- What is left of the head context when so many pages of the head are released. -/
def CephInode.headAfter (ci : CephInode) (nr : Int) : Option SnapContext :=
  if ci.wrbufferRefHead - nr = 0 ∧ ci.dirtyCaps = 0 ∧ ci.flushingCaps = 0 then none else ci.headSnapc

theorem putHeadRefs_ok (set : ci.headSnapc ≠ none) : putHeadRefs nr ci =
    .ok { ci with wrbufferRefHead := ci.wrbufferRefHead - nr, headSnapc := ci.headAfter nr } := by
  unfold putHeadRefs CephInode.headAfter
  by_cases clean : ci.wrbufferRefHead - nr = 0 ∧ ci.dirtyCaps = 0 ∧ ci.flushingCaps = 0
  · rw [if_pos clean, if_pos clean, haltIf, if_neg set]
    rfl
  · rw [if_neg clean, if_neg clean]
    rfl

theorem putWrbuffer_head (head : ci.headSnapc = some snapc) : cephPutWrbufferCapRefs nr snapc ci =
    .ok { ci with
      wrbufferRef := ci.wrbufferRef - nr
      wrbufferRefHead := ci.wrbufferRefHead - nr
      headSnapc := ci.headAfter nr
      refs := if ci.wrbufferRef - nr = 0 then ci.refs - 1 else ci.refs } := by
  have put := @putHeadRefs_ok { ci with wrbufferRef := ci.wrbufferRef - nr } nr (by simp [head])
  unfold cephPutWrbufferCapRefs
  simp only [if_pos head, put]
  by_cases last : ci.wrbufferRef - nr = 0
  · simp only [last, if_true]
    rfl
  · simp only [last, if_false]
    rfl

variable {self : InodeId} {lists lists' : CapLists} {after : CephInode} {mask flushing dirty : CapMask}

theorem cephMarkDirtyCaps_changes (ran : cephMarkDirtyCaps self mask ci lists = .ok (after, lists')) :
    ∃ head refs capDirty, after = { ci with
        dirtyCaps := ci.dirtyCaps ||| mask
        headSnapc := head
        refs := refs } ∧
      lists' = { lists with capDirty := capDirty } ∧
      (head = ci.headSnapc ∨ ci.dirtyCaps = 0 ∧ head = some (ci.headSnapc.getD ci.cachedContext)) := by
  unfold cephMarkDirtyCaps at ran
  simp only at ran
  split at ran
  next clean =>
    obtain ⟨-, -, done⟩ := ok_of_bind ran
    cases done
    exact ⟨_, _, _, rfl, rfl, .inr ⟨clean, rfl⟩⟩
  next =>
    obtain ⟨-, -, done⟩ := ok_of_bind ran
    cases done
    exact ⟨_, _, _, rfl, rfl, .inl rfl⟩

theorem markCapsFlushing_changes {session : Session} (ran : markCapsFlushing self session ci lists = .ok (flushing, after, lists')) :
    flushing = ci.dirtyCaps ∧ after = { ci with
        flushingCaps := ci.flushingCaps ||| ci.dirtyCaps
        dirtyCaps := 0
        capFlushSeq := lists.capFlushSeq + 1 } ∧
      lists' = { lists' with
        capDirty := lists.capDirty.erase self
        capFlushing := lists.unlinkFlushing self ++ [(session, self)]
        capFlushSeq := lists.capFlushSeq + 1 } := by
  obtain ⟨-, -, listed⟩ := ok_of_bind ran
  obtain ⟨-, -, done⟩ := ok_of_bind listed
  cases done
  exact ⟨rfl, rfl, rfl⟩

theorem handleCapFlushAck_changes {flushTid : Nat} (ran : handleCapFlushAck self flushTid dirty ci lists = .ok (after, lists')) :
    ∃ head refs, after = { ci with
        flushingCaps := ci.flushingCaps &&& ~~~cleanedBits ci flushTid dirty
        headSnapc := head
        refs := refs } ∧
      (head = ci.headSnapc ∨ ci.wrbufferRefHead = 0 ∧ head = none) ∧
      (lists' = lists ∨ lists' = { lists with
        capFlushing := lists.unlinkFlushing self
        numCapFlushing := lists.numCapFlushing - 1 }) := by
  unfold handleCapFlushAck at ran
  simp only at ran
  split_ifs at ran with same left clean unused
  · cases ran
    exact ⟨ci.headSnapc, ci.refs, by rw [← same], .inl rfl, .inl rfl⟩
  · cases ran
    exact ⟨_, _, rfl, .inl rfl, .inl rfl⟩
  · obtain ⟨-, -, put⟩ := ok_of_bind ran
    obtain ⟨-, -, done⟩ := ok_of_bind put
    cases done
    exact ⟨_, _, rfl, .inr ⟨unused, rfl⟩, .inr rfl⟩
  · obtain ⟨-, -, done⟩ := ok_of_bind ran
    cases done
    exact ⟨_, _, rfl, .inl rfl, .inr rfl⟩
  · obtain ⟨-, -, done⟩ := ok_of_bind ran
    cases done
    exact ⟨_, _, rfl, .inl rfl, .inr rfl⟩

end

end KmodCeph.Caps
