import KmodCeph.Lib.Decoder
import KmodCeph.Snap.Contexts

namespace KmodCeph.Snap

open Lib

def sizeofCephMdsSnapHead : Nat := 24
def sizeofCephMdsSnapRealm : Nat := 48
def sizeofCephSnapRealm : Nat := 208

def cephSnapOpSplit : UInt32 := 3

/-- What `ceph_update_snap_trace` works on, and the realms of the inodes in the cache. -/
structure SnapMds where
  walk : TraceWalk
  inodeRealm : Ino → Option Ino

/-- The counts of a split whose realm is there, and of one that moves an inode; and where a realm of a trace is, with
its counts. -/
inductive SnapNote where
  | split (numSplitInos numSplitRealms : Int)
  | moving (numSplitInos numSplitRealms : Int)
  | realm (pos : Int) (numSnaps numPriorParentSnaps : UInt32)
deriving DecidableEq

abbrev SnapDecoder (α : Type) := Decode SnapNote SnapMds α

def setWalk (change : TraceWalk → TraceWalk) : SnapDecoder PUnit :=
  modify fun state => { state with data := { state.data with walk := change state.data.walk } }

def setRealms (change : SnapRealms → SnapRealms) : SnapDecoder PUnit :=
  setWalk fun walk => { walk with realms := change walk.realms }

def getSnapRealm (ino : Ino) : SnapDecoder SnapRealm := do
  let state ← get
  match state.data.walk.realms ino with
  | some realm => pure realm
  | none => do
    allocate (-12) sizeofCephSnapRealm
    setRealms fun realms => Function.update realms ino (some .fresh)
    pure .fresh

def adjustParent (ino : Ino) (realm : SnapRealm) (parentIno : Ino) : SnapDecoder Bool :=
  if realm.parentIno = parentIno then pure false
  else do
    let _ ← getSnapRealm parentIno
    setRealms fun realms => (adjustSnapRealmParent ino realm parentIno realms).2
    pure true

section

variable (region : Region)

def peek64 (pos : Int) : SnapDecoder Nat := do
  jump pos
  let value ← fetch64 region
  pure value.toNat

def dupArray (src : Int) (num : UInt32) : SnapDecoder (List SnapId) :=
  if num = 0 then pure []
  else do
    allocate (-12) (8 * num.toNat)
    jump src
    let snaps ← gather num.toNat (fetch64 region)
    pure (snaps.map UInt64.toNat)

def updateRealm (ino : Ino) (ri snaps priorParentSnaps : Int) (numSnaps numPriorParentSnaps : UInt32) :
    SnapDecoder PUnit := do
  let seq ← peek64 region (ri + 32)
  let created ← peek64 region (ri + 8)
  let parentSince ← peek64 region (ri + 24)
  setRealms fun realms => realms.modify ino fun realm => { realm with seq, created, parentSince, snaps := [] }
  let list ← dupArray region snaps numSnaps
  setRealms fun realms => realms.modify ino fun realm => { realm with snaps := list, priorParentSnaps := [] }
  let prior ← dupArray region priorParentSnaps numPriorParentSnaps
  setRealms fun realms => realms.modify ino fun realm => { realm with priorParentSnaps := prior }
  setWalk fun walk => { walk with invalidate := true, dirtyRealms := ino :: walk.dirtyRealms }

def walkRealm (ino : Ino) (ri : Int) (numSnaps numPriorParentSnaps : UInt32) : SnapDecoder PUnit := do
  let snaps := ri + sizeofCephMdsSnapRealm
  let priorParentSnaps := snaps + 8 * numSnaps.toNat
  let realm ← getSnapRealm ino
  let parent ← peek64 region (ri + 16)
  let changed ← adjustParent ino realm parent
  setWalk fun walk => { walk with invalidate := walk.invalidate || changed }
  let seq ← peek64 region (ri + 32)
  if seq > realm.seq then updateRealm region ino ri snaps priorParentSnaps numSnaps numPriorParentSnaps
  else if realm.cachedContext.isNone then setWalk fun walk => { walk with invalidate := true }
  else pure ⟨⟩

/-- The rest of a round, once the counts have been checked. -/
def applyRealm (ri : Int) (numSnaps numPriorParentSnaps : UInt32) : SnapDecoder PUnit := do
  let ino ← peek64 region ri
  walkRealm region ino ri numSnaps numPriorParentSnaps
  jump (ri + sizeofCephMdsSnapRealm + 8 * numSnaps.toNat + 8 * numPriorParentSnaps.toNat)

def traceRealm : SnapDecoder PUnit := do
  need region (-22) sizeofCephMdsSnapRealm
  let state ← get
  let ri := state.pos
  jump (ri + 40)
  let numSnaps ← fetch32 region
  let numPriorParentSnaps ← fetch32 region
  note (.realm ri numSnaps numPriorParentSnaps)
  need region (-22) (8 * (numSnaps + numPriorParentSnaps).toNat)
  applyRealm region ri numSnaps numPriorParentSnaps

def traceRealms : Nat → SnapDecoder PUnit
  | 0 => bug
  | rounds + 1 => do
    traceRealm region
    let state ← get
    if state.pos < region.finish then traceRealms rounds else pure ⟨⟩

/-- `ceph_update_snap_trace` up to the end of the trace; a realm takes some bytes. -/
def decodeSnapTrace : SnapDecoder PUnit := do
  let state ← get
  traceRealms region ((region.finish - state.pos).toNat / sizeofCephMdsSnapRealm + 1)

/-- How `ceph_handle_snap` ends; the result of the trace is not looked at. -/
inductive SnapOutcome where
  | bad
  | out
  | traced (result : Except Int PUnit)

/-- An inode of a split moves to the realm unless it is in a newer one. -/
def moveInode (numSplitInos numSplitRealms ri : Int) (realm : Ino) : SnapDecoder PUnit := do
  let ino ← fetch64 region
  let state ← get
  match state.data.inodeRealm ino.toNat with
  | none => pure ⟨⟩
  | some old => do
    note (.moving numSplitInos numSplitRealms)
    let created ← peek64 region (ri + 8)
    jump state.pos
    if (state.data.walk.realms.at old).created > created then pure ⟨⟩
    else
      modify fun state => { state with
        data := { state.data with inodeRealm := Function.update state.data.inodeRealm ino.toNat (some realm) } }

def moveRealm (realm : Ino) : SnapDecoder PUnit := do
  let ino ← fetch64 region
  let state ← get
  match state.data.walk.realms ino.toNat with
  | none => pure ⟨⟩
  | some child => do
    let _ ← attempt (adjustParent ino.toNat child realm)
    jump state.pos

/-- The split of `ceph_handle_snap`; the counts are an `int` each. -/
def splitRealm (split : Ino) (numSplitInos numSplitRealms : Int) : SnapDecoder SnapOutcome := do
  let state ← get
  let splitInos := state.pos
  let splitRealms := splitInos + 8 * numSplitInos
  let ri := splitRealms + 8 * numSplitRealms
  if region.hasRoom ri sizeofCephMdsSnapRealm = false then pure .bad
  else
    match ← attempt (getSnapRealm split) with
    | .error _ => pure .out
    | .ok _ => do
      note (.split numSplitInos numSplitRealms)
      jump splitInos
      times numSplitInos.toNat (moveInode region numSplitInos numSplitRealms ri split)
      jump splitRealms
      times numSplitRealms.toNat (moveRealm region split)
      jump ri
      let result ← attempt (decodeSnapTrace region)
      pure (.traced result)

def cephHandleSnap : SnapDecoder SnapOutcome := do
  let state ← get
  if region.finish - state.pos < sizeofCephMdsSnapHead then pure .bad
  else do
    let op ← fetch32 region
    let split ← fetch64 region
    let numSplitInos ← fetch32 region
    let numSplitRealms ← fetch32 region
    let _traceLen ← fetch32 region
    if op = cephSnapOpSplit then
      splitRealm region split.toNat numSplitInos.toInt32.toInt numSplitRealms.toInt32.toInt
    else do
      let result ← attempt (decodeSnapTrace region)
      pure (.traced result)

end

end KmodCeph.Snap
