import KmodCeph.Lib.Reached

namespace KmodCeph.Snap

open Lib

abbrev Ino := Nat

abbrev SnapId := Nat

structure SnapContext where
  seq : SnapId
  snaps : List SnapId
deriving DecidableEq

/-- `struct ceph_snap_realm`, found by its inode number; the parent by its own. -/
structure SnapRealm where
  created : SnapId
  seq : SnapId
  parent : Option Ino
  parentSince : SnapId
  snaps : List SnapId
  priorParentSnaps : List SnapId
  children : List Ino
  cachedContext : Option SnapContext

abbrev SnapRealms := Ino → Option SnapRealm

inductive SnapFault where
  | dangling
  | badTrace
  | exhausted

def SnapRealm.fresh : SnapRealm where
  created := 0
  seq := 0
  parent := none
  parentSince := 0
  snaps := []
  priorParentSnaps := []
  children := []
  cachedContext := none

def SnapRealm.parentIno (realm : SnapRealm) : Ino :=
  realm.parent.getD 0

def SnapRealms.get (realms : SnapRealms) (ino : Ino) : Except SnapFault SnapRealm :=
  match realms ino with
  | some realm => .ok realm
  | none => .error .dangling

def SnapRealms.modify (realms : SnapRealms) (ino : Ino) (change : SnapRealm → SnapRealm) : SnapRealms :=
  Function.update realms ino ((realms ino).map change)

def lookupOrCreate (realms : SnapRealms) (ino : Ino) : SnapRealm × SnapRealms :=
  match realms ino with
  | some realm => (realm, realms)
  | none => (.fresh, Function.update realms ino (some .fresh))

def SnapRealm.delChild (child : Ino) (realm : SnapRealm) : SnapRealm :=
  { realm with children := realm.children.filter (· ≠ child) }

def SnapRealm.addChild (child : Ino) (realm : SnapRealm) : SnapRealm :=
  { realm with children := child :: realm.children }

def leaveParent (ino : Ino) (realm : SnapRealm) (realms : SnapRealms) : SnapRealms :=
  match realm.parent with
  | some old => realms.modify old (SnapRealm.delChild ino)
  | none => realms

def adjustSnapRealmParent (ino : Ino) (realm : SnapRealm) (parentIno : Ino) (realms : SnapRealms) :
    Bool × SnapRealms :=
  if realm.parentIno = parentIno then (false, realms)
  else
    let (_, realms) := lookupOrCreate realms parentIno
    let realms := leaveParent ino realm realms
    let realms := realms.modify ino fun realm => { realm with parent := some parentIno }
    (true, realms.modify parentIno (SnapRealm.addChild ino))

/-- `struct ceph_mds_snap_realm` with the two arrays that follow it. -/
structure RealmInfo where
  ino : Ino
  created : SnapId
  parent : Ino
  parentSince : SnapId
  seq : SnapId
  snaps : List SnapId
  priorParentSnaps : List SnapId

/-- The state of the walk over a snap trace. -/
structure TraceWalk where
  realms : SnapRealms
  invalidate : Bool
  dirtyRealms : List Ino

def RealmInfo.update (ri : RealmInfo) (realm : SnapRealm) : SnapRealm :=
  { realm with
    seq := ri.seq
    created := ri.created
    parentSince := ri.parentSince
    snaps := ri.snaps
    priorParentSnaps := ri.priorParentSnaps }

def updateSnapRealm (walk : TraceWalk) (ri : RealmInfo) : TraceWalk :=
  let (realm, realms) := lookupOrCreate walk.realms ri.ino
  let (changed, realms) := adjustSnapRealmParent ri.ino realm ri.parent realms
  if ri.seq > realm.seq then
    { realms := realms.modify ri.ino ri.update
      invalidate := true
      dirtyRealms := ri.ino :: walk.dirtyRealms }
  else if realm.cachedContext.isNone then { walk with realms := realms, invalidate := true }
  else { walk with realms := realms, invalidate := walk.invalidate || changed }

/-- The `unchanged` test of `build_snap_context`. -/
def SnapRealm.unchanged (realm : SnapRealm) (parentContext : Option SnapContext) : Bool :=
  match realm.cachedContext with
  | none => false
  | some context =>
    context.seq = realm.seq &&
      match parentContext with
      | none => true
      | some above => context.seq ≥ above.seq

def SnapRealm.newContext (realm : SnapRealm) : Option SnapContext → SnapContext
  | none =>
    { seq := realm.seq
      snaps := (realm.snaps ++ realm.priorParentSnaps).insertionSort (· ≥ ·) }
  | some above =>
    { seq := if above.seq > realm.seq then above.seq else realm.seq
      snaps := (above.snaps.filter (· ≥ realm.parentSince) ++ realm.snaps ++ realm.priorParentSnaps).insertionSort
        (· ≥ ·) }

/-- `build_snap_context` once the context of the parent is there. -/
def buildBelow (ino : Ino) (parentContext : Option SnapContext) (realms : SnapRealms) : Except SnapFault SnapRealms := do
  let realm ← realms.get ino
  if realm.unchanged parentContext then return realms
  else return realms.modify ino fun realm => { realm with cachedContext := some (realm.newContext parentContext) }

def buildSnapContext : Nat → Ino → SnapRealms → Except SnapFault SnapRealms
  | 0, _, _ => .error .exhausted
  | bound + 1, ino, realms => do
    let realm ← realms.get ino
    match realm.parent with
    | none => buildBelow ino none realms
    | some parentIno => do
      let parent ← realms.get parentIno
      match parent.cachedContext with
      | some context => buildBelow ino (some context) realms
      | none => do
        let realms ← buildSnapContext bound parentIno realms
        let parent ← realms.get parentIno
        match parent.cachedContext with
        | some context => buildBelow ino (some context) realms
        | none => throw .dangling

/-- `rebuild_snap_realms`; the recursion goes down to the children. -/
def rebuildSnapRealms (height : Nat) : Nat → Ino → SnapRealms → Except SnapFault SnapRealms
  | 0, _, _ => .error .exhausted
  | depth + 1, ino, realms => do
    let realms ← buildSnapContext height ino realms
    let realm ← realms.get ino
    realm.children.foldlM (fun realms child => rebuildSnapRealms height depth child realms) realms

/-- `ceph_update_snap_trace` on a decoded trace, with the realms whose cap snaps it queues. -/
def cephUpdateSnapTrace (bound : Nat) (trace : List RealmInfo) (realms : SnapRealms) :
    Except SnapFault (List Ino × SnapRealms) := do
  let walk := trace.foldl updateSnapRealm { realms := realms, invalidate := false, dirtyRealms := [] }
  match trace.getLast? with
  | none => throw .badTrace
  | some last =>
    if walk.invalidate then do
      let realms ← rebuildSnapRealms bound bound last.ino walk.realms
      return (walk.dirtyRealms, realms)
    else return (walk.dirtyRealms, walk.realms)

/-- `__destroy_snap_realm`, of a realm that no child holds a reference to. -/
def destroySnapRealm (ino : Ino) (realms : SnapRealms) : Except SnapFault SnapRealms := do
  let realm ← realms.get ino
  haltIf (realm.children ≠ []) .dangling
  return leaveParent ino realm (Function.update realms ino none)

end KmodCeph.Snap
