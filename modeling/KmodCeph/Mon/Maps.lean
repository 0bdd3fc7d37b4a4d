import KmodCeph.Mdsmap.Decode
import KmodCeph.Mon.Session

namespace KmodCeph.Mon

open Lib Osdmap Mdsmap

/-- What `ceph_client`, `ceph_mds_client` and `ceph_osd_client` have of this. `needmaps` says of the calls of
`kick_requests` to come whether a request waits for a newer map. -/
structure MapClient where
  fsid : List UInt8
  haveFsid : Bool
  monc : MonClient
  mdsmap : MdsMap
  osdmap : Option TreeMap
  needmaps : List Bool

/-- What an osd map message does: an incremental is applied that is announced with its epoch, a map is replaced, by the
epochs of both, and the requests are kicked. -/
inductive MapEvent where
  | apply (announced before : UInt32)
  | replace (before after : UInt32)
  | kick (skippedMap wasFull : Bool)

abbrev ClientDecoder (α : Type) := Decode MapEvent MapClient α

inductive MapExit where
  | foreign
  | old
  | done
deriving DecidableEq

def cephOsdmapFull : UInt32 := 2
def cephOsdmapPauserd : UInt32 := 4
def cephOsdmapPausewr : UInt32 := 8

def cephOsdmapFlag (map : Option TreeMap) (flag : UInt32) : Bool :=
  map.any fun map => map.flags &&& flag ≠ 0

def osdmapEpoch (map : Option TreeMap) : UInt32 := (map.map TreeMap.epoch).getD 0

def onClient (change : MapClient → MapClient) : ClientDecoder PUnit :=
  modify fun state => { state with data := change state.data }

def onMonc (change : MonClient → MonClient) : ClientDecoder PUnit :=
  onClient fun client => { client with monc := change client.monc }

def cephCheckFsid (fsid : List UInt8) : ClientDecoder Bool := do
  let state ← get
  if state.data.haveFsid then pure (state.data.fsid = fsid)
  else do
    onClient fun client => { client with fsid }
    pure true

section

variable (region : Region)

def needWord : ClientDecoder UInt32 := do
  need region (-einval) 4
  fetch32 region

def takeMdsmap (epoch : UInt32) : ClientDecoder MapExit := do
  let state ← get
  if epoch ≤ state.data.mdsmap.epoch then pure .old
  else do
    let newmap ← nested (attempt (cephMdsmapDecode region)) ⟨.blank, [], 0⟩ (fun _ => []) id
    match newmap.1 with
    | .error code => fail code
    | .ok mdsmap => do
      onClient fun client => { client with mdsmap }
      pure .done

def cephMdscHandleMap : ClientDecoder MapExit := do
  need region (-einval) (16 + 2 * 4)
  let fsid ← fetch region 16
  if !(← cephCheckFsid fsid) then pure .foreign
  else do
    let epoch ← fetch32 region
    let _maplen ← fetch32 region
    onMonc (MonClient.gotMdsmap epoch)
    takeMdsmap region epoch

/-- What `kick_requests` does here: it asks for the next map if a request needs one. -/
def kickRequests (skippedMap wasFull : Bool) : ClientDecoder PUnit := do
  note (.kick skippedMap wasFull)
  onClient fun client =>
    { client with
      needmaps := client.needmaps.tail
      monc := if client.needmaps.headD false then client.monc.requestNextOsdmap else client.monc }

variable (balancings : Balancings)

def mapHead : ClientDecoder (UInt32 × UInt32) := do
  need region (-einval) 8
  let epoch ← fetch32 region
  let maplen ← fetch32 region
  need region (-einval) maplen.toNat
  pure (epoch, maplen)

def replaceMap (epoch : UInt32) : Option TreeMap → ClientDecoder PUnit
  | none => pure ⟨⟩
  | some other => do
    note (.replace epoch other.epoch)
    onClient fun client => { client with osdmap := some other }

def applyIncremental (next : Int) (epoch : UInt32) (map : TreeMap) (wasFull : Bool) : ClientDecoder Bool := do
  note (.apply epoch map.epoch)
  let newmap ← nested (attempt (osdmapApplyIncremental balancings { region with finish := next })) map (fun _ => []) id
  onClient fun client => { client with osdmap := some newmap.2 }
  match newmap.1 with
  | .error code => fail code
  | .ok other => do
    replaceMap map.epoch other
    let state ← get
    let wasFull := wasFull || cephOsdmapFlag state.data.osdmap cephOsdmapFull
    kickRequests false wasFull
    pure wasFull

/-- An incremental is for the map that comes just before it. The locals are whether there is a `newmap`, and
`was_full`. -/
def takeIncremental (next : Int) (epoch : UInt32) (locals : Bool × Bool) : ClientDecoder (Bool × Bool) := do
  let state ← get
  match state.data.osdmap with
  | none => pure locals
  | some map =>
    if map.epoch + 1 = epoch then do
      let wasFull ← applyIncremental region balancings next epoch map locals.2
      pure (true, wasFull)
    else pure locals

def incrementalMaps : Nat → Bool × Bool → ClientDecoder (Bool × Bool)
  | 0, locals => pure locals
  | nrMaps + 1, locals => do
    let head ← mapHead region
    let state ← get
    let next := state.pos + head.2.toNat
    let locals ← takeIncremental region balancings next head.1 locals
    jump next
    incrementalMaps nrMaps locals

def takeFull (next : Int) (wasFull : Bool) : ClientDecoder PUnit := do
  let newmap ← nested (attempt (cephOsdmapDecode balancings { region with finish := next })) .blank (fun _ => []) id
  match newmap.1 with
  | .error code => fail code
  | .ok _ => do
    let state ← get
    let oldmap := state.data.osdmap
    note (.replace (osdmapEpoch oldmap) newmap.2.epoch)
    onClient fun client => { client with osdmap := some newmap.2 }
    let skippedMap := oldmap.any fun oldmap => oldmap.epoch + 1 < newmap.2.epoch
    kickRequests skippedMap (wasFull || cephOsdmapFlag (some newmap.2) cephOsdmapFull)

/-- The last of the full maps counts, if it is newer. -/
def takeNewer (nrMaps : Nat) (next : Int) (epoch : UInt32) (wasFull : Bool) : ClientDecoder PUnit := do
  let state ← get
  if nrMaps > 1 then pure ⟨⟩
  else if state.data.osdmap.any fun map => map.epoch ≥ epoch then pure ⟨⟩
  else takeFull region balancings next wasFull

def fullMaps : Nat → Bool → ClientDecoder PUnit
  | 0, _ => pure ⟨⟩
  | nrMaps + 1, wasFull => do
    let head ← mapHead region
    let state ← get
    takeNewer region balancings (nrMaps + 1) (state.pos + head.2.toNat) head.1 wasFull
    skip head.2.toNat
    fullMaps nrMaps wasFull

/-- The end of `ceph_osdc_handle_map`: tell the monitor client. -/
def mapsDone : ClientDecoder MapExit := do
  let state ← get
  match state.data.osdmap with
  | none => fail (-einval)
  | some map => do
    onMonc (MonClient.gotOsdmap map.epoch)
    onMonc fun monc =>
      if cephOsdmapFlag (some map) cephOsdmapFull || cephOsdmapFlag (some map) cephOsdmapPauserd
          || cephOsdmapFlag (some map) cephOsdmapPausewr then
        monc.requestNextOsdmap
      else monc
    pure .done

def cephOsdcHandleMap : ClientDecoder MapExit := do
  need region (-einval) 16
  let fsid ← fetch region 16
  if !(← cephCheckFsid fsid) then pure .foreign
  else do
    let state ← get
    let wasFull := cephOsdmapFlag state.data.osdmap cephOsdmapFull
    let nrMaps ← needWord region
    let locals ← incrementalMaps region balancings nrMaps.toNat (false, wasFull)
    if locals.1 then mapsDone
    else do
      let nrMaps ← needWord region
      fullMaps region balancings nrMaps.toNat locals.2
      mapsDone

end

/-- A message with a map, with the outcomes of the allocations and what `kick_requests` finds. -/
inductive MapMsg where
  | mds (front : List UInt8) (allocs : List Bool)
  | osd (front : List UInt8) (allocs : List Bool) (needmaps : List Bool)

def frontRegion (front : List UInt8) : Region := ⟨front, front.length⟩

def handleMap (balancings : Balancings) (msg : MapMsg) (client : MapClient) :
    EStateM.Result Stop (Reading MapEvent MapClient) MapExit :=
  match msg with
  | .mds front allocs => cephMdscHandleMap (frontRegion front) { pos := 0, allocs, trail := [], data := client }
  | .osd front allocs needmaps =>
    cephOsdcHandleMap (frontRegion front) balancings
      { pos := 0, allocs, trail := [], data := { client with needmaps } }

inductive Handles (balancings : Balancings) (msg : MapMsg) (client : MapClient) : Option MapExit → MapClient → Prop
  | returns {exit : MapExit} {after : Reading MapEvent MapClient}
    (ran : handleMap balancings msg client = .ok exit after) :
      Handles balancings msg client (some exit) after.data
  | corrupt {code : Int} {after : Reading MapEvent MapClient}
      (ran : handleMap balancings msg client = .error (.error code) after) :
        Handles balancings msg client none after.data

end KmodCeph.Mon
