import KmodCeph.Lib.Decoder
import KmodCeph.Osdmap.Decode

namespace KmodCeph.Mdsmap

open Lib

/-- `struct ceph_mds_info`; the targets with the number of their memory. -/
structure MdsInfo where
  globalId : UInt64
  addr : List UInt8
  state : Int32
  numExportTargets : UInt32
  laggy : Bool
  exportTargets : Option (Nat × List UInt32)
deriving DecidableEq

structure MdsMap where
  epoch : UInt32
  clientEpoch : UInt32
  lastFailure : UInt32
  root : UInt32
  sessionTimeout : UInt32
  sessionAutoclose : UInt32
  maxFileSize : UInt64
  maxMds : UInt32
  info : Option (Nat × List MdsInfo)
  numDataPgPools : Int32
  dataPgPools : Option (Nat × List UInt64)
  casPgPool : UInt64
deriving DecidableEq

def MdsMap.blank : MdsMap :=
  { epoch := 0, clientEpoch := 0, lastFailure := 0, root := 0, sessionTimeout := 0, sessionAutoclose := 0
    maxFileSize := 0, maxMds := 0, info := none, numDataPgPools := 0, dataPgPools := none, casPgPool := 0 }

def sizeofCephEntityAddr : Nat := 136
def sizeofCephTimespec : Nat := 8
def sizeofCephMdsmap : Nat := 72
def sizeofCephMdsInfo : Nat := 168

def MdsInfo.blank : MdsInfo :=
  { globalId := 0, addr := List.replicate sizeofCephEntityAddr 0, state := 0, numExportTargets := 0, laggy := false
    exportTargets := none }

/-- The map that is decoded, with the memory that is held and the number of the next. -/
structure MdsMemory where
  map : MdsMap
  held : List Nat
  next : Nat

/-- What the decoder met: an entry with export targets, and the room behind their number. -/
inductive MdsNote where
  | targets (count : UInt32) (room : Int)

abbrev MdsDecoder (α : Type) := Decode MdsNote MdsMemory α

def MdsMemory.alloc (memory : MdsMemory) : MdsMemory :=
  { memory with
    held := memory.next :: memory.held
    next := memory.next + 1 }

def MdsMemory.free (block : Nat) (memory : MdsMemory) : MdsMemory :=
  { memory with held := memory.held.erase block }

/-- `kcalloc`; the size of what is of negative number is too large. -/
def kcalloc (count : Int) (size : Nat) : MdsDecoder Nat := do
  allocate (-enomem) ((if 0 ≤ count then count.toNat else (2 ^ 64 + count).toNat) * size)
  let state ← get
  modify fun state => { state with data := state.data.alloc }
  pure state.data.next

def update (change : MdsMap → MdsMap) : MdsDecoder PUnit :=
  modify fun state => { state with data := { state.data with map := change state.data.map } }

section

variable (region : Region)

def needFetch32 : MdsDecoder UInt32 := do
  need region (-einval) 4
  fetch32 region

def fetchTargets (count : UInt32) : MdsDecoder (List UInt32) := gather count.toNat (fetch32 region)

/-- The export targets of an info, read back from where they have been skipped. -/
def storeTargets (mds : Nat) (count : UInt32) (pexportTargets : Int) : MdsDecoder PUnit :=
  if count ≠ 0 then do
    let block ← kcalloc count.toNat 4
    let state ← get
    jump pexportTargets
    let targets ← fetchTargets region count
    jump state.pos
    update fun m => { m with
      info := m.info.map fun info =>
        (info.1, info.2.modify mds fun i => { i with exportTargets := some (block, targets) }) }
  else update fun m => { m with
    info := m.info.map fun info => (info.1, info.2.modify mds fun i => { i with exportTargets := none }) }

def decodeInfo : MdsDecoder PUnit := do
  need region (-einval) (8 * 2 + 1 + 4)
  let globalId ← fetch64 region
  let infoversion ← fetch8 region
  skip 8
  let namelen ← fetch32 region
  skip namelen.toNat
  need region (-einval) (4 * 4 + 8 + sizeofCephEntityAddr + sizeofCephTimespec)
  let mds ← fetch32 region
  let _inc ← fetch32 region
  let state ← fetch32 region
  let _stateSeq ← fetch64 region
  let addr ← fetch region sizeofCephEntityAddr
  let tvSec ← fetch32 region
  let tvNsec ← fetch32 region
  skip 4
  let namelen ← needFetch32 region
  skip namelen.toNat
  let numExportTargets ← if infoversion ≥ 2 then needFetch32 region else pure 0
  let here ← get
  skip (numExportTargets.toNat * 4)
  if mds.toInt32 < 0 ∨ mds ≥ here.data.map.maxMds ∨ state.toInt32 ≤ 0 then pure ⟨⟩
  else do
    update fun m => { m with
      info := m.info.map fun info => (info.1, info.2.modify mds.toNat fun i => { i with
        globalId, numExportTargets
        state := state.toInt32
        addr := Osdmap.cephDecodeAddr addr
        laggy := tvSec ≠ 0 ∨ tvNsec ≠ 0 }) }
    note (.targets numExportTargets (region.finish - here.pos))
    storeTargets region mds.toNat numExportTargets here.pos

def decodeHead : MdsDecoder PUnit := do
  need region (-einval) 2
  let version ← fetch16 region
  if version > 3 then fail (-einval)
  else do
    need region (-einval) (8 * 4 + 8)
    let epoch ← fetch32 region
    update fun m => { m with epoch }
    let clientEpoch ← fetch32 region
    let lastFailure ← fetch32 region
    let root ← fetch32 region
    let sessionTimeout ← fetch32 region
    let sessionAutoclose ← fetch32 region
    let maxFileSize ← fetch64 region
    let maxMds ← fetch32 region
    update fun m => { m with
      clientEpoch, lastFailure, root, sessionTimeout, sessionAutoclose, maxFileSize, maxMds }

def decodeInfos : MdsDecoder PUnit := do
  let state ← get
  let block ← kcalloc state.data.map.maxMds.toNat sizeofCephMdsInfo
  update fun m => { m with info := some (block, List.replicate m.maxMds.toNat .blank) }
  let n ← fetch32 region
  times n.toInt32.toInt.toNat (decodeInfo region)

def decodePools : MdsDecoder PUnit := do
  let n ← needFetch32 region
  let n := n.toInt32
  update fun m => { m with numDataPgPools := n }
  let block ← kcalloc n.toInt 8
  update fun m => { m with dataPgPools := some (block, List.replicate n.toInt.toNat 0) }
  need region (-einval) (Crush.sizeOfInt (n + 1).toUInt32 * 8 % 2 ^ 64)
  let pools ← gather n.toInt.toNat (fetch64 region)
  update fun m => { m with dataPgPools := some (block, pools) }
  let casPgPool ← fetch64 region
  update fun m => { m with casPgPool }

/-- `ceph_mdsmap_destroy`, of a map in this memory. -/
def cephMdsmapDestroy (self : Nat) : MdsDecoder PUnit := do
  let state ← get
  match state.data.map.info with
  | none => if state.data.map.maxMds ≠ 0 then throw (.damage .read)
  | some (block, infos) => do
    modify fun state => { state with
      data := infos.foldl (fun memory info => (info.exportTargets.map (·.1)).elim memory memory.free) state.data }
    modify fun state => { state with data := state.data.free block }
  modify fun state => { state with data := (state.data.map.dataPgPools.map (·.1)).elim state.data state.data.free }
  modify fun state => { state with data := state.data.free self }

def cephMdsmapDecode : MdsDecoder MdsMap := do
  let self ← kcalloc 1 sizeofCephMdsmap
  let result ← attempt do
    decodeHead region
    decodeInfos region
    decodePools region
  match result with
  | .ok _ => do
    let state ← get
    pure state.data.map
  | .error code => do
    cephMdsmapDestroy self
    fail code

end

end KmodCeph.Mdsmap
