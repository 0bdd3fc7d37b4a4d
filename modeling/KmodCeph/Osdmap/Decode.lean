import KmodCeph.Crush.Decode
import KmodCeph.Lib.Journal
import KmodCeph.Osdmap.Updates

namespace KmodCeph.Osdmap

open Lib

/-- What the decoder did or met: an update, the fields of a pool with what is left
of the message, an entry of `new_state` with the room for its byte, an osd that
must be in the map, whether a full map names a placement group for the first
time, and the epoch of an incremental with the one that must come. -/
inductive MapNote where
  | update (change : Update)
  | pool (ev : UInt8) (rest : List UInt8)
  | state (room : Int)
  | osd (osd maxOsd : UInt32)
  | temp (first : Bool)
  | epoch (epoch next : UInt32)

def MapNote.apply (balancings : Balancings) : MapNote → TreeMap → TreeMap
  | .update change, map => change.apply balancings map
  | _, map => map

def MapNote.isUpdate : MapNote → Bool
  | .update _ => true
  | _ => false

abbrev MapDecoder (α : Type) := Decode MapNote TreeMap α

def cephEntityAddrFamily : Nat := 8
def sizeofCephOsdmap : Nat := 352
def sizeofCephPgPoolInfo : Nat := 88
def sizeofCephPgMapping : Nat := 48
def sizeofCephFsid : Nat := 16
def sizeofCephTimespec : Nat := 8

section

variable (balancings : Balancings) (region : Region)

def record (change : Update) : MapDecoder PUnit := commit (MapNote.apply balancings) (.update change)

def onlyIf (condition : Bool) (program : MapDecoder PUnit) : MapDecoder PUnit :=
  if condition then program else pure ⟨⟩

/-- `ceph_decode_addr`: the family is big-endian on the wire. -/
def cephDecodeAddr (addr : List UInt8) : List UInt8 :=
  addr.take cephEntityAddrFamily ++ ((addr.drop cephEntityAddrFamily).take 2).reverse ++
    addr.drop (cephEntityAddrFamily + 2)

def needFetch8 : MapDecoder UInt8 := do
  need region (-einval) 1
  fetch8 region

def needFetch32 : MapDecoder UInt32 := do
  need region (-einval) 4
  fetch32 region

def needFetch64 : MapDecoder UInt64 := do
  need region (-einval) 8
  fetch64 region

def cephDecodePgid : MapDecoder Pg := do
  need region (-einval) 17
  let version ← fetch8 region
  if version > 1 then fail (-einval)
  else do
    let pool ← fetch64 region
    let seed ← fetch32 region
    skip 4
    pure { pool, seed }

def getOsdmapClientDataV : MapDecoder UInt8 := do
  let structV ← needFetch8 region
  if structV ≥ 7 then do
    let structCompat ← needFetch8 region
    if structCompat > 7 then fail (-einval)
    else do
      skip 4
      let structV ← needFetch8 region
      let structCompat ← needFetch8 region
      if structCompat > 1 then fail (-einval)
      else do
        skip 4
        pure structV
  else do
    skip (-1)
    need region (-einval) 2
    let version ← fetch16 region
    if version < 6 then fail (-einval) else pure 0

def skipSnap : MapDecoder PUnit := do
  skip 8
  skip 2
  let len ← fetch32 region
  skip len.toNat

/-- The tiers of a pool: the one to read from and the one to write to. -/
def decodeTiers (ev : UInt8) : MapDecoder (UInt64 × UInt64) :=
  if ev ≥ 9 then do
    let num ← fetch32 region
    skip (num * 8).toNat
    skip 8
    skip 1
    let readTier ← fetch64 region
    let writeTier ← fetch64 region
    pure (readTier, writeTier)
  else pure (-1, -1)

/-- The fields of a pool. Nothing is checked here. -/
def decodePoolFields (ev : UInt8) (pi : PgPoolInfo) : MapDecoder PgPoolInfo := do
  let type ← fetch8 region
  let size ← fetch8 region
  let crushRuleset ← fetch8 region
  let objectHash ← fetch8 region
  let pgNum ← fetch32 region
  let pgpNum ← fetch32 region
  skip 8
  skip 4
  skip 12
  let num ← fetch32 region
  times num.toNat (skipSnap region)
  let num ← fetch32 region
  skip (num * 16).toNat
  skip 8
  let flags ← fetch64 region
  skip 4
  skip (if ev ≥ 7 then 1 else 0)
  skip (if ev ≥ 8 then 16 else 0)
  let tiers ← decodeTiers region ev
  pure { pi with
    type, size, crushRuleset, objectHash, pgNum, pgpNum, flags
    readTier := tiers.1
    writeTier := tiers.2 }

/-- `decode_pool`. Its errors come before anything is stored. -/
def decodePool (pi : PgPoolInfo) : MapDecoder PUnit := do
  need region (-einval) 6
  let ev ← fetch8 region
  let cv ← fetch8 region
  if ev < 5 then fail (-einval)
  else if cv > 9 then fail (-einval)
  else do
    let len ← fetch32 region
    need region (-einval) len.toNat
    let state ← get
    note (.pool ev (region.memory.drop state.pos.toNat))
    let pi ← decodePoolFields region ev pi
    jump (state.pos + len.toNat)
    record balancings (.pool (calcPgMasks pi))

def decodePoolName : MapDecoder PUnit := do
  let pool ← needFetch64 region
  let len ← needFetch32 region
  need region (-einval) len.toNat
  let state ← get
  match findPgPool state.data.pgPools pool with
  | none => skip len.toNat
  | some pi => do
    let bytes ← fetch region len.toNat
    let name := bytes.takeWhile (· ≠ 0)
    allocate (-enomem) (name.length + 1)
    record balancings (.poolName pi.id name)

def decodePoolNames : MapDecoder PUnit := do
  let num ← needFetch32 region
  times num.toNat (decodePoolName balancings region)

def resizeAffinity (max : UInt32) : MapDecoder PUnit := do
  let state ← get
  onlyIf state.data.osdPrimaryAffinity.isSome do
    allocate (-enomem) (Crush.sizeOfInt max * 4 % 2 ^ 64)
    record balancings (.resizeAffinity max)

def osdmapSetMaxOsd (max : UInt32) : MapDecoder PUnit := do
  allocate (-enomem) (Crush.sizeOfInt max)
  record balancings (.resizeState max)
  allocate (-enomem) (Crush.sizeOfInt max * 4 % 2 ^ 64)
  record balancings (.resizeWeight max)
  allocate (-enomem) (Crush.sizeOfInt max * sizeofCephEntityAddr % 2 ^ 64)
  record balancings (.resizeAddr max)
  resizeAffinity balancings max
  record balancings (.maxOsd max)

def addPool (id : UInt64) : MapDecoder PgPoolInfo := do
  allocate (-enomem) sizeofCephPgPoolInfo
  let state ← get
  match insertPgPool (.blank id) state.data.pgPools with
  | none => fail (-eexist)
  | some _ => do
    record balancings (.insertPool id)
    pure (.blank id)

def decodeOnePool (incremental : Bool) : MapDecoder PUnit := do
  let pool ← needFetch64 region
  let state ← get
  match findPgPool state.data.pgPools pool with
  | none => do
    let pi ← addPool balancings pool
    decodePool balancings region pi
  | some pi =>
    if incremental then decodePool balancings region pi
    else do
      let pi ← addPool balancings pool
      decodePool balancings region pi

def decodePools (incremental : Bool) : MapDecoder PUnit := do
  let n ← needFetch32 region
  times n.toNat (decodeOnePool balancings region incremental)

def fetchOsd : MapDecoder Int := do
  let value ← fetch32 region
  pure value.toInt32.toInt

def decodeOneTemp (incremental : Bool) : MapDecoder PUnit := do
  let pgid ← cephDecodePgid region
  let len ← needFetch32 region
  let state ← get
  let known := (findPgMapping state.data.pgTemp pgid).isSome
  note (.temp (incremental || !known))
  record balancings (.removeTemp pgid)
  if !incremental && known then bug
  else if !incremental || len > 0 then do
    need region (-einval) (len.toNat * 4)
    if len.toNat > (2 ^ 32 - 1 - sizeofCephPgMapping) / 4 then fail (-einval)
    else do
      allocate (-enomem) (sizeofCephPgMapping + len.toNat * 4)
      let osds ← gather len.toNat (fetchOsd region)
      let state ← get
      match insertPgMapping state.data.pgTemp (pgid, osds) with
      | none => fail (-eexist)
      | some _ => record balancings (.insertTemp pgid osds)
  else pure ⟨⟩

def decodePgTemp (incremental : Bool) : MapDecoder PUnit := do
  let n ← needFetch32 region
  times n.toNat (decodeOneTemp balancings region incremental)

def decodeOnePrimary (incremental : Bool) : MapDecoder PUnit := do
  let pgid ← cephDecodePgid region
  let osd ← needFetch32 region
  let state ← get
  let known := (findPgMapping state.data.primaryTemp pgid).isSome
  note (.temp (incremental || !known))
  record balancings (.removePrimary pgid)
  if !incremental && known then bug
  else if !incremental || osd ≠ -1 then do
    allocate (-enomem) sizeofCephPgMapping
    let state ← get
    match insertPgMapping state.data.primaryTemp (pgid, osd.toInt32.toInt) with
    | none => fail (-eexist)
    | some _ => record balancings (.insertPrimary pgid osd.toInt32.toInt)
  else pure ⟨⟩

def decodePrimaryTemp (incremental : Bool) : MapDecoder PUnit := do
  let n ← needFetch32 region
  times n.toNat (decodeOnePrimary balancings region incremental)

def createAffinity : MapDecoder PUnit := do
  let state ← get
  onlyIf state.data.osdPrimaryAffinity.isNone do
    allocate (-enomem) (state.data.maxOsd.toNat * 4)
    record balancings .defaultAffinity

def setPrimaryAffinity (osd aff : UInt32) : MapDecoder PUnit := do
  let state ← get
  note (.osd osd state.data.maxOsd)
  if osd ≥ state.data.maxOsd then bug
  else do
    createAffinity balancings
    record balancings (.affinity osd aff)

def decodeAffinities : Nat → UInt32 → MapDecoder PUnit
  | 0, _ => pure ⟨⟩
  | count + 1, i => do
    let aff ← fetch32 region
    setPrimaryAffinity balancings i aff
    decodeAffinities count (i + 1)

def decodePrimaryAffinity : MapDecoder PUnit := do
  let len ← needFetch32 region
  if len = 0 then record balancings .noAffinity
  else do
    let state ← get
    if len ≠ state.data.maxOsd then fail (-einval)
    else do
      need region (-einval) (state.data.maxOsd.toNat * 4)
      decodeAffinities balancings region state.data.maxOsd.toNat 0

def decodeOneAffinity : MapDecoder PUnit := do
  let osd ← needFetch32 region
  let aff ← needFetch32 region
  setPrimaryAffinity balancings osd aff

def decodeNewPrimaryAffinity : MapDecoder PUnit := do
  let n ← needFetch32 region
  times n.toNat (decodeOneAffinity balancings region)

/-- An array of the map starts with the number of its elements. -/
def checkMaxOsd : MapDecoder PUnit := do
  let len ← fetch32 region
  let state ← get
  if len ≠ state.data.maxOsd then fail (-einval) else pure ⟨⟩

def decodeOsds : MapDecoder PUnit := do
  let state ← get
  let maxOsd := state.data.maxOsd.toNat
  need region (-einval) (12 + maxOsd * (1 + 4 + sizeofCephEntityAddr))
  checkMaxOsd region
  let states ← fetch region maxOsd
  record balancings (.states states)
  checkMaxOsd region
  let weights ← gather maxOsd (fetch32 region)
  record balancings (.weights weights)
  checkMaxOsd region
  let addrs ← gather maxOsd (fetch region sizeofCephEntityAddr)
  record balancings (.addrs (addrs.map cephDecodeAddr))

/-- `crush_decode` of the next so many bytes; the position stays. -/
def crushAt (len : Int) : MapDecoder (Option Crush.CrushMap) := do
  let state ← get
  let result ← nested (Crush.crushDecode { region with finish := min (state.pos + len) region.finish })
    (-einval) (fun _ => []) fun _ => .nested
  pure result.1

def decodeCrush : MapDecoder PUnit := do
  let len ← needFetch32 region
  let crush ← crushAt region len.toNat
  skip len.toNat
  match crush with
  | none => pure ⟨⟩
  | some crush => record balancings (.crush crush)

def decodeHeader : MapDecoder PUnit := do
  need region (-einval) (sizeofCephFsid + 4 + sizeofCephTimespec + sizeofCephTimespec)
  let fsid ← fetch region sizeofCephFsid
  let epoch ← fetch32 region
  let created ← fetch region sizeofCephTimespec
  let modified ← fetch region sizeofCephTimespec
  record balancings (.header fsid epoch created modified)

def decodeMaxOsd : MapDecoder PUnit := do
  let poolMax ← needFetch32 region
  record balancings (.poolMax poolMax)
  let flags ← needFetch32 region
  record balancings (.flags flags)
  let max ← needFetch32 region
  osdmapSetMaxOsd balancings max
  decodeOsds balancings region

/-- The mappings of a full map, as far as its version has them. -/
def decodeMappings (structV : UInt8) : MapDecoder PUnit := do
  decodePgTemp balancings region false
  onlyIf (structV ≥ 1) (decodePrimaryTemp balancings region false)
  if structV ≥ 2 then decodePrimaryAffinity balancings region else record balancings .noAffinity

def osdmapDecode : MapDecoder PUnit := do
  let structV ← getOsdmapClientDataV region
  decodeHeader balancings region
  decodePools balancings region false
  decodePoolNames balancings region
  decodeMaxOsd balancings region
  decodeMappings balancings region structV
  decodeCrush balancings region
  jump region.finish

/-- `ceph_osdmap_decode`, on a map of its own. -/
def cephOsdmapDecode : MapDecoder PUnit := do
  allocate (-enomem) sizeofCephOsdmap
  osdmapDecode balancings region

def decodeNewCrush : MapDecoder (Option Crush.CrushMap) := do
  let len ← needFetch32 region
  if len.toInt32.toInt > 0 then do
    let crush ← crushAt region len.toInt32.toInt
    skip len.toInt32.toInt
    pure crush
  else pure none

/-- The flags, the number of pools and the number of osds that are new. -/
def decodeNewSizes (newPoolMax : UInt64) (newFlags : UInt32) : MapDecoder PUnit := do
  onlyIf (newFlags.toInt32.toInt ≥ 0) (record balancings (.flags newFlags))
  onlyIf (newPoolMax.toInt64.toInt ≥ 0) (record balancings (.poolMax newPoolMax.toUInt32))
  let max ← needFetch32 region
  onlyIf (max.toInt32.toInt ≥ 0) (osdmapSetMaxOsd balancings max)

def decodeOldPool : MapDecoder PUnit := do
  let pool ← needFetch64 region
  let state ← get
  match findPgPool state.data.pgPools pool with
  | none => pure ⟨⟩
  | some pi => record balancings (.removePool pi)

def decodeNewUp : MapDecoder PUnit := do
  let osd ← needFetch32 region
  need region (-einval) sizeofCephEntityAddr
  let addr ← fetch region sizeofCephEntityAddr
  let state ← get
  note (.osd osd state.data.maxOsd)
  if osd ≥ state.data.maxOsd then bug else record balancings (.up osd (cephDecodeAddr addr))

def decodeNewState : MapDecoder PUnit := do
  let osd ← needFetch32 region
  let state ← get
  note (.state (region.finish - state.pos))
  let xorstate ← fetch8 region
  let xorstate := if xorstate = 0 then cephOsdUpFlag else xorstate
  onlyIf (osd < state.data.maxOsd) (record balancings (.xorState osd xorstate))

def decodeNewWeight : MapDecoder PUnit := do
  need region (-einval) 8
  let osd ← fetch32 region
  let off ← fetch32 region
  let state ← get
  onlyIf (osd < state.data.maxOsd) (record balancings (.weight osd off))

def decodeSection (entry : MapDecoder PUnit) : MapDecoder PUnit := do
  let len ← needFetch32 region
  times len.toNat entry

def decodeNewMappings (structV : UInt8) : MapDecoder PUnit := do
  decodePgTemp balancings region true
  onlyIf (structV ≥ 1) (decodePrimaryTemp balancings region true)
  onlyIf (structV ≥ 2) (decodeNewPrimaryAffinity balancings region)

def advance (modified : List UInt8) (newcrush : Option Crush.CrushMap) : MapDecoder PUnit := do
  record balancings (.advance modified)
  match newcrush with
  | none => pure ⟨⟩
  | some crush => record balancings (.crush crush)

def applySections (structV : UInt8) (modified : List UInt8) (newPoolMax : UInt64) (newFlags : UInt32) :
    MapDecoder PUnit := do
  let newcrush ← decodeNewCrush region
  decodeNewSizes balancings region newPoolMax newFlags
  advance balancings modified newcrush
  decodePools balancings region true
  decodePoolNames balancings region
  decodeSection region (decodeOldPool balancings region)
  decodeSection region (decodeNewUp balancings region)
  decodeSection region (decodeNewState balancings region)
  decodeSection region (decodeNewWeight balancings region)
  decodeNewMappings balancings region structV
  jump region.finish

def embeddedMap (len : Int) : MapDecoder TreeMap := do
  let state ← get
  let result ← nested (cephOsdmapDecode balancings { region with finish := min (state.pos + len) region.finish })
    .blank (·.filter (! ·.isUpdate)) id
  pure result.2

/-- `osdmap_apply_incremental`. The result is a map that takes the place of the
old one, if there is one. -/
def osdmapApplyIncremental : MapDecoder (Option TreeMap) := do
  let structV ← getOsdmapClientDataV region
  need region (-einval) (sizeofCephFsid + 4 + sizeofCephTimespec + 8 + 4)
  let _ ← fetch region sizeofCephFsid
  let epoch ← fetch32 region
  let state ← get
  note (.epoch epoch (state.data.epoch + 1))
  if epoch ≠ state.data.epoch + 1 then bug
  else do
    let modified ← fetch region sizeofCephTimespec
    let newPoolMax ← fetch64 region
    let newFlags ← fetch32 region
    let len ← needFetch32 region
    if len.toInt32.toInt > 0 then do
      let map ← embeddedMap balancings region len.toInt32.toInt
      pure (some map)
    else do
      applySections balancings region structV modified newPoolMax newFlags
      pure none

end

def mapStart (pos : Int) (allocs : List Bool) (map : TreeMap) : Reading MapNote TreeMap :=
  { pos, allocs, trail := [], data := map }

end KmodCeph.Osdmap
