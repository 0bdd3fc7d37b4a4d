import KmodCeph.Osdmap.Placement
import KmodCeph.Lib.SearchTree

namespace KmodCeph.Osdmap

open Lib List

/-- The osd map in memory, with its search trees. -/
structure TreeMap where
  fsid : List UInt8
  epoch : UInt32
  created : List UInt8
  modified : List UInt8
  flags : UInt32
  maxOsd : UInt32
  osdState : List UInt8
  osdWeight : List UInt32
  osdAddr : List (List UInt8)
  pgTemp : BinaryTree (Pg × List Int)
  primaryTemp : BinaryTree (Pg × Int)
  osdPrimaryAffinity : Option (List UInt32)
  pgPools : BinaryTree PgPoolInfo
  poolMax : UInt32
  crush : Option Crush.CrushMap
deriving DecidableEq

/-- How the trees are balanced: in any way that keeps their contents and order. -/
structure Balancings where
  temps : Balancing (Pg × List Int)
  primaries : Balancing (Pg × Int)
  pools : Balancing PgPoolInfo

def TreeMap.blank : TreeMap :=
  { fsid := replicate 16 0, epoch := 0, created := replicate 8 0, modified := replicate 8 0
    flags := 0, maxOsd := 0, osdState := [], osdWeight := [], osdAddr := [], pgTemp := .nil, primaryTemp := .nil
    osdPrimaryAffinity := none, pgPools := .nil, poolMax := 0, crush := none }

def pgidCmp (l r : Pg) : Ordering :=
  if l.pool < r.pool then .lt
  else if l.pool > r.pool then .gt
  else if l.seed < r.seed then .lt
  else if l.seed > r.seed then .gt
  else .eq

def Pg.rank (pgid : Pg) : Nat := pgid.pool.toNat * 2 ^ 32 + pgid.seed.toNat

section

variable {α : Type} (root : BinaryTree (Pg × α))

/-- `__insert_pg_mapping` without the balancing; nothing where it returns `-EEXIST`. -/
def insertPgMapping (new : Pg × α) : Option (BinaryTree (Pg × α)) := linkBy (fun pg => pgidCmp new.1 pg.1) new root

def findPgMapping (pgid : Pg) : Option (Pg × α) := searchBy (fun pg => pgidCmp pgid pg.1) root

end

/-- `__insert_pg_pool` without the balancing: it compares what is signed. -/
def insertPgPool (new : PgPoolInfo) (root : BinaryTree PgPoolInfo) : Option (BinaryTree PgPoolInfo) :=
  linkValue (fun pi => pi.id.toInt64.toInt) new root

/-- `__lookup_pg_pool`: it compares what is unsigned. -/
def findPgPool (root : BinaryTree PgPoolInfo) (id : UInt64) : Option PgPoolInfo :=
  findKey (fun pi => pi.id.toNat) id.toNat root

/-- An array that is cut, or whose new elements are set. -/
def resized {α : Type} (max : Nat) (fill : α) (array : List α) : List α :=
  array.take max ++ replicate (max - array.length) fill

def cephOsdOut : UInt32 := 0
def sizeofCephEntityAddr : Nat := 136

/-- The arrays have the elements that `max_osd` counts. The new ones are set
before it counts them. -/
def TreeMap.withMaxOsd (map : TreeMap) (max : UInt32) : TreeMap :=
  { map with
    maxOsd := max
    osdState := resized max.toNat 0 map.osdState
    osdWeight := resized max.toNat cephOsdOut map.osdWeight
    osdAddr := resized max.toNat (replicate sizeofCephEntityAddr 0) map.osdAddr
    osdPrimaryAffinity := map.osdPrimaryAffinity.map (resized max.toNat cephOsdDefaultPrimaryAffinity) }

/-- An update of the map. What an array gains by a `krealloc` is not part of the
map before `max_osd` is stored; what it loses is lost at once. -/
inductive Update where
  | header (fsid : List UInt8) (epoch : UInt32) (created modified : List UInt8)
  | advance (modified : List UInt8)
  | flags (value : UInt32)
  | poolMax (value : UInt32)
  | resizeState (max : UInt32)
  | resizeWeight (max : UInt32)
  | resizeAddr (max : UInt32)
  | resizeAffinity (max : UInt32)
  | maxOsd (max : UInt32)
  | states (values : List UInt8)
  | weights (values : List UInt32)
  | addrs (values : List (List UInt8))
  | up (osd : UInt32) (addr : List UInt8)
  | xorState (osd : UInt32) (xorstate : UInt8)
  | weight (osd off : UInt32)
  | insertTemp (pgid : Pg) (osds : List Int)
  | removeTemp (pgid : Pg)
  | insertPrimary (pgid : Pg) (osd : Int)
  | removePrimary (pgid : Pg)
  | noAffinity
  | defaultAffinity
  | affinity (osd aff : UInt32)
  | insertPool (id : UInt64)
  | pool (value : PgPoolInfo)
  | poolName (id : UInt64) (name : List UInt8)
  | removePool (value : PgPoolInfo)
  | crush (value : Crush.CrushMap)
deriving DecidableEq

def PgPoolInfo.blank (id : UInt64) : PgPoolInfo :=
  { id, type := 0, size := 0, crushRuleset := 0, objectHash := 0, pgNum := 0, pgpNum := 0, pgNumMask := 0
    pgpNumMask := 0, readTier := 0, writeTier := 0, flags := 0, name := none }

def changePool (id : UInt64) (change : PgPoolInfo → PgPoolInfo) (root : BinaryTree PgPoolInfo) :
    BinaryTree PgPoolInfo :=
  root.map fun pi => if pi.id = id then change pi else pi

def eraseMapping {α : Type} [DecidableEq α] (balancing : Balancing (Pg × α)) (pgid : Pg) (root : BinaryTree (Pg × α)) :
    BinaryTree (Pg × α) :=
  match findPgMapping root pgid with
  | none => root
  | some pg => balancing.erase root pg

def linkMapping {α : Type} [DecidableEq α] (balancing : Balancing (Pg × α)) (new : Pg × α) (root : BinaryTree (Pg × α)) :
    BinaryTree (Pg × α) :=
  match insertPgMapping root new with
  | none => root
  | some linked => balancing.balance linked

def linkPool (balancing : Balancing PgPoolInfo) (new : PgPoolInfo) (root : BinaryTree PgPoolInfo) :
    BinaryTree PgPoolInfo :=
  match insertPgPool new root with
  | none => root
  | some linked => balancing.balance linked

def Update.apply (balancings : Balancings) (map : TreeMap) : Update → TreeMap
  | .header fsid epoch created modified => { map with fsid, epoch, created, modified }
  | .advance modified => { map with epoch := map.epoch + 1, modified }
  | .flags value => { map with flags := value }
  | .poolMax value => { map with poolMax := value }
  | .resizeState max => { map with osdState := map.osdState.take max.toNat }
  | .resizeWeight max => { map with osdWeight := map.osdWeight.take max.toNat }
  | .resizeAddr max => { map with osdAddr := map.osdAddr.take max.toNat }
  | .resizeAffinity max => { map with osdPrimaryAffinity := map.osdPrimaryAffinity.map (take max.toNat) }
  | .maxOsd max => map.withMaxOsd max
  | .states values => { map with osdState := values }
  | .weights values => { map with osdWeight := values }
  | .addrs values => { map with osdAddr := values }
  | .up osd addr =>
    { map with
      osdState := map.osdState.modify osd.toNat (· ||| cephOsdUpFlag)
      osdAddr := map.osdAddr.set osd.toNat addr }
  | .xorState osd xorstate => { map with osdState := map.osdState.modify osd.toNat (· ^^^ xorstate) }
  | .weight osd off => { map with osdWeight := map.osdWeight.set osd.toNat off }
  | .insertTemp pgid osds => { map with pgTemp := linkMapping balancings.temps (pgid, osds) map.pgTemp }
  | .removeTemp pgid => { map with pgTemp := eraseMapping balancings.temps pgid map.pgTemp }
  | .insertPrimary pgid osd => { map with primaryTemp := linkMapping balancings.primaries (pgid, osd) map.primaryTemp }
  | .removePrimary pgid => { map with primaryTemp := eraseMapping balancings.primaries pgid map.primaryTemp }
  | .noAffinity => { map with osdPrimaryAffinity := none }
  | .defaultAffinity =>
    { map with osdPrimaryAffinity := some (replicate map.maxOsd.toNat cephOsdDefaultPrimaryAffinity) }
  | .affinity osd aff =>
    { map with osdPrimaryAffinity := map.osdPrimaryAffinity.map fun table => table.set osd.toNat aff }
  | .insertPool id => { map with pgPools := linkPool balancings.pools (.blank id) map.pgPools }
  | .pool value => { map with pgPools := changePool value.id (fun _ => value) map.pgPools }
  | .poolName id name => { map with pgPools := changePool id (fun pi => { pi with name := some name }) map.pgPools }
  | .removePool value => { map with pgPools := balancings.pools.erase map.pgPools value }
  | .crush value => { map with crush := some value }

end KmodCeph.Osdmap
