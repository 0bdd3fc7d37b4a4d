import KmodCeph.Basic
import KmodCeph.Crush.Rule

namespace KmodCeph.Osdmap

open Lib

structure Pg where
  pool : UInt64
  seed : UInt32
deriving DecidableEq

structure PgPoolInfo where
  id : UInt64
  type : UInt8
  size : UInt8
  crushRuleset : UInt8
  objectHash : UInt8
  pgNum : UInt32
  pgpNum : UInt32
  pgNumMask : UInt32
  pgpNumMask : UInt32
  readTier : UInt64
  writeTier : UInt64
  flags : UInt64
  name : Option (List UInt8)
deriving DecidableEq

/-- `struct ceph_osdmap`. The scratch space and the permutations that CRUSH
caches are no part of the map. -/
structure OsdMap where
  fsid : List UInt8
  epoch : UInt32
  created : List UInt8
  modified : List UInt8
  flags : UInt32
  maxOsd : UInt32
  osdState : List UInt8
  osdWeight : List UInt32
  osdAddr : List (List UInt8)
  pgTemp : List (Pg × List Int)
  primaryTemp : List (Pg × Int)
  osdPrimaryAffinity : Option (List UInt32)
  pgPools : List PgPoolInfo
  poolMax : UInt32
  crush : Crush.CrushMap

inductive Fault where
  | crush (fault : Crush.Fault)
  | outOfBounds
  | bug
deriving DecidableEq

def lookupPgPool (pools : List PgPoolInfo) (id : UInt64) : Option PgPoolInfo :=
  pools.find? (·.id = id)

def lookupPgMapping {α : Type} (mappings : List (Pg × α)) (pgid : Pg) : Option α :=
  (mappings.find? (·.1 = pgid)).map (·.2)

def cephOsdExistsFlag : UInt8 := 1
def cephOsdUpFlag : UInt8 := 2

def cephOsdIsUp (map : OsdMap) (osd : Int) : Except Fault Bool :=
  if 0 ≤ osd ∧ osd < map.maxOsd.toNat then do
    let state ← readAt .outOfBounds map.osdState osd.toNat
    .ok (state &&& cephOsdExistsFlag ≠ 0 ∧ state &&& cephOsdUpFlag ≠ 0)
  else .ok false

def cephOsdIsDown (map : OsdMap) (osd : Int) : Except Fault Bool :=
  (cephOsdIsUp map osd).map (! ·)

end KmodCeph.Osdmap
