import KmodCeph.Xattr.Codec

namespace KmodCeph.Xattr

open Lib

/-- Where the pointers of an indexed attribute stand, with the lengths as `int`. -/
structure XattrRange where
  name : Nat
  nameLen : Int
  val : Nat
  valLen : Int
deriving DecidableEq

/-- The index of the attributes as places in the blob. -/
structure RangeInode where
  blob : Option (List UInt8)
  index : BinaryTree XattrRange
  dirty : Bool
  count : Int
  namesSize : Int
  valsSize : Int
  version : Nat
  indexVersion : Nat

def Entry.range (entry : Entry) : XattrRange where
  name := entry.name
  nameLen := Int.bmod entry.nameLen (2 ^ 32)
  val := entry.val
  valLen := Int.bmod entry.valLen (2 ^ 32)

namespace RangeInode

def destroyXattrs (ci : RangeInode) : RangeInode :=
  { ci with
    index := .nil
    namesSize := 0
    valsSize := 0
    indexVersion := 0
    count := 0 }

/-- A blob from an MDS is taken with its version if that is later. -/
def receive (ci : RangeInode) : Option (Option (List UInt8) × Nat) → RangeInode
  | none => ci
  | some (blob, version) =>
    if version > ci.version then
      { ci with
        blob := blob
        version := version }
    else ci

def built (ci : RangeInode) : RangeInode :=
  { ci with
    indexVersion := ci.version
    dirty := false }

variable (balancing : Balancing XattrRange)

variable (kmallocMax : Nat)

end RangeInode

/-- A name and a value inside a blob. -/
def XattrRange.Inside (blob : List UInt8) (range : XattrRange) : Prop :=
  0 ≤ range.nameLen ∧ range.name + range.nameLen ≤ blob.length ∧ 0 ≤ range.valLen ∧ range.val + range.valLen ≤ blob.length

section

variable {balancing : Balancing XattrRange} {blob : List UInt8} {entry : Entry} {pos next numattr : Nat} {ci : RangeInode}
variable {range : XattrRange}

end

section

variable {balancing : Balancing XattrRange} {blob : List UInt8} {pos numattr kmallocMax : Nat} {ci after : RangeInode}
variable {passes : List LoadPass} {err err' : Int}

end

end KmodCeph.Xattr
