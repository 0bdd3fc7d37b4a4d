import KmodCeph.Xattr.Names
import KmodCeph.Lib.Bytes
import KmodCeph.Lib.Reached

namespace KmodCeph.Xattr

open Lib

@[ext] structure Xattr where
  name : List UInt8
  val : List UInt8
deriving DecidableEq

/-- `struct ceph_inode_xattrs_info`, with the `alloc_len` of the preallocated blob. `snap` is whether the
inode is one of a snapshot and `excl` whether `CEPH_CAP_XATTR_EXCL` is issued. -/
structure XattrInode where
  snap : Bool
  excl : Bool
  blob : Option (List UInt8)
  preallocBlob : Option Nat
  index : BinaryTree Xattr
  dirty : Bool
  count : Int
  namesSize : Int
  valsSize : Int
  version : Nat
  indexVersion : Nat
deriving DecidableEq

inductive XattrBug where
  | small
  | noBuffer
  | retries
deriving DecidableEq

structure XattrFlags where
  create : Bool
  replace : Bool

/-- What the allocations of a call give: the copies of its arguments, the allocation of `__build_xattrs`
that fails in each pass, if one does, and the blob of each pass. -/
structure Memory where
  copies : Bool
  loads : Nat → Option Nat
  buffers : Nat → Bool

def kmallocLimit : Nat := 2 ^ 28

def sizeT (value : Int) : Nat := (value % 2 ^ 64).toNat

structure Entry where
  name : Nat
  nameLen : Nat
  val : Nat
  valLen : Nat

def decode32 (blob : List UInt8) (pos : Nat) : Option (Nat × Nat) :=
  if pos ≤ blob.length ∧ 4 ≤ blob.length - pos then some (leValue ((blob.drop pos).take 4), pos + 4)
  else none

/-- One pass of the decoding loop. What follows a name or a value may begin anywhere. -/
def decodeEntry (blob : List UInt8) (pos : Nat) : Option (Entry × Nat) :=
  match decode32 blob pos with
  | none => none
  | some (nameLen, name) =>
    match decode32 blob (name + nameLen) with
    | none => none
    | some (valLen, val) => some (⟨name, nameLen, val, valLen⟩, val + valLen)

/-- The attribute at an entry. What is outside of the blob is not known. -/
def Entry.xattr (blob : List UInt8) (entry : Entry) : Xattr where
  name := (blob.drop entry.name).take entry.nameLen
  val := (blob.drop entry.val).take entry.valLen

def encodeXattr (xattr : Xattr) : List UInt8 :=
  leBytes 4 xattr.name.length ++ xattr.name ++ leBytes 4 xattr.val.length ++ xattr.val

namespace XattrInode

variable (balancing : Balancing Xattr)

def removeXattr (ci : XattrInode) : Option Xattr → Int × XattrInode
  | none => (-61, ci)
  | some xattr => (0, { ci with
      index := balancing.erase ci.index xattr
      namesSize := ci.namesSize - xattr.name.length
      valsSize := ci.valsSize - xattr.val.length
      count := ci.count - 1 })

def setXattr (name val : List UInt8) (flags : XattrFlags) (updateXattr : Int) (ci : XattrInode) : Int × XattrInode :=
  let compare := fun xattr : Xattr => compareSet name xattr.name
  let xattr := searchBy compare ci.index
  if updateXattr ≠ 0 ∧ xattr.isSome ∧ flags.create then (-17, ci)
  else if updateXattr ≠ 0 ∧ xattr.isNone ∧ flags.replace then (-61, ci)
  else if updateXattr < 0 then
    match xattr with
    | none => (0, ci)
    | some xattr => (0, (ci.removeXattr balancing (some xattr)).2)
  else
    let index := upsertBy compare (fun old => { old with val := val }) ⟨name, val⟩ ci.index
    match xattr with
    | none => (0, { ci with
        index := balancing.balance index
        count := ci.count + 1
        namesSize := ci.namesSize + name.length
        valsSize := ci.valsSize + val.length })
    | some old => (0, { ci with
        index := index
        namesSize := ci.namesSize - old.name.length + name.length
        valsSize := ci.valsSize - old.val.length + val.length })

def getXattr (ci : XattrInode) (name : CString) : Option Xattr :=
  searchBy (fun xattr => compareGet name.bytes xattr.name) ci.index

def removeXattrByName (name : CString) (ci : XattrInode) : Int × XattrInode :=
  ci.removeXattr balancing (ci.getXattr name)

def destroyXattrs (ci : XattrInode) : XattrInode :=
  { ci with
    index := .nil
    namesSize := 0
    valsSize := 0
    indexVersion := 0
    count := 0 }

def decodeXattrs (blob : List UInt8) : Nat → Nat → Int → XattrInode → Int × XattrInode
  | 0, _, err, ci => (err, { ci with
      indexVersion := ci.version
      dirty := false })
  | numattr + 1, pos, err, ci =>
    match decodeEntry blob pos with
    | none => (err, { ci with namesSize := 0 })
    | some (entry, pos) =>
      match ci.setXattr balancing (entry.xattr blob).name (entry.xattr blob).val ⟨false, false⟩ 0 with
      | (err, ci) =>
        if err < 0 then (err, { ci with namesSize := 0 })
        else decodeXattrs blob numattr pos err ci

/-- `__build_xattrs`; `failing` is the allocation that fails, where 0 is the array. -/
def buildXattrs (failing : Option Nat) (ci : XattrInode) : Int × XattrInode :=
  if ci.indexVersion ≥ ci.version then (0, ci)
  else
    match ci.blob with
    | none => (0, { ci.destroyXattrs with
        indexVersion := ci.version
        dirty := false })
    | some blob =>
      if blob.length ≤ 4 then (0, { ci.destroyXattrs with
        indexVersion := ci.version
        dirty := false })
      else
        let numattr := leValue (blob.take 4)
        if failing.any fun index => index ≤ numattr then (-12, ci.destroyXattrs)
        else ci.destroyXattrs.decodeXattrs balancing blob numattr 4 (-5)

def getRequiredBlobSize (ci : XattrInode) (nameSize valSize : Nat) : Int :=
  let size := 4 + ci.count * (4 + 4) + ci.namesSize + ci.valsSize
  Int.bmod (if nameSize ≠ 0 then size + 4 + 4 + nameSize + valSize else size) (2 ^ 32)

def buildXattrsBlob (ci : XattrInode) : Except XattrBug XattrInode :=
  if ci.dirty = false then .ok ci
  else
    match ci.preallocBlob with
    | none => .error .noBuffer
    | some allocLen => do
      haltIf (sizeT (ci.getRequiredBlobSize 0 0) > allocLen) .small
      return { ci with
        blob := some (leBytes 4 (ci.count % 2 ^ 32).toNat ++ (inorder ci.index).flatMap encodeXattr)
        preallocBlob := none
        dirty := false
        version := ci.version + 1 }

def withPrealloc (ci : XattrInode) (allocLen : Nat) : XattrInode := { ci with preallocBlob := some allocLen }

/-- Load the attributes and have a blob for one more, in at most so many passes. -/
def prepare (memory : Memory) (nameSize valSize : Nat) : Nat → Nat → XattrInode → Except XattrBug (Bool × XattrInode)
  | 0, _, _ => .error .retries
  | bound + 1, pass, ci =>
    let ci := (ci.buildXattrs balancing (memory.loads pass)).2
    let required := sizeT (ci.getRequiredBlobSize nameSize valSize)
    if ci.preallocBlob.any fun allocLen => required ≤ allocLen then .ok (true, ci)
    else if memory.buffers pass ∧ required < 2 ^ 63 then
      prepare memory nameSize valSize bound (pass + 1) (ci.withPrealloc required)
    else .ok (false, ci)

end XattrInode

inductive XattrOutcome where
  | done (err : Int)
  | sync
deriving DecidableEq

namespace XattrInode

variable (balancing : Balancing Xattr)

/-- What `ceph_setxattr` and `ceph_removexattr` refuse or pass on, with whether the name is that of a virtual
attribute that is read-only. -/
def unchanged (ci : XattrInode) (name : CString) (readonly : Bool) : Option XattrOutcome :=
  if ci.snap then some (.done (-30))
  else if cephIsValidXattr name.bytes = false then some (.done (-95))
  else if readonly then some (.done (-95))
  else if startsWith name.bytes cephPrefix then some .sync
  else none

/-- `ceph_setxattr`; a value of NULL is none. -/
def cephSetxattr (name : CString) (value : Option (List UInt8)) (flags : XattrFlags) (readonly : Bool) (memory : Memory)
    (ci : XattrInode) : Except XattrBug (XattrOutcome × XattrInode) :=
  let val := value.getD []
  match ci.unchanged name readonly with
  | some outcome => .ok (outcome, ci)
  | none =>
    if memory.copies = false ∨ kmallocLimit < name.bytes.length + 1 ∨ kmallocLimit < val.length then .ok (.done (-12), ci)
    else if ci.version = 0 ∨ ci.excl = false then .ok (.sync, ci)
    else do
      match ← ci.prepare balancing memory name.bytes.length val.length 3 0 with
      | (false, ci) => .ok (.done (-12), ci)
      | (true, ci) =>
        match ci.setXattr balancing name.bytes val flags (if value.isSome then 1 else -1) with
        | (err, ci) => .ok (.done err, { ci with dirty := ci.dirty || err = 0 })

def cephRemovexattr (name : CString) (readonly : Bool) (memory : Memory) (ci : XattrInode) :
    Except XattrBug (XattrOutcome × XattrInode) :=
  match ci.unchanged name readonly with
  | some outcome => .ok (outcome, ci)
  | none =>
    if ci.version = 0 ∨ ci.excl = false then .ok (.sync, ci)
    else do
      match ← ci.prepare balancing memory 0 0 3 0 with
      | (false, ci) => .ok (.done (-12), ci)
      | (true, ci) =>
        match ci.removeXattrByName balancing name with
        | (err, ci) => .ok (.done err, { ci with dirty := true })

end XattrInode

end KmodCeph.Xattr
