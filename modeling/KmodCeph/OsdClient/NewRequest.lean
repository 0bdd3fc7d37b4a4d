import KmodCeph.Lib.Reached
import KmodCeph.OsdClient.Client
import KmodCeph.Osdmap.Extents
import KmodCeph.Osdmap.Truncation

namespace KmodCeph.OsdClient

open Lib Osdmap

def cephOsdOpRead : UInt16 := 0x1201
def cephOsdOpWrite : UInt16 := 0x2201
def cephOsdOpTruncate : UInt16 := 0x2203
def cephOsdOpZero : UInt16 := 0x2204
def cephOsdOpDelete : UInt16 := 0x2205
def cephOsdOpStartsync : UInt16 := 0x2207

def extentOps : List UInt16 :=
  [cephOsdOpRead, cephOsdOpWrite, cephOsdOpDelete, cephOsdOpZero, cephOsdOpTruncate]

/-- `struct ceph_osd_req_op` with its `extent`. -/
structure ReqOp where
  op : UInt16
  payloadLen : UInt64
  offset : UInt64
  length : UInt64
  truncateSize : UInt64
  truncateSeq : UInt32
deriving DecidableEq

def ReqOp.blank : ReqOp := ⟨0, 0, 0, 0, 0, 0⟩

structure NewRequest where
  ops : List ReqOp
  flags : UInt32
  pool : Int
  name : List Char

def hexDigits (width : Nat) (value : UInt64) : List Char :=
  let digits := Nat.toDigits 16 value.toNat
  List.replicate (width - digits.length) '0' ++ digits

inductive NewRequestFault where
  | bug

def osdReqOpInit (which : Nat) (opcode : UInt16) (ops : List ReqOp) : Except NewRequestFault (List ReqOp) := do
  haltIf (ops.length ≤ which) .bug
  return ops.set which { ReqOp.blank with op := opcode }

def osdReqOpExtentInit (which : Nat) (opcode : UInt16) (offset length truncateSize : UInt64) (truncateSeq : UInt32)
    (ops : List ReqOp) : Except NewRequestFault (List ReqOp) := do
  haltIf (ops.length ≤ which) .bug
  haltIf (opcode ∉ extentOps) .bug
  return ops.set which
    { op := opcode
      payloadLen := if opcode = cephOsdOpWrite then length else 0
      offset, length, truncateSize, truncateSeq }

def neverTruncated (truncateSeq : UInt32) (truncateSize : UInt64) : Bool :=
  truncateSeq = 1 && truncateSize = -1

def objectTruncateSize (objectSize : UInt32) (objectBase : UInt64) (truncateSeq : UInt32) (truncateSize : UInt64) :
    UInt64 :=
  if neverTruncated truncateSeq truncateSize then truncateSize
  else if truncateSize ≤ objectBase then 0
  else
    let truncateSize := truncateSize - objectBase
    if truncateSize > objectSize.toUInt64 then objectSize.toUInt64 else truncateSize

/-- `ceph_osdc_new_request`, with whether there is memory; what it returns, and what `*plen` is then. -/
def cephOsdcNewRequest (memory : Bool) (layout : FileLayout) (pool : Int) (ino off plen : UInt64) (numOps : Nat)
    (opcode : UInt16) (flags truncateSeq : UInt32) (truncateSize : UInt64) :
    Except NewRequestFault (Except Int NewRequest × UInt64) := do
  haltIf (opcode ∉ extentOps) .bug
  haltIf (numOps > cephOsdMaxOp) .bug
  if memory then
    match calcLayout layout off plen with
    | .error r => return (.error r, plen)
    | .ok (mapping, plen) =>
      let truncateSize := objectTruncateSize layout.objectSize (off - mapping.oxoff) truncateSeq truncateSize
      let ops ← osdReqOpExtentInit 0 opcode mapping.oxoff mapping.oxlen truncateSize truncateSeq
        (List.replicate numOps .blank)
      let ops ← if numOps > 1 then osdReqOpInit 1 cephOsdOpStartsync ops else pure ops
      let name := hexDigits 0 ino ++ '.' :: hexDigits 8 mapping.ono
      return (.ok { ops, flags, pool, name }, plen)
  else return (.error (-enomem), plen)

section

variable {layout : FileLayout} {off plen : UInt64} {truncateSeq : UInt32} {truncateSize : UInt64}

theorem toNat_objectTruncateSize {objectSize : UInt32} {objectBase : UInt64}
    (truncated : neverTruncated truncateSeq truncateSize = false) :
    (objectTruncateSize objectSize objectBase truncateSeq truncateSize).toNat =
      if truncateSize.toNat ≤ objectBase.toNat then 0
      else min (truncateSize.toNat - objectBase.toNat) objectSize.toNat := by
  unfold objectTruncateSize
  rw [truncated, if_neg Bool.false_ne_true]
  by_cases none : truncateSize.toNat ≤ objectBase.toNat
  · rw [if_pos none, if_pos (UInt64.le_iff_toNat_le.mpr none)]
    rfl
  · have less : (truncateSize - objectBase).toNat = truncateSize.toNat - objectBase.toNat :=
      UInt64.toNat_sub_of_le _ _ (UInt64.le_iff_toNat_le.mpr (by omega))
    rw [if_neg none, if_neg (mt UInt64.le_iff_toNat_le.mp none)]
    dsimp only
    split
    next more =>
      rw [gt_iff_lt, UInt64.lt_iff_toNat_lt, less, UInt32.toNat_toUInt64] at more
      rw [UInt32.toNat_toUInt64]
      exact (Nat.min_eq_right more.le).symm
    next short =>
      rw [gt_iff_lt, UInt64.lt_iff_toNat_lt, less, UInt32.toNat_toUInt64] at short
      rw [less]
      exact (Nat.min_eq_left (by omega)).symm

theorem osdReqOpExtentInit_first {opcode : UInt16} {offset length : UInt64} {ops after : List ReqOp}
    (ran : osdReqOpExtentInit 0 opcode offset length truncateSize truncateSeq ops = .ok after) :
    ∃ op, after[0]? = some op ∧ op.truncateSize = truncateSize := by
  obtain ⟨_, some, ran⟩ := ok_of_bind ran
  obtain ⟨_, -, ran⟩ := ok_of_bind ran
  cases ran
  have inside : 0 < ops.length := Nat.lt_of_not_le (not_of_haltIf some)
  exact ⟨_, List.getElem?_set_self inside, rfl⟩

theorem osdReqOpInit_first {opcode : UInt16} {ops after : List ReqOp} (ran : osdReqOpInit 1 opcode ops = .ok after) :
    after[0]? = ops[0]? := by
  obtain ⟨_, -, ran⟩ := ok_of_bind ran
  cases ran
  exact List.getElem?_set_ne Nat.one_ne_zero

end

/-- The size in the op is that of the object, exactly if the size of the file is spared. -/
theorem new_request_truncation (memory : Bool) (layout : FileLayout) (pool : Int) (ino off plen : UInt64) (numOps : Nat)
    (opcode : UInt16) (flags truncateSeq : UInt32) (truncateSize after : UInt64) (request : NewRequest)
    (accepted : layout.Accepted) (whole : layout.stripeUnit.toNat ∣ layout.objectSize.toNat)
    (small : off.toNat < layout.stripeUnit.toNat * 2 ^ 32) (truncated : neverTruncated truncateSeq truncateSize = false)
    (made : cephOsdcNewRequest memory layout pool ino off plen numOps opcode flags truncateSeq truncateSize =
      .ok (.ok request, after)) :
    ∃ op, request.ops[0]? = some op ∧
      (layout.Leading (cephCalcFileObjectMapping layout off plen).ono.toNat truncateSize.toNat op.truncateSize.toNat ↔
        layout.Spares (cephCalcFileObjectMapping layout off plen).ono.toNat truncateSize.toNat off.toNat) := by
  have base := mapping_base accepted small plen
  have place : (off - (cephCalcFileObjectMapping layout off plen).oxoff).toNat =
      off.toNat - (cephCalcFileObjectMapping layout off plen).oxoff.toNat :=
    UInt64.toNat_sub_of_le _ _ (UInt64.le_iff_toNat_le.mpr (by omega))
  unfold cephOsdcNewRequest at made
  obtain ⟨_, -, made⟩ := ok_of_bind made
  obtain ⟨_, -, made⟩ := ok_of_bind made
  split at made
  next =>
    unfold calcLayout at made
    dsimp only at made
    rw [mapping_ret accepted, if_neg (by decide)] at made
    obtain ⟨ops, extent, made⟩ := ok_of_bind made
    obtain ⟨op, first, size⟩ := osdReqOpExtentInit_first extent
    have kept : request.ops[0]? = ops[0]? := by
      split at made
      next =>
        obtain ⟨all, sync, made⟩ := ok_of_bind made
        cases made
        exact osdReqOpInit_first sync
      next =>
        cases made
        rfl
    refine ⟨op, kept.trans first, ?_⟩
    rw [size, toNat_objectTruncateSize truncated, place]
    exact leading_iff accepted whole small plen truncateSize.toNat
  next => cases made

def stripedWrite : Except NewRequestFault (Except Int NewRequest × UInt64) :=
  cephOsdcNewRequest true ⟨8192, 4096, 2⟩ 3 1 8192 100 1 cephOsdOpWrite 0 2 4096

theorem new_request_truncation_write :
    ∃ request, stripedWrite = .ok (.ok request, 100) ∧ ∃ op, request.ops[0]? = some op ∧
      ((⟨8192, 4096, 2⟩ : FileLayout).Leading (cephCalcFileObjectMapping ⟨8192, 4096, 2⟩ 8192 100).ono.toNat
          (4096 : UInt64).toNat op.truncateSize.toNat ↔
        (⟨8192, 4096, 2⟩ : FileLayout).Spares (cephCalcFileObjectMapping ⟨8192, 4096, 2⟩ 8192 100).ono.toNat
          (4096 : UInt64).toNat (8192 : UInt64).toNat) :=
  ⟨_, rfl, new_request_truncation true ⟨8192, 4096, 2⟩ 3 1 8192 100 1 cephOsdOpWrite 0 2 4096 100 _ (by decide)
    (by decide) (by decide) rfl rfl⟩

/-- The size for the object is 0, and there are 4096 bytes of it below the size of the file. -/
theorem new_request_truncation_striped :
    ∃ request, stripedWrite = .ok (.ok request, 100) ∧ request.ops.map ReqOp.truncateSize = [0] ∧
      (⟨8192, 4096, 2⟩ : FileLayout).Leading (cephCalcFileObjectMapping ⟨8192, 4096, 2⟩ 8192 100).ono.toNat 4096 4096 ∧
      ¬ (⟨8192, 4096, 2⟩ : FileLayout).Leading (cephCalcFileObjectMapping ⟨8192, 4096, 2⟩ 8192 100).ono.toNat 4096 0 := by
  refine ⟨_, rfl, by decide, ⟨by decide, fun y within => ?_⟩, fun leading => ?_⟩
  · have ono : (cephCalcFileObjectMapping ⟨8192, 4096, 2⟩ 8192 100).ono.toNat = 0 := by decide
    have sizes : (⟨8192, 4096, 2⟩ : FileLayout).objectSize.toNat = 8192 := rfl
    rw [ono, fileOffset_eq_spread (by decide)]
    change y < 4096 ↔ 0 + (y + y / 4096 * 4096) < 4096
    lia
  · exact absurd ((leading.below 0 (by decide)).mpr (by decide)) (Nat.lt_irrefl 0)

end KmodCeph.OsdClient
