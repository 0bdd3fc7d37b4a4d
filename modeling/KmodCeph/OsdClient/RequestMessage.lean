import KmodCeph.Lib.Encoder

namespace KmodCeph.OsdClient

open Lib List

def cephMaxOidNameLen : Nat := 100
def sizeofCephOsdOp : Nat := 38
def osdOpFrontLen : Nat := 4096
def maxOp : Nat := 3
def flagWrite : UInt32 := 0x20

def le16 (value : UInt16) : List UInt8 := leBytes 2 value.toNat
def le32 (value : UInt32) : List UInt8 := leBytes 4 value.toNat
def le64 (value : UInt64) : List UInt8 := leBytes 8 value.toNat

abbrev Exactly (width : Nat) := { bytes : List UInt8 // bytes.length = width }

@[simp] theorem Exactly.length {width : Nat} (bytes : Exactly width) : bytes.val.length = width := bytes.property

abbrev WireOp := Exactly sizeofCephOsdOp

structure SnapList where
  seq : UInt64
  snaps : List UInt64

/-- What the front of an osd request message is made from. -/
structure RequestContent where
  flags : UInt32
  mtimeSec : UInt32
  mtimeNsec : UInt32
  baseOid : List UInt8
  ops : List WireOp
  snapid : UInt64
  snapc : Option SnapList

def RequestContent.snaps (r : RequestContent) : List UInt64 := (r.snapc.map SnapList.snaps).getD []

/-- The front that `ceph_osdc_alloc_request` gets for the message: of its own size, or that of the pool. -/
def allocRequestFront (useMempool : Bool) (numOps numSnaps : Nat) : Except Overrun Nat :=
  if numOps > maxOp then .error .bug
  else
    let msgSize := 4 + 4 + 8 + 8 + 4 + 8
    let msgSize := msgSize + (2 + 4 + 8 + 4 + 4)
    let msgSize := msgSize + (1 + 8 + 4 + 4)
    let msgSize := msgSize + (4 + cephMaxOidNameLen)
    let msgSize := msgSize + (2 + numOps * sizeofCephOsdOp)
    let msgSize := msgSize + 8
    let msgSize := msgSize + 8
    let msgSize := msgSize + 8 * numSnaps
    let msgSize := msgSize + 4
    .ok (if useMempool then osdOpFrontLen else msgSize)

/-- The fields that every sending fills in: `r_request_osdmap_epoch` and so on. -/
structure RequestSlots where
  osdmapEpoch : Slot
  flags : Slot
  reassertVersion : Slot
  pool : Slot
  pgid : Slot
  attempts : Slot

def encodeMtime (r : RequestContent) : Encode PUnit :=
  if r.flags &&& flagWrite ≠ 0 then encode (le32 r.mtimeSec ++ le32 r.mtimeNsec)
  else do
    let _ ← reserve 8

def encodeRequest (r : RequestContent) : Encode RequestSlots := do
  encode (le32 1)
  let osdmapEpoch ← reserve 4
  let flags ← reserve 4
  encodeMtime r
  let reassertVersion ← reserve 12
  encode [4]
  encode [4]
  encode (le32 (8 + 4 + 4))
  let pool ← reserve 8
  encode (le32 (-1))
  encode (le32 0)
  encode [1]
  let pgid ← reserve (8 + 4)
  encode (le32 (-1))
  encode (le32 r.baseOid.length.toUInt32)
  encode r.baseOid
  encode (le16 r.ops.length.toUInt16)
  encodeEach (r.ops.map Subtype.val)
  encode (le64 r.snapid)
  encode (le64 ((r.snapc.map SnapList.seq).getD 0))
  encode (le32 r.snaps.length.toUInt32)
  encodeEach (r.snaps.map le64)
  let attempts ← reserve 4
  return { osdmapEpoch, flags, reassertVersion, pool, pgid, attempts }

structure RequestMessage where
  bytes : List UInt8
  iovLen : Nat
  slots : RequestSlots

def buildRequest (front : Nat) (r : RequestContent) : Except Overrun RequestMessage := do
  let (slots, state) ← encodeRequest r { bytes := zeros front, pos := 0 }
  if state.pos > state.bytes.length then throw .bug
  else return { bytes := state.bytes, iovLen := state.pos, slots }

structure Resend where
  osdmapEpoch : UInt32
  flags : UInt32
  pool : UInt64
  pgidPool : UInt64
  pgidSeed : UInt32
  reassertEpoch : UInt32
  reassertVersion : UInt64
deriving Inhabited

def Resend.updates (u : Resend) (slots : RequestSlots) : List (Slot × List UInt8) :=
  [(slots.osdmapEpoch, le32 u.osdmapEpoch), (slots.flags, le32 u.flags), (slots.pool, le64 u.pool),
    (slots.pgid, le64 u.pgidPool ++ le32 u.pgidSeed), (slots.attempts, le64 1),
    (slots.reassertVersion, le32 u.reassertEpoch ++ le64 u.reassertVersion)]

/-- `__send_request`, what it does to the message. -/
def sendRequestMessage (msg : RequestMessage) (u : Resend) : Except Overrun RequestMessage := do
  let bytes ← storeAll (u.updates msg.slots) msg.bytes
  return { msg with bytes }

def RequestMessage.sent (msg : RequestMessage) : List UInt8 := msg.bytes.take msg.iovLen

structure RequestFields where
  osdmapEpoch : Exactly 4
  flags : Exactly 4
  reassertVersion : Exactly 12
  pool : Exactly 8
  pgid : Exactly 12
  attempts : Exactly 4

def cleared (width : Nat) : Exactly width := ⟨zeros width, length_replicate ..⟩

def RequestFields.cleared : RequestFields where
  osdmapEpoch := OsdClient.cleared 4
  flags := OsdClient.cleared 4
  reassertVersion := OsdClient.cleared 12
  pool := OsdClient.cleared 8
  pgid := OsdClient.cleared 12
  attempts := OsdClient.cleared 4

def Resend.fields (u : Resend) : RequestFields where
  osdmapEpoch := ⟨le32 u.osdmapEpoch, length_leBytes ..⟩
  flags := ⟨le32 u.flags, length_leBytes ..⟩
  reassertVersion := ⟨le32 u.reassertEpoch ++ le64 u.reassertVersion, by simp [le32, le64]⟩
  pool := ⟨le64 u.pool, length_leBytes ..⟩
  pgid := ⟨le64 u.pgidPool ++ le32 u.pgidSeed, by simp [le32, le64]⟩
  attempts := ⟨le32 1, length_leBytes ..⟩

def mtimeBytes (r : RequestContent) : List UInt8 :=
  if r.flags &&& flagWrite ≠ 0 then le32 r.mtimeSec ++ le32 r.mtimeNsec else zeros 8

def requestPieces (r : RequestContent) (fields : RequestFields) : List (List UInt8) :=
  [le32 1, fields.osdmapEpoch.val, fields.flags.val, mtimeBytes r, fields.reassertVersion.val,
    [4], [4], le32 16, fields.pool.val, le32 (-1), le32 0,
    [1], fields.pgid.val, le32 (-1),
    le32 r.baseOid.length.toUInt32, r.baseOid,
    le16 r.ops.length.toUInt16, (r.ops.map Subtype.val).flatten,
    le64 r.snapid, le64 ((r.snapc.map SnapList.seq).getD 0), le32 r.snaps.length.toUInt32, (r.snaps.map le64).flatten,
    fields.attempts.val]

def requestBytes (r : RequestContent) (fields : RequestFields) : List UInt8 := (requestPieces r fields).flatten

def requestLength (r : RequestContent) : Nat :=
  101 + r.baseOid.length + r.ops.length * sizeofCephOsdOp + 8 * r.snaps.length

def requestSlots (r : RequestContent) : RequestSlots where
  osdmapEpoch := { offset := 4, width := 4 }
  flags := { offset := 8, width := 4 }
  reassertVersion := { offset := 20, width := 12 }
  pool := { offset := 38, width := 8 }
  pgid := { offset := 55, width := 12 }
  attempts := { offset := requestLength r - 4, width := 4 }

section

variable {r : RequestContent} {fields : RequestFields}

theorem length_mtimeBytes : (mtimeBytes r).length = 8 := by
  unfold mtimeBytes
  split
  next => simp [le32]
  next => exact length_replicate ..

theorem length_ops (ops : List WireOp) : (ops.map Subtype.val).flatten.length = ops.length * sizeofCephOsdOp := by
  induction ops with
  | nil => rfl
  | cons op rest ih =>
    rw [map_cons, flatten_cons, length_append, ih, op.property, length_cons, Nat.succ_mul,
      Nat.add_comm]

theorem length_snaps (snaps : List UInt64) : (snaps.map le64).flatten.length = 8 * snaps.length := by
  induction snaps with
  | nil => rfl
  | cons snap rest ih =>
    rw [map_cons, flatten_cons, length_append, ih, le64, length_leBytes, length_cons]
    omega

theorem length_requestBytes : (requestBytes r fields).length = requestLength r := by
  simp only [requestBytes, requestPieces, flatten_cons, flatten_nil, length_append, length_cons,
    length_nil, Exactly.length, length_mtimeBytes, length_ops, length_snaps, le16, le32, le64, length_leBytes]
  unfold requestLength
  lia

theorem requestSlots_pieces : requestSlots r =
    { osdmapEpoch := pieceSlot (requestPieces r fields) 1
      flags := pieceSlot (requestPieces r fields) 2
      reassertVersion := pieceSlot (requestPieces r fields) 4
      pool := pieceSlot (requestPieces r fields) 8
      pgid := pieceSlot (requestPieces r fields) 12
      attempts := pieceSlot (requestPieces r fields) 22 } := by
  have last : requestLength r - 4 = ((requestPieces r fields).take 22).flatten.length := by
    have whole : (requestBytes r fields).length = requestLength r := length_requestBytes
    rw [requestBytes, @flatten_around _ 22 (requestPieces r fields) (Nat.lt_succ_self _), length_append] at whole
    change _ + (fields.attempts.val ++ []).length = _ at whole
    rw [List.append_nil, Exactly.length] at whole
    lia
  have mtime : (mtimeBytes r).length = 8 := length_mtimeBytes
  unfold requestSlots
  rw [last]
  simp [pieceSlot, requestPieces, mtime, le32]

end

end KmodCeph.OsdClient
