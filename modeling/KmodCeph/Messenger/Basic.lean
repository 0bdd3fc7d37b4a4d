import KmodCeph.Basic
import KmodCeph.Lib.Trace
import KmodCeph.Lib.Bytes

namespace KmodCeph.Messenger

open Lib List

def crc32cByte (crc : UInt32) (byte : UInt8) : UInt32 :=
  (List.range 8).foldl (fun crc _ =>
    if crc &&& 1 ≠ 0 then (crc >>> 1) ^^^ 0x82f63b78 else crc >>> 1) (crc ^^^ byte.toUInt32)

@[irreducible] def crc32c (crc : UInt32) (bytes : List UInt8) : UInt32 :=
  bytes.foldl crc32cByte crc

theorem crc32c_append (crc : UInt32) (first second : List UInt8) :
    crc32c crc (first ++ second) = crc32c (crc32c crc first) second := by
  simp only [crc32c, foldl_append]

def cephMsgrTagReady : UInt8 := 1
def cephMsgrTagResetsession : UInt8 := 2
def cephMsgrTagRetrySession : UInt8 := 4
def cephMsgrTagRetryGlobal : UInt8 := 5
def cephMsgrTagClose : UInt8 := 6
def cephMsgrTagMsg : UInt8 := 7
def cephMsgrTagAck : UInt8 := 8
def cephMsgrTagKeepalive : UInt8 := 9
def cephMsgrTagBadprotover : UInt8 := 10
def cephMsgrTagBadauthorizer : UInt8 := 11
def cephMsgrTagFeatures : UInt8 := 12
def cephMsgrTagSeq : UInt8 := 13

def cephBanner : List UInt8 := [99, 101, 112, 104, 32, 118, 48, 50, 55]

def sizeofEntityAddr : Nat := 136
def sizeofMsgHeader : Nat := 53
def sizeofMsgFooter : Nat := 13
def sizeofConnectReply : Nat := 26
def pageSize : Nat := 4096
def skipBufSize : Nat := 1024
def cephMsgMaxFrontLen : Nat := 16 * 1024 * 1024
def cephMsgMaxMiddleLen : Nat := 16 * 1024 * 1024
def cephMsgMaxDataLen : Nat := 16 * 1024 * 1024

structure EntityName where
  type : UInt8
  num : UInt64
deriving DecidableEq

structure MsgHeader where
  seq : UInt64
  tid : UInt64
  type : UInt16
  priority : UInt16
  version : UInt16
  frontLen : UInt32
  middleLen : UInt32
  dataLen : UInt32
  dataOff : UInt16
  src : EntityName
  reserved : UInt32
  crc : UInt32
deriving DecidableEq

def MsgHeader.encodeChecked (hdr : MsgHeader) : List UInt8 :=
  leBytes 8 hdr.seq.toNat ++ leBytes 8 hdr.tid.toNat ++ leBytes 2 hdr.type.toNat ++
    leBytes 2 hdr.priority.toNat ++ leBytes 2 hdr.version.toNat ++ leBytes 4 hdr.frontLen.toNat ++
    leBytes 4 hdr.middleLen.toNat ++ leBytes 4 hdr.dataLen.toNat ++ leBytes 2 hdr.dataOff.toNat ++
    (hdr.src.type :: leBytes 8 hdr.src.num.toNat) ++ leBytes 4 hdr.reserved.toNat

def MsgHeader.encode (hdr : MsgHeader) : List UInt8 :=
  hdr.encodeChecked ++ leBytes 4 hdr.crc.toNat

@[simp] theorem MsgHeader.length_encodeChecked (hdr : MsgHeader) : hdr.encodeChecked.length = 49 := by
  simp [encodeChecked]

@[simp] theorem MsgHeader.length_encode (hdr : MsgHeader) : hdr.encode.length = sizeofMsgHeader := by
  simp [encode, sizeofMsgHeader]

/-- The number stored in `count` bytes from `offset` on. -/
def leField (bytes : List UInt8) (offset count : Nat) : Nat :=
  leValue ((bytes.drop offset).take count)

def MsgHeader.decode (bytes : List UInt8) : MsgHeader :=
  { seq := UInt64.ofNat (leField bytes 0 8)
    tid := UInt64.ofNat (leField bytes 8 8)
    type := UInt16.ofNat (leField bytes 16 2)
    priority := UInt16.ofNat (leField bytes 18 2)
    version := UInt16.ofNat (leField bytes 20 2)
    frontLen := UInt32.ofNat (leField bytes 22 4)
    middleLen := UInt32.ofNat (leField bytes 26 4)
    dataLen := UInt32.ofNat (leField bytes 30 4)
    dataOff := UInt16.ofNat (leField bytes 34 2)
    src := ⟨UInt8.ofNat (leField bytes 36 1), UInt64.ofNat (leField bytes 37 8)⟩
    reserved := UInt32.ofNat (leField bytes 45 4)
    crc := UInt32.ofNat (leField bytes 49 4) }

variable {value offset count : Nat} {rest : List UInt8} {byte : UInt8}

theorem leField_skip {size : Nat} (behind : size ≤ offset) :
    leField (leBytes size value ++ rest) offset count = leField rest (offset - size) count := by
  unfold leField
  rw [drop_append, length_leBytes, drop_of_length_le (by simpa using behind), nil_append]

theorem leField_here : leField (leBytes count value ++ rest) 0 count = value % 256 ^ count := by
  unfold leField
  rw [drop_zero, take_left' (length_leBytes count value), leValue_leBytes]

theorem leField_last : leField (leBytes count value) 0 count = value % 256 ^ count := by
  rw [← List.append_nil (leBytes count value), leField_here]

theorem leField_cons (behind : 1 ≤ offset) :
    leField (byte :: rest) offset count = leField rest (offset - 1) count := by
  obtain ⟨offset, rfl⟩ := Nat.exists_eq_add_of_le behind
  rw [Nat.add_comm, leField, drop_succ_cons, Nat.add_sub_cancel]
  rfl

theorem leField_byte : leField (byte :: rest) 0 1 = byte.toNat := by
  simp [leField, leValue]

theorem MsgHeader.decode_encode (hdr : MsgHeader) : decode hdr.encode = hdr := by
  have eight (value : UInt64) : value.toNat % 256 ^ 8 = value.toNat := Nat.mod_eq_of_lt value.toNat_lt
  have four (value : UInt32) : value.toNat % 256 ^ 4 = value.toNat := Nat.mod_eq_of_lt value.toNat_lt
  have two (value : UInt16) : value.toNat % 256 ^ 2 = value.toNat := Nat.mod_eq_of_lt value.toNat_lt
  simp [decode, encode, encodeChecked, leField_skip, leField_here, leField_last, leField_cons,
    leField_byte, -Nat.reducePow, eight, four, two]

theorem MsgHeader.take_encode (hdr : MsgHeader) : hdr.encode.take 49 = hdr.encodeChecked :=
  take_left' hdr.length_encodeChecked

structure MsgFooter where
  frontCrc : UInt32
  middleCrc : UInt32
  dataCrc : UInt32
  flags : UInt8
deriving DecidableEq

def cephMsgFooterComplete : UInt8 := 1
def cephMsgFooterNocrc : UInt8 := 2

def MsgFooter.encode (footer : MsgFooter) : List UInt8 :=
  leBytes 4 footer.frontCrc.toNat ++ leBytes 4 footer.middleCrc.toNat ++
    leBytes 4 footer.dataCrc.toNat ++ [footer.flags]

@[simp] theorem MsgFooter.length_encode (footer : MsgFooter) :
    footer.encode.length = sizeofMsgFooter := by
  simp [encode, sizeofMsgFooter]

def MsgFooter.decode (bytes : List UInt8) : MsgFooter :=
  { frontCrc := UInt32.ofNat (leField bytes 0 4)
    middleCrc := UInt32.ofNat (leField bytes 4 4)
    dataCrc := UInt32.ofNat (leField bytes 8 4)
    flags := UInt8.ofNat (leField bytes 12 1) }

structure MsgConnect where
  features : UInt64
  hostType : UInt32
  globalSeq : UInt32
  connectSeq : UInt32
  protocolVersion : UInt32
  authorizerProtocol : UInt32
  authorizerLen : UInt32
  flags : UInt8

def MsgConnect.encode (connect : MsgConnect) : List UInt8 :=
  leBytes 8 connect.features.toNat ++ leBytes 4 connect.hostType.toNat ++
    leBytes 4 connect.globalSeq.toNat ++ leBytes 4 connect.connectSeq.toNat ++
    leBytes 4 connect.protocolVersion.toNat ++ leBytes 4 connect.authorizerProtocol.toNat ++
    leBytes 4 connect.authorizerLen.toNat ++ [connect.flags]

structure MsgConnectReply where
  tag : UInt8
  features : UInt64
  globalSeq : UInt32
  connectSeq : UInt32
  protocolVersion : UInt32
  authorizerLen : UInt32
  flags : UInt8

def MsgConnectReply.decode (bytes : List UInt8) : MsgConnectReply :=
  { tag := UInt8.ofNat (leField bytes 0 1)
    features := UInt64.ofNat (leField bytes 1 8)
    globalSeq := UInt32.ofNat (leField bytes 9 4)
    connectSeq := UInt32.ofNat (leField bytes 13 4)
    protocolVersion := UInt32.ofNat (leField bytes 17 4)
    authorizerLen := UInt32.ofNat (leField bytes 21 4)
    flags := UInt8.ofNat (leField bytes 25 1) }

/-- What ends an execution: a `BUG`, an access the source leaves undefined, or
the bound on the iterations of a loop. -/
inductive Halt where
  | bug
  | nullSocket
  | outOfBounds
  | exhausted
deriving DecidableEq

inductive ConState where
  | closed
  | preopen
  | connecting
  | negotiating
  | opened
  | standby
deriving DecidableEq

end KmodCeph.Messenger
