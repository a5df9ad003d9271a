import Heracles.Core.Message

/-!
Requests and responses inside a message.

Both headers hold four 16-bit words in network byte order and two reserved words
whose bytes are never converted; a response starts with one status byte more. A
response is decoded by `RpcResponseMessage.parse`, a request either by
`RpcRequestMessage.parse` or by the server's own `validate_request`. Encoding and
parsing are inverse to each other in both directions.
-/

namespace Heracles.Rpc

open Heracles.Base
open Heracles.Core

def kRpcHeaderMagic : UInt16 := 0x7472

def kRpcHeaderVersion : UInt16 := 0x01

/-! ### Words in memory -/

/-- A 16-bit word in network byte order. -/
def word16 (n : UInt16) : Bytes := bigEndian 2 n.toNat

def ofWord16 (raw : Bytes) : UInt16 := UInt16.ofNat (ofBigEndian raw)

@[simp] theorem length_word16 (n : UInt16) : (word16 n).length = 2 := length_bigEndian 2 _

@[simp] theorem ofWord16_word16 (n : UInt16) : ofWord16 (word16 n) = n := by
  have small : n.toNat < 256 ^ 2 := n.toNat_lt
  rw [ofWord16, word16, ofBigEndian_bigEndian small, UInt16.ofNat_toNat]

theorem word16_ofWord16 {raw : Bytes} (length : raw.length = 2) : word16 (ofWord16 raw) = raw := by
  have bound := ofBigEndian_lt raw
  rw [length] at bound
  have small : ofBigEndian raw < 2 ^ 16 := bound.trans_eq (by decide)
  rw [word16, ofWord16, UInt16.toNat_ofNat', Nat.mod_eq_of_lt small, ← length,
    bigEndian_ofBigEndian]

theorem inMemory_ofMemory {raw : Bytes} (length : raw.length = 4) :
    Header.inMemory (Header.ofMemory raw) = raw := by
  have bound := ofBigEndian_lt raw.reverse
  rw [List.length_reverse, length] at bound
  have small : ofBigEndian raw.reverse < 2 ^ 32 := bound.trans_eq (by decide)
  have width : raw.reverse.length = 4 := by rw [List.length_reverse, length]
  rw [Header.inMemory, Header.ofMemory, UInt32.toNat_ofNat', Nat.mod_eq_of_lt small, ← width,
    bigEndian_ofBigEndian, List.reverse_reverse]

/-! ### Requests -/

structure RpcRequestHeader where
  magic : UInt16
  version : UInt16
  serviceId : UInt16
  opcode : UInt16
  rev1 : UInt32
  rev2 : UInt32
  deriving DecidableEq, Repr

namespace RpcRequestHeader

/-- `sizeof(RpcRequestHeader)` of the packed struct. -/
def size : Nat := 16

def zero : RpcRequestHeader := ⟨0, 0, 0, 0, 0, 0⟩

def toNetEndian (h : RpcRequestHeader) : Bytes :=
  word16 h.magic ++ word16 h.version ++ word16 h.serviceId ++ word16 h.opcode ++
    Header.inMemory h.rev1 ++ Header.inMemory h.rev2

def fromNetEndian (raw : Bytes) : RpcRequestHeader where
  magic := ofWord16 (raw.take 2)
  version := ofWord16 ((raw.drop 2).take 2)
  serviceId := ofWord16 ((raw.drop 4).take 2)
  opcode := ofWord16 ((raw.drop 6).take 2)
  rev1 := Header.ofMemory ((raw.drop 8).take 4)
  rev2 := Header.ofMemory ((raw.drop 12).take 4)

@[simp] theorem length_toNetEndian (h : RpcRequestHeader) : h.toNetEndian.length = size := by
  simp [toNetEndian, size]

theorem fromNetEndian_toNetEndian (h : RpcRequestHeader) (rest : Bytes) :
    fromNetEndian (h.toNetEndian ++ rest) = h := by
  simp (disch := simp) [fromNetEndian, toNetEndian, List.drop_append, List.drop_eq_nil_of_le,
    Header.ofMemory_inMemory]

theorem toNetEndian_fromNetEndian {raw : Bytes} (enough : size ≤ raw.length) :
    (fromNetEndian raw).toNetEndian = raw.take size := by
  simp only [size] at enough
  have whole : size = 2 + 2 + 2 + 2 + 4 + 4 := rfl
  rw [whole, List.take_add, List.take_add, List.take_add, List.take_add, List.take_add]
  simp (disch := simp; omega) only [toNetEndian, fromNetEndian, word16_ofWord16, inMemory_ofMemory]

end RpcRequestHeader

structure RpcRequestMessage where
  header : RpcRequestHeader
  payload : Bytes
  deriving DecidableEq, Repr

namespace RpcRequestMessage

def empty : RpcRequestMessage := ⟨RpcRequestHeader.zero, []⟩

/-- The request for an operation of a service. -/
def make (serviceId opcode : UInt16) (data : Bytes) : RpcRequestMessage where
  header := { RpcRequestHeader.zero with
    magic := kRpcHeaderMagic
    version := kRpcHeaderVersion
    serviceId := serviceId
    opcode := opcode }
  payload := data

def netStr (msg : RpcRequestMessage) : Bytes := msg.header.toNetEndian ++ msg.payload

/-- `RpcRequestMessageParse`: `none` when the string is shorter than a header. -/
def parse (str : Bytes) : Option RpcRequestMessage :=
  if str.length < RpcRequestHeader.size then none
  else some ⟨RpcRequestHeader.fromNetEndian str, str.drop RpcRequestHeader.size⟩

theorem length_netStr (msg : RpcRequestMessage) :
    msg.netStr.length = RpcRequestHeader.size + msg.payload.length := by
  simp [netStr]

theorem parse_netStr (msg : RpcRequestMessage) : parse msg.netStr = some msg := by
  rw [parse, if_neg (by rw [length_netStr]; omega), netStr,
    RpcRequestHeader.fromNetEndian_toNetEndian, List.drop_left' (by simp)]

end RpcRequestMessage

/-! ### Responses -/

/-- `enum class RpcResponseStatus : uint8_t`: the byte read from the wire is not
checked, so every value can occur. -/
structure RpcResponseStatus where
  code : UInt8
  deriving DecidableEq, Repr

namespace RpcResponseStatus

def OK : RpcResponseStatus := ⟨0⟩

def SERVICE_SPECIFIC_ERROR : RpcResponseStatus := ⟨1⟩

def INVALID_VERSION : RpcResponseStatus := ⟨2⟩

def INVALID_SERVICE : RpcResponseStatus := ⟨3⟩

def INVALID_REQUEST : RpcResponseStatus := ⟨4⟩

def SYSTEM_ERROR : RpcResponseStatus := ⟨5⟩

end RpcResponseStatus

structure RpcResponseHeader where
  status : RpcResponseStatus
  magic : UInt16
  version : UInt16
  serviceId : UInt16
  opcode : UInt16
  rev1 : UInt32
  rev2 : UInt32
  deriving DecidableEq, Repr

namespace RpcResponseHeader

/-- `sizeof(RpcResponseHeader)` of the packed struct. -/
def size : Nat := 17

def zero : RpcResponseHeader := ⟨RpcResponseStatus.OK, 0, 0, 0, 0, 0, 0⟩

def toNetEndian (h : RpcResponseHeader) : Bytes :=
  [h.status.code] ++ word16 h.magic ++ word16 h.version ++ word16 h.serviceId ++
    word16 h.opcode ++ Header.inMemory h.rev1 ++ Header.inMemory h.rev2

def fromNetEndian (raw : Bytes) : RpcResponseHeader where
  status := ⟨raw.headD 0⟩
  magic := ofWord16 ((raw.drop 1).take 2)
  version := ofWord16 ((raw.drop 3).take 2)
  serviceId := ofWord16 ((raw.drop 5).take 2)
  opcode := ofWord16 ((raw.drop 7).take 2)
  rev1 := Header.ofMemory ((raw.drop 9).take 4)
  rev2 := Header.ofMemory ((raw.drop 13).take 4)

@[simp] theorem length_toNetEndian (h : RpcResponseHeader) : h.toNetEndian.length = size := by
  simp [toNetEndian, size]

theorem fromNetEndian_toNetEndian (h : RpcResponseHeader) (rest : Bytes) :
    fromNetEndian (h.toNetEndian ++ rest) = h := by
  simp (disch := simp) [fromNetEndian, toNetEndian, List.drop_append, List.drop_eq_nil_of_le,
    Header.ofMemory_inMemory]

theorem toNetEndian_fromNetEndian {raw : Bytes} (enough : size ≤ raw.length) :
    (fromNetEndian raw).toNetEndian = raw.take size := by
  simp only [size] at enough
  have status : [raw.headD 0] = raw.take 1 := by
    cases raw with
    | nil => simp at enough
    | cons b raw => rfl
  have whole : size = 1 + 2 + 2 + 2 + 2 + 4 + 4 := rfl
  rw [whole, List.take_add, List.take_add, List.take_add, List.take_add, List.take_add,
    List.take_add]
  simp (disch := simp; omega) only [toNetEndian, fromNetEndian, word16_ofWord16,
    inMemory_ofMemory, status]

end RpcResponseHeader

structure RpcResponseMessage where
  header : RpcResponseHeader
  payload : Bytes
  deriving DecidableEq, Repr

namespace RpcResponseMessage

def empty : RpcResponseMessage := ⟨RpcResponseHeader.zero, []⟩

/-- A service's answer. -/
def make (serviceId opcode : UInt16) (data : Bytes) : RpcResponseMessage where
  header := { RpcResponseHeader.zero with
    status := RpcResponseStatus.OK
    magic := kRpcHeaderMagic
    version := kRpcHeaderVersion
    serviceId := serviceId
    opcode := opcode }
  payload := data

/-- The answer to a request that no service has taken. -/
def ofStatus (status : RpcResponseStatus) : RpcResponseMessage where
  header := { RpcResponseHeader.zero with
    status := status
    magic := kRpcHeaderMagic
    version := kRpcHeaderVersion }
  payload := []

def netStr (msg : RpcResponseMessage) : Bytes := msg.header.toNetEndian ++ msg.payload

/-- `RpcResponseMessageParse`: `none` when the string is shorter than a header. -/
def parse (str : Bytes) : Option RpcResponseMessage :=
  if str.length < RpcResponseHeader.size then none
  else some ⟨RpcResponseHeader.fromNetEndian str, str.drop RpcResponseHeader.size⟩

theorem length_netStr (msg : RpcResponseMessage) :
    msg.netStr.length = RpcResponseHeader.size + msg.payload.length := by
  simp [netStr]

theorem parse_netStr (msg : RpcResponseMessage) : parse msg.netStr = some msg := by
  rw [parse, if_neg (by rw [length_netStr]; omega), netStr,
    RpcResponseHeader.fromNetEndian_toNetEndian, List.drop_left' (by simp)]

theorem netStr_parse {str : Bytes} (enough : RpcResponseHeader.size ≤ str.length) :
    (parse str).map netStr = some str := by
  rw [parse, if_neg (Nat.not_lt.mpr enough), Option.map_some, netStr,
    RpcResponseHeader.toNetEndian_fromNetEndian enough, List.take_append_drop]

theorem parse_short {str : Bytes} (short : str.length < RpcResponseHeader.size) :
    parse str = none := if_pos short

end RpcResponseMessage

end Heracles.Rpc
