import Heracles.Base.Endian

/-!
Messages and their encoding on the wire.

A message is a 16-byte header followed by its payload. `magic`, `version` and
`length` travel in network byte order; the two reserved words are never
converted, so their bytes on the wire are their bytes in memory.
-/

namespace Heracles.Core

open Heracles.Base

def kHeaderMagic : UInt16 := 0x746b

def kHeaderVersion : UInt16 := 0x01

/-- `length` counts the payload, not the header. -/
structure Header where
  magic : UInt16
  version : UInt16
  length : UInt32
  rev1 : UInt32
  rev2 : UInt32
  deriving DecidableEq, Repr

namespace Header

/-- `sizeof(Header)` of the packed struct. -/
def size : Nat := 16

def zero : Header := ⟨0, 0, 0, 0, 0⟩

/-- A word as it lies in memory on a little-endian host. -/
def inMemory (n : UInt32) : Bytes := (bigEndian 4 n.toNat).reverse

def ofMemory (raw : Bytes) : UInt32 := UInt32.ofNat (ofBigEndian raw.reverse)

/-- The header's memory after `to_net_endian`. -/
def toNetEndian (h : Header) : Bytes :=
  bigEndian 2 h.magic.toNat ++ bigEndian 2 h.version.toNat ++ bigEndian 4 h.length.toNat ++
    inMemory h.rev1 ++ inMemory h.rev2

/-- Copying the first 16 bytes of `raw` into a header, then `from_net_endian`. -/
def fromNetEndian (raw : Bytes) : Header where
  magic := UInt16.ofNat (ofBigEndian (raw.take 2))
  version := UInt16.ofNat (ofBigEndian ((raw.drop 2).take 2))
  length := UInt32.ofNat (ofBigEndian ((raw.drop 4).take 4))
  rev1 := ofMemory ((raw.drop 8).take 4)
  rev2 := ofMemory ((raw.drop 12).take 4)

@[simp] theorem length_inMemory (n : UInt32) : (inMemory n).length = 4 := by simp [inMemory]

theorem ofMemory_inMemory (n : UInt32) : ofMemory (inMemory n) = n := by
  have small : n.toNat < 256 ^ 4 := n.toNat_lt
  rw [ofMemory, inMemory, List.reverse_reverse, ofBigEndian_bigEndian small, UInt32.ofNat_toNat]

@[simp] theorem length_toNetEndian (h : Header) : h.toNetEndian.length = size := by
  simp [toNetEndian, size]

/-- A header is read back from what was written, whatever follows it. -/
theorem fromNetEndian_toNetEndian (h : Header) (rest : Bytes) :
    fromNetEndian (h.toNetEndian ++ rest) = h := by
  have magic : h.magic.toNat < 256 ^ 2 := h.magic.toNat_lt
  have version : h.version.toNat < 256 ^ 2 := h.version.toNat_lt
  have length : h.length.toNat < 256 ^ 4 := h.length.toNat_lt
  simp (disch := simp) [fromNetEndian, toNetEndian, List.drop_append, List.drop_eq_nil_of_le,
    ofBigEndian_bigEndian magic, ofBigEndian_bigEndian version, ofBigEndian_bigEndian length,
    ofMemory_inMemory]

end Header

structure Message where
  header : Header
  payload : Bytes
  deriving DecidableEq, Repr

namespace Message

def empty : Message := ⟨Header.zero, []⟩

/-- The message that carries `data`; the length is the 32-bit field's. -/
def ofPayload (data : Bytes) : Message where
  header := { Header.zero with
    magic := kHeaderMagic
    version := kHeaderVersion
    length := UInt32.ofNat data.length }
  payload := data

/-- The bytes of a message on the wire. -/
def netStr (msg : Message) : Bytes := msg.header.toNetEndian ++ msg.payload

theorem length_netStr (msg : Message) :
    msg.netStr.length = Header.size + msg.payload.length := by
  simp [netStr]

end Message

end Heracles.Core
