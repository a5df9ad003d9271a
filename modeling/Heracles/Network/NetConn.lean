import Heracles.Core.Buffer

/-!
What both kinds of connection share.

A connection reads into a fixed block and parses out of the growing buffer
behind it. `Socket` is the receiving side of asio: a read that asks for at least
`atLeast` bytes completes with any number between that and the block's size that
has arrived, and does not complete before. `parseHeader` and `parseMsgBody` are
written once in each class with the same text; here they are written once.
-/

namespace Heracles.Network

open Heracles.Base
open Heracles.Core

inductive ConnStat where
  | kWorking
  | kPending
  | kError
  | kClosed
  deriving DecidableEq, Repr

def kFixedIoBufferSize : Nat := 2048

structure IOBound where
  ioBlock : Bytes
  header : Header
  buffer : Buffer
  deriving DecidableEq, Repr

namespace IOBound

def fresh : IOBound := ⟨List.replicate kFixedIoBufferSize 0, Header.zero, Buffer.empty⟩

/-- A completed read has written its bytes to the front of the block. -/
def fill (r : IOBound) (chunk : Bytes) : IOBound :=
  { r with ioBlock := chunk ++ r.ioBlock.drop chunk.length }

/-- Handlers move the transferred bytes from the block into the buffer. -/
def absorb (r : IOBound) (bytesTransferred : Nat) : IOBound :=
  { r with buffer := r.buffer.appendInternal (r.ioBlock.take bytesTransferred) }

/-- `parse_header`: 1 asks for more bytes, -1 ends the connection. A limit of
zero admits every length. -/
def parseHeader (recvMaxMsgSize : UInt32) (r : IOBound) : Int × IOBound :=
  if r.buffer.getLength.toNat < Header.size then (1, r)
  else
    let (_, headStr, buffer) := r.buffer.consume [] (UInt32.ofNat Header.size)
    let r := { r with header := Header.fromNetEndian headStr, buffer := buffer }
    if r.header.magic ≠ kHeaderMagic ∨ r.header.version ≠ kHeaderVersion then (-1, r)
    else if recvMaxMsgSize ≠ 0 ∧ recvMaxMsgSize < r.header.length then (-1, r)
    else (0, r)

/-- `parse_msg_body`: 1 asks for more bytes and leaves the caller's message. -/
def parseMsgBody (r : IOBound) (msg : Message) : Int × Message × IOBound :=
  if r.buffer.getLength < r.header.length then (1, msg, r)
  else
    let (_, msgStr, buffer) := r.buffer.consume [] r.header.length
    (0, ⟨r.header, msgStr⟩, { r with buffer := buffer })

end IOBound

/-! ### Reading from a socket -/

/-- The bytes the peer has sent and no read has delivered yet. `offers i` is the
amount the network would hand to the `i`-th read if that read admits it. -/
structure Socket where
  undelivered : Bytes
  offers : Nat → Nat
  reads : Nat

namespace Socket

/-- A read of at least `atLeast` bytes into a block: `none` while too few bytes
have arrived. -/
def read (s : Socket) (atLeast : Nat) : Option (Bytes × Socket) :=
  if s.undelivered.length < atLeast then none
  else
    let n := max atLeast (min (s.offers s.reads) (min kFixedIoBufferSize s.undelivered.length))
    some (s.undelivered.take n, { s with undelivered := s.undelivered.drop n, reads := s.reads + 1 })

theorem read_none {s : Socket} {atLeast : Nat} :
    s.read atLeast = none ↔ s.undelivered.length < atLeast := by
  rw [read]
  split <;> simp_all

/-- A completed read delivers a prefix of what had arrived, within the bounds. -/
theorem read_some {s after : Socket} {atLeast : Nat} {chunk : Bytes}
    (completed : s.read atLeast = some (chunk, after)) :
    s.undelivered = chunk ++ after.undelivered ∧ atLeast ≤ chunk.length ∧
      chunk.length ≤ max atLeast kFixedIoBufferSize := by
  rw [read] at completed
  split at completed
  · cases completed
  · next arrived =>
      rw [Option.some.injEq, Prod.mk.injEq] at completed
      obtain ⟨rfl, rfl⟩ := completed
      refine ⟨(List.take_append_drop _ _).symm, ?_, ?_⟩
      · rw [List.length_take]
        omega
      · rw [List.length_take]
        omega

/-- Every number of bytes a read admits is delivered when the network offers it. -/
theorem read_offered {chunk rest : Bytes} {offers : Nat → Nat} {reads atLeast : Nat}
    (lower : atLeast ≤ chunk.length) (upper : chunk.length ≤ kFixedIoBufferSize)
    (offered : offers reads = chunk.length) :
    (Socket.mk (chunk ++ rest) offers reads).read atLeast =
      some (chunk, ⟨rest, offers, reads + 1⟩) := by
  have size : max atLeast (min chunk.length (min kFixedIoBufferSize (chunk ++ rest).length)) =
      chunk.length := by
    rw [List.length_append]
    omega
  rw [read, if_neg (by rw [List.length_append]; omega)]
  simp only [offered, size, List.take_left', List.drop_left']

end Socket

/-! ### The parsers on a whole buffer -/

/-- The checks of a header against the constants and the limit. -/
def AdmittedHeader (recvMaxMsgSize : UInt32) (h : Header) : Prop :=
  h.magic = kHeaderMagic ∧ h.version = kHeaderVersion ∧
    (recvMaxMsgSize = 0 ∨ h.length ≤ recvMaxMsgSize)

instance (recvMaxMsgSize : UInt32) (h : Header) : Decidable (AdmittedHeader recvMaxMsgSize h) :=
  inferInstanceAs (Decidable (_ ∧ _ ∧ _))

namespace IOBound

@[simp] theorem absorb_fill (r : IOBound) (chunk : Bytes) :
    ((r.fill chunk).absorb chunk.length).buffer.data = r.buffer.data ++ chunk := by
  simp [fill, absorb]

@[simp] theorem header_absorb_fill (r : IOBound) (chunk : Bytes) :
    ((r.fill chunk).absorb chunk.length).header = r.header := rfl

/-- The header read from the front of the buffer and the buffer behind it. -/
def headerRead (r : IOBound) : IOBound :=
  { r with
    header := Header.fromNetEndian (r.buffer.data.take Header.size)
    buffer := ⟨r.buffer.data.drop Header.size⟩ }

theorem parseHeader_short {limit : UInt32} {r : IOBound}
    (short : r.buffer.getLength.toNat < Header.size) : r.parseHeader limit = (1, r) := by
  rw [parseHeader, if_pos short]

/-- With 16 bytes at hand the header is consumed, whatever the checks say. -/
theorem parseHeader_enough {limit : UInt32} {r : IOBound}
    (enough : Header.size ≤ r.buffer.getLength.toNat) :
    r.parseHeader limit =
      (if AdmittedHeader limit r.headerRead.header then 0 else -1, r.headerRead) := by
  have consumed := Buffer.consume_fresh r.buffer (UInt32.ofNat Header.size)
  have size : (UInt32.ofNat Header.size).toNat = Header.size := rfl
  rw [size] at consumed
  rw [parseHeader, if_neg (by omega)]
  simp only [consumed]
  have limited : (limit = 0 ∨ r.headerRead.header.length ≤ limit) ↔
      ¬(limit ≠ 0 ∧ limit < r.headerRead.header.length) := by
    rw [not_and_or, not_not, UInt32.not_lt]
  by_cases foreign : r.headerRead.header.magic ≠ kHeaderMagic ∨
      r.headerRead.header.version ≠ kHeaderVersion
  · have refused : ¬AdmittedHeader limit r.headerRead.header := by
      intro admitted
      cases foreign with
      | inl magic => exact magic admitted.1
      | inr version => exact version admitted.2.1
    rw [if_neg refused]
    exact if_pos foreign
  · have known := not_or.mp foreign
    simp only [not_not] at known
    refine (if_neg foreign).trans ?_
    by_cases tooLong : limit ≠ 0 ∧ limit < r.headerRead.header.length
    · have refused : ¬AdmittedHeader limit r.headerRead.header :=
        fun admitted => limited.mp admitted.2.2 tooLong
      rw [if_neg refused]
      exact if_pos tooLong
    · have admitted : AdmittedHeader limit r.headerRead.header :=
        ⟨known.1, known.2, limited.mpr tooLong⟩
      rw [if_pos admitted]
      exact if_neg tooLong

theorem parseMsgBody_short {r : IOBound} {msg : Message}
    (short : r.buffer.getLength < r.header.length) : r.parseMsgBody msg = (1, msg, r) := by
  rw [parseMsgBody, if_pos short]

theorem parseMsgBody_enough {r : IOBound} {msg : Message}
    (enough : ¬r.buffer.getLength < r.header.length) :
    r.parseMsgBody msg =
      (0, ⟨r.header, r.buffer.data.take r.header.length.toNat⟩,
        { r with buffer := ⟨r.buffer.data.drop r.header.length.toNat⟩ }) := by
  rw [parseMsgBody, if_neg enough]
  simp only [Buffer.consume_fresh]

end IOBound

end Heracles.Network
