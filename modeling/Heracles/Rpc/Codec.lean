import Heracles.Network.NetConn
import Heracles.Rpc.RpcInstance

/-!
Requests and responses through the whole stack.

A request is encoded, wrapped in a message, appended to a buffer, and then taken
apart by the connection's parsers and by `validate_request`. The sizes on that
way are 32-bit: `throughStack_eq_iff` says that a request comes out as it went in
exactly when the whole frame is smaller than 2^32 bytes and the receiver's limit
admits it.
-/

namespace Heracles.Rpc

open Heracles.Base
open Heracles.Core
open Heracles.Network

/-- The server's view of a payload: service, operation and body if it validates. -/
def decodePayload (msg : Message) : Option (UInt16 × UInt16 × Bytes) :=
  let (ok, inst) := (RpcInstance.ofMessage msg).validateRequest
  if ok then some (inst.serviceId, inst.opcode, inst.rpcRequestMessage.payload) else none

/-- Take one frame out of a buffer and decode the request in it. -/
def decodeRequest (recvMaxMsgSize : UInt32) (r : IOBound) : Option (UInt16 × UInt16 × Bytes) :=
  let (ret, r) := r.parseHeader recvMaxMsgSize
  if ret ≠ 0 then none
  else
    let (ret, msg, _) := r.parseMsgBody Message.empty
    if ret ≠ 0 then none else decodePayload msg

/-- The message a client sends for a request. -/
def requestFrame (serviceId opcode : UInt16) (payload : Bytes) : Message :=
  Message.ofPayload (RpcRequestMessage.make serviceId opcode payload).netStr

/-- Encode a request, wrap and buffer it, then decode it. -/
def throughStack (recvMaxMsgSize : UInt32) (serviceId opcode : UInt16) (payload : Bytes) :
    Option (UInt16 × UInt16 × Bytes) :=
  decodeRequest recvMaxMsgSize
    { IOBound.fresh with buffer := Buffer.empty.append (requestFrame serviceId opcode payload) }

/-! ### Decoding a buffer -/

section Decode

variable {limit : UInt32} {r : IOBound}

theorem decodeRequest_short (short : r.buffer.getLength.toNat < Header.size) :
    decodeRequest limit r = none := by
  rw [decodeRequest, IOBound.parseHeader_short short]
  rfl

theorem decodeRequest_refused (enough : Header.size ≤ r.buffer.getLength.toNat)
    (refused : ¬AdmittedHeader limit r.headerRead.header) : decodeRequest limit r = none := by
  rw [decodeRequest, IOBound.parseHeader_enough enough, if_neg refused]
  rfl

theorem decodeRequest_whole (enough : Header.size ≤ r.buffer.getLength.toNat)
    (admitted : AdmittedHeader limit r.headerRead.header)
    (arrived : ¬r.headerRead.buffer.getLength < r.headerRead.header.length) :
    decodeRequest limit r =
      decodePayload ⟨r.headerRead.header,
        r.headerRead.buffer.data.take r.headerRead.header.length.toNat⟩ := by
  rw [decodeRequest, IOBound.parseHeader_enough enough, if_pos admitted]
  simp only [IOBound.parseMsgBody_enough arrived]
  rfl

end Decode

/-- What decodes has at least 16 bytes less than the payload decoded. -/
theorem decodePayload_some {msg : Message} {serviceId opcode : UInt16} {payload : Bytes}
    (decoded : decodePayload msg = some (serviceId, opcode, payload)) :
    payload.length + RpcRequestHeader.size ≤ msg.payload.length := by
  rw [decodePayload, RpcInstance.ofMessage] at decoded
  split at decoded
  next ok inst validated =>
    split at decoded
    · next accepted =>
        rw [accepted] at validated
        have first : (RpcInstance.make msg.payload
            (Int32.ofNat msg.payload.length)).validateRequest.1 = true := by rw [validated]
        obtain ⟨long, _⟩ := (RpcInstance.validateRequest_accepts msg.payload).mp first
        obtain ⟨_, _, body⟩ := RpcInstance.validateRequest_payload first
        have seen : RpcInstance.seenSize msg.payload ≤ msg.payload.length := Nat.mod_le _ _
        rw [validated] at body
        simp only [Option.some.injEq, Prod.mk.injEq] at decoded
        rw [← decoded.2.2, body, List.length_take, List.length_drop]
        omega
    · cases decoded

/-! ### The frame of a request -/

section Frame

variable (serviceId opcode : UInt16) (payload : Bytes)

/-- The receiving side with the frame in its buffer. -/
def arrivedFrame : IOBound :=
  { IOBound.fresh with buffer := Buffer.empty.append (requestFrame serviceId opcode payload) }

theorem data_arrivedFrame :
    (arrivedFrame serviceId opcode payload).buffer.data =
      (requestFrame serviceId opcode payload).netStr := by
  have empty : Buffer.empty.data = [] := rfl
  rw [arrivedFrame, Buffer.data_append, empty, List.nil_append]

theorem length_requestFrame :
    (requestFrame serviceId opcode payload).payload.length =
      RpcRequestHeader.size + payload.length :=
  RpcRequestMessage.length_netStr _

theorem toNat_length_requestFrame :
    (requestFrame serviceId opcode payload).header.length.toNat =
      (RpcRequestHeader.size + payload.length) % 2 ^ 32 := by
  rw [← length_requestFrame serviceId opcode payload]
  exact UInt32.toNat_ofNat'

/-- The number of bytes of the frame on the wire. -/
def frameSize : Nat := Header.size + (RpcRequestHeader.size + payload.length)

theorem getLength_arrivedFrame :
    (arrivedFrame serviceId opcode payload).buffer.getLength.toNat =
      frameSize payload % 2 ^ 32 := by
  rw [Buffer.getLength, UInt32.toNat_ofNat', data_arrivedFrame, Message.length_netStr,
    length_requestFrame, frameSize]

theorem header_arrivedFrame :
    (arrivedFrame serviceId opcode payload).headerRead.header =
      (requestFrame serviceId opcode payload).header := by
  have read := Header.fromNetEndian_toNetEndian (requestFrame serviceId opcode payload).header []
  rw [List.append_nil] at read
  simp only [IOBound.headerRead, data_arrivedFrame, Message.netStr,
    List.take_left' (Header.length_toNetEndian _), read]

theorem behind_arrivedFrame :
    (arrivedFrame serviceId opcode payload).headerRead.buffer.data =
      (requestFrame serviceId opcode payload).payload := by
  simp only [IOBound.headerRead, data_arrivedFrame, Message.netStr,
    List.drop_left' (Header.length_toNetEndian _)]

/-- Its payload has arrived as far as the 32-bit sizes tell. -/
theorem whole_arrivedFrame :
    ¬(arrivedFrame serviceId opcode payload).headerRead.buffer.getLength <
      (arrivedFrame serviceId opcode payload).headerRead.header.length := by
  rw [UInt32.lt_iff_toNat_lt, Buffer.getLength, UInt32.toNat_ofNat', behind_arrivedFrame,
    header_arrivedFrame, toNat_length_requestFrame, length_requestFrame]
  exact lt_irrefl _

/-- The frame's header passes the checks exactly when the limit admits the request. -/
theorem admitted_requestFrame {limit : UInt32} :
    AdmittedHeader limit (requestFrame serviceId opcode payload).header ↔
      limit = 0 ∨ (RpcRequestHeader.size + payload.length) % 2 ^ 32 ≤ limit.toNat := by
  rw [AdmittedHeader, UInt32.le_iff_toNat_le, toNat_length_requestFrame]
  exact ⟨fun all => all.2.2, fun limited => ⟨rfl, rfl, limited⟩⟩

end Frame

/-- Where sizes fit, the payload of the frame decodes to the request. -/
theorem decodePayload_requestFrame (serviceId opcode : UInt16) {payload : Bytes}
    (some : payload ≠ []) (fits : RpcRequestHeader.size + payload.length < 2 ^ 32) (h : Header) :
    decodePayload ⟨h, (requestFrame serviceId opcode payload).payload⟩ =
      Option.some (serviceId, opcode, payload) := by
  have length := length_requestFrame serviceId opcode payload
  have positive := List.length_pos_iff.mpr some
  have seen : RpcInstance.seenSize (requestFrame serviceId opcode payload).payload =
      RpcRequestHeader.size + payload.length := by
    rw [RpcInstance.seenSize, length, Nat.mod_eq_of_lt fits]
  have header : RpcInstance.requestHeader (requestFrame serviceId opcode payload).payload =
      (RpcRequestMessage.make serviceId opcode payload).header := by
    have read := RpcRequestHeader.fromNetEndian_toNetEndian
      (RpcRequestMessage.make serviceId opcode payload).header []
    rw [List.append_nil] at read
    rw [RpcInstance.requestHeader, requestFrame, Message.ofPayload, RpcRequestMessage.netStr,
      List.take_left' (RpcRequestHeader.length_toNetEndian _), read]
  have body : (requestFrame serviceId opcode payload).payload.drop RpcRequestHeader.size = payload :=
    List.drop_left' (RpcRequestHeader.length_toNetEndian _)
  have accepted := (RpcInstance.validateRequest_accepts
    (requestFrame serviceId opcode payload).payload).mpr
    ⟨by omega, by rw [header]; exact ⟨rfl, rfl⟩⟩
  obtain ⟨service, operation, request⟩ := RpcInstance.validateRequest_payload accepted
  rw [decodePayload, RpcInstance.ofMessage]
  rw [seen, body, header, Nat.add_sub_cancel_left, List.take_length] at request
  rw [header] at service operation
  simp only [accepted, if_true, service, operation, request]
  rfl

/-- A request comes out as it went in exactly when its frame is smaller than
2^32 bytes and the receiver's limit admits it. -/
theorem throughStack_iff (limit : UInt32) (serviceId opcode : UInt16) {payload : Bytes}
    (some : payload ≠ []) :
    throughStack limit serviceId opcode payload = Option.some (serviceId, opcode, payload) ↔
      frameSize payload < 2 ^ 32 ∧
        (limit = 0 ∨ RpcRequestHeader.size + payload.length ≤ limit.toNat) := by
  have unfolded : throughStack limit serviceId opcode payload =
      decodeRequest limit (arrivedFrame serviceId opcode payload) := rfl
  have length := getLength_arrivedFrame serviceId opcode payload
  have header := header_arrivedFrame serviceId opcode payload
  have limited := @admitted_requestFrame serviceId opcode payload limit
  have size : frameSize payload = Header.size + (RpcRequestHeader.size + payload.length) := rfl
  have sizes : Header.size = 16 := rfl
  rw [unfolded]
  by_cases short : frameSize payload % 2 ^ 32 < Header.size
  · rw [decodeRequest_short (by rw [length]; exact short)]
    constructor
    · intro decoded
      cases decoded
    · intro fits
      rw [Nat.mod_eq_of_lt fits.1] at short
      omega
  · have enough : Header.size ≤ (arrivedFrame serviceId opcode payload).buffer.getLength.toNat := by
      rw [length]
      exact Nat.not_lt.mp short
    by_cases admitted : AdmittedHeader limit (requestFrame serviceId opcode payload).header
    · have known := admitted
      rw [← header] at known
      rw [decodeRequest_whole enough known (whole_arrivedFrame serviceId opcode payload), header,
        toNat_length_requestFrame, behind_arrivedFrame]
      have bound := limited.mp admitted
      constructor
      · intro decoded
        have shorter := decodePayload_some decoded
        rw [List.length_take] at shorter
        have small : RpcRequestHeader.size + payload.length < 2 ^ 32 := by
          have less := Nat.mod_lt (RpcRequestHeader.size + payload.length)
            (Nat.two_pow_pos 32)
          omega
        rw [Nat.mod_eq_of_lt small] at bound
        refine ⟨?_, bound⟩
        omega
      · intro fits
        have small : RpcRequestHeader.size + payload.length < 2 ^ 32 := by omega
        rw [Nat.mod_eq_of_lt small, ← length_requestFrame serviceId opcode payload,
          List.take_length]
        exact decodePayload_requestFrame serviceId opcode some small _
    · have refused := admitted
      rw [← header] at refused
      rw [decodeRequest_refused enough refused]
      constructor
      · intro decoded
        cases decoded
      · intro fits
        have small : RpcRequestHeader.size + payload.length < 2 ^ 32 := by omega
        rw [limited, Nat.mod_eq_of_lt small] at admitted
        exact absurd fits.2 admitted

/-- The four bytes a request begins with. -/
def requestMagic : Bytes := [0x74, 0x72, 0x00, 0x01]

/-- Validation accepts exactly the strings of at least 17 bytes that begin with
magic and version, unless the 32-bit size of a longer one comes out below 17. -/
theorem accepts_exactly_iff (str : Bytes) :
    ((RpcInstance.make str (Int32.ofNat str.length)).validateRequest.1 = true ↔
        17 ≤ str.length ∧ str.take 4 = requestMagic) ↔
      str.length < 17 ∨ 17 ≤ str.length % 2 ^ 32 ∨ str.take 4 ≠ requestMagic := by
  have accepts := RpcInstance.validateRequest_accepts str
  have size : RpcRequestHeader.size = 16 := rfl
  rw [RpcInstance.seenSize, size] at accepts
  by_cases short : str.length < 17
  · have seen : str.length % 2 ^ 32 = str.length := Nat.mod_eq_of_lt (by omega)
    rw [accepts, seen]
    constructor
    · intro _
      exact Or.inl short
    · intro _
      constructor
      · intro accepted
        omega
      · intro long
        omega
  · have known := @RpcInstance.known_requestHeader_iff str (by omega)
    rw [accepts, known, requestMagic]
    constructor
    · intro exactly
      by_cases begins : str.take 4 = [0x74, 0x72, 0x00, 0x01]
      · have accepted := exactly.mpr ⟨by omega, begins⟩
        exact Or.inr (Or.inl accepted.1)
      · exact Or.inr (Or.inr begins)
    · intro whole
      constructor
      · intro accepted
        exact ⟨by omega, accepted.2⟩
      · intro long
        obtain less | seen | begins := whole
        · exact absurd less short
        · exact ⟨seen, long.2⟩
        · exact absurd long.2 begins

/-- The codecs are mutually inverse as far as sizes fit 32 bits: when a request
survives the whole stack, which strings validation accepts, and that responses
and strings of at least 17 bytes are in bijection. -/
theorem codecs_inverse_iff (limit : UInt32) (serviceId opcode : UInt16) {payload : Bytes}
    (some : payload ≠ []) (str : Bytes) (response : RpcResponseMessage) :
    (throughStack limit serviceId opcode payload = Option.some (serviceId, opcode, payload) ↔
        frameSize payload < 2 ^ 32 ∧
          (limit = 0 ∨ RpcRequestHeader.size + payload.length ≤ limit.toNat)) ∧
      (((RpcInstance.make str (Int32.ofNat str.length)).validateRequest.1 = true ↔
          17 ≤ str.length ∧ str.take 4 = requestMagic) ↔
        str.length < 17 ∨ 17 ≤ str.length % 2 ^ 32 ∨ str.take 4 ≠ requestMagic) ∧
      RpcResponseMessage.parse response.netStr = Option.some response ∧
      (17 ≤ str.length →
        (RpcResponseMessage.parse str).map RpcResponseMessage.netStr = Option.some str) ∧
      (str.length < 17 → RpcResponseMessage.parse str = none) := by
  refine ⟨throughStack_iff limit serviceId opcode some, accepts_exactly_iff str,
    RpcResponseMessage.parse_netStr response, ?_, ?_⟩
  · exact RpcResponseMessage.netStr_parse
  · exact RpcResponseMessage.parse_short

theorem codecs_inverse_one_byte :
    bytes "a" ≠ [] ∧
      throughStack 0 1 2 (bytes "a") = Option.some (1, 2, bytes "a") := by
  have some : bytes "a" ≠ [] := by decide
  exact ⟨some, (codecs_inverse_iff 0 1 2 some [] RpcResponseMessage.empty).1.mpr (by decide)⟩

/-- A payload of 2^32 bytes: the length field of its message says 16. -/
theorem oversized_request_truncated :
    List.replicate (2 ^ 32) (0 : UInt8) ≠ [] ∧
      throughStack 0 1 2 (List.replicate (2 ^ 32) 0) ≠
        Option.some (1, 2, List.replicate (2 ^ 32) 0) := by
  have some : List.replicate (2 ^ 32) (0 : UInt8) ≠ [] := by
    intro none
    have length := congrArg List.length none
    rw [List.length_replicate, List.length_nil] at length
    exact absurd length (by decide)
  refine ⟨some, fun decoded => ?_⟩
  have fits := ((throughStack_iff 0 1 2 some).mp decoded).1
  rw [frameSize, List.length_replicate] at fits
  omega

end Heracles.Rpc
