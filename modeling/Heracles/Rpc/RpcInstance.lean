import Heracles.Core.Buffer
import Heracles.Rpc.RpcMessage

/-!
A request on its way through the server.

An instance holds the payload of a message. `validateRequest` takes the header
out of it and then as many bytes as the message had beyond the header; that
number is kept as an `int` and handed on as an unsigned 32-bit size.
`validateRequest_fst` says which strings it accepts.
-/

namespace Heracles.Rpc

open Heracles.Base
open Heracles.Core

structure RpcInstance where
  request : Buffer
  rpcRequestMessage : RpcRequestMessage
  msgSize : Int32
  serviceId : UInt16
  opcode : UInt16
  deriving DecidableEq, Repr

namespace RpcInstance

/-- The instance for a message payload; service and operation are -1 until the
request has been validated. -/
def make (strRequest : Bytes) (msgSize : Int32) : RpcInstance where
  request := ⟨strRequest⟩
  rpcRequestMessage := RpcRequestMessage.empty
  msgSize := msgSize
  serviceId := 0xffff
  opcode := 0xffff

/-- The instance the connection makes for a message it has received. -/
def ofMessage (msg : Message) : RpcInstance := make msg.payload (Int32.ofNat msg.payload.length)

/-- The header names the request protocol. -/
def Known (h : RpcRequestHeader) : Prop := h.magic = kRpcHeaderMagic ∧ h.version = kRpcHeaderVersion

instance (h : RpcRequestHeader) : Decidable (Known h) := inferInstanceAs (Decidable (_ ∧ _))

/-- Take the request apart; `false` leaves what has been consumed consumed. -/
def validateRequest (r : RpcInstance) : Bool × RpcInstance :=
  if r.request.getLength.toNat < RpcRequestHeader.size then (false, r)
  else
    let (_, headStr, request) := r.request.consume [] (UInt32.ofNat RpcRequestHeader.size)
    let header := RpcRequestHeader.fromNetEndian headStr
    let r := { r with request := request }
    if ¬Known header then (false, r)
    else
      let r := { r with serviceId := header.serviceId, opcode := header.opcode }
      let (_, msgStr, request) :=
        r.request.consume [] (r.msgSize.toUInt32 - UInt32.ofNat RpcRequestHeader.size)
      let r := { r with request := request }
      if msgStr = [] then (false, r)
      else (true, { r with rpcRequestMessage := ⟨header, msgStr⟩ })

/-- The answer of the service. -/
def replyRpcMessage (r : RpcInstance) (msg : Bytes) : Message :=
  Message.ofPayload (RpcResponseMessage.make r.serviceId r.opcode msg).netStr

/-- The answer when no service has taken the request. -/
def reject (status : RpcResponseStatus) : Message :=
  Message.ofPayload (RpcResponseMessage.ofStatus status).netStr

/-! ### What is accepted -/

/-- The header at the front of a request. -/
def requestHeader (str : Bytes) : RpcRequestHeader :=
  RpcRequestHeader.fromNetEndian (str.take RpcRequestHeader.size)

/-- The size of a payload as the instance sees it. -/
def seenSize (str : Bytes) : Nat := str.length % 2 ^ 32

theorem toNat_getLength_make (str : Bytes) (msgSize : Int32) :
    (make str msgSize).request.getLength.toNat = seenSize str := UInt32.toNat_ofNat'

/-- The number of bytes taken behind the header. -/
theorem toNat_bodySize {str : Bytes} (enough : RpcRequestHeader.size ≤ seenSize str) :
    ((Int32.ofNat str.length).toUInt32 - UInt32.ofNat RpcRequestHeader.size).toNat =
      seenSize str - RpcRequestHeader.size := by
  have size : (Int32.ofNat str.length).toUInt32.toNat = seenSize str := UInt32.toNat_ofNat'
  have header : (UInt32.ofNat RpcRequestHeader.size).toNat = RpcRequestHeader.size := rfl
  rw [UInt32.toNat_sub_of_le, size, header]
  rw [UInt32.le_iff_toNat_le, size, header]
  exact enough

/-- What validating a payload gives. -/
theorem validateRequest_make (str : Bytes) :
    (make str (Int32.ofNat str.length)).validateRequest =
      if seenSize str < RpcRequestHeader.size then (false, make str (Int32.ofNat str.length))
      else if ¬Known (requestHeader str) then
        (false, make (str.drop RpcRequestHeader.size) (Int32.ofNat str.length))
      else
        let body := (str.drop RpcRequestHeader.size).take (seenSize str - RpcRequestHeader.size)
        let rest := (str.drop RpcRequestHeader.size).drop (seenSize str - RpcRequestHeader.size)
        let r : RpcInstance :=
          { make rest (Int32.ofNat str.length) with
            serviceId := (requestHeader str).serviceId
            opcode := (requestHeader str).opcode }
        if body = [] then (false, r)
        else (true, { r with rpcRequestMessage := ⟨requestHeader str, body⟩ }) := by
  by_cases short : seenSize str < RpcRequestHeader.size
  · rw [validateRequest, toNat_getLength_make, if_pos short, if_pos short]
  · have enough := Nat.not_lt.mp short
    have header := Buffer.consume_fresh (make str (Int32.ofNat str.length)).request
      (UInt32.ofNat RpcRequestHeader.size)
    have size : (UInt32.ofNat RpcRequestHeader.size).toNat = RpcRequestHeader.size := rfl
    rw [size] at header
    rw [validateRequest, toNat_getLength_make, if_neg short, if_neg short]
    simp only [header, Buffer.consume_fresh]
    by_cases known : Known (requestHeader str)
    · refine (if_neg (not_not.mpr known)).trans ?_
      rw [if_neg (not_not.mpr known)]
      simp only [make, toNat_bodySize enough]
      rfl
    · rw [if_pos known]
      exact if_pos known

/-- A payload is accepted when its seen size goes beyond a header and its header
names the protocol. -/
theorem validateRequest_accepts (str : Bytes) :
    (make str (Int32.ofNat str.length)).validateRequest.1 = true ↔
      RpcRequestHeader.size < seenSize str ∧ Known (requestHeader str) := by
  have seen : seenSize str ≤ str.length := Nat.mod_le _ _
  rw [validateRequest_make]
  by_cases short : seenSize str < RpcRequestHeader.size
  · rw [if_pos short]
    constructor
    · intro accepted
      cases accepted
    · intro accepted
      omega
  · rw [if_neg short]
    by_cases known : Known (requestHeader str)
    · rw [if_neg (not_not.mpr known)]
      have body : (str.drop RpcRequestHeader.size).take (seenSize str - RpcRequestHeader.size) = []
          ↔ seenSize str = RpcRequestHeader.size := by
        rw [← List.length_eq_zero_iff, List.length_take, List.length_drop]
        omega
      simp only [body]
      split
      · next none => simp [none]
      · next some =>
          constructor
          · intro _
            exact ⟨by omega, known⟩
          · intro _
            rfl
    · rw [if_pos known]
      constructor
      · intro accepted
        cases accepted
      · intro accepted
        exact absurd accepted.2 known

/-- A validated request has the header's numbers and the bytes behind it. -/
theorem validateRequest_payload {str : Bytes}
    (accepted : (make str (Int32.ofNat str.length)).validateRequest.1 = true) :
    let r := (make str (Int32.ofNat str.length)).validateRequest.2
    r.serviceId = (requestHeader str).serviceId ∧ r.opcode = (requestHeader str).opcode ∧
      r.rpcRequestMessage = ⟨requestHeader str,
        (str.drop RpcRequestHeader.size).take (seenSize str - RpcRequestHeader.size)⟩ := by
  obtain ⟨long, known⟩ := (validateRequest_accepts str).mp accepted
  rw [validateRequest_make, if_neg (by omega), if_neg (not_not.mpr known)] at accepted ⊢
  simp only at accepted ⊢
  split at accepted
  · cases accepted
  · next some =>
      rw [if_neg some]
      exact ⟨rfl, rfl, rfl⟩

theorem ofWord16_eq_iff {raw : Bytes} (length : raw.length = 2) (n : UInt16) :
    ofWord16 raw = n ↔ raw = word16 n := by
  constructor
  · intro same
    rw [← same, word16_ofWord16 length]
  · intro same
    rw [same, ofWord16_word16]

/-- The header is known exactly when the string begins with its four bytes. -/
theorem known_requestHeader_iff {str : Bytes} (enough : 4 ≤ str.length) :
    Known (requestHeader str) ↔ str.take 4 = [0x74, 0x72, 0x00, 0x01] := by
  have magic : (str.take 2).length = 2 := List.length_take_of_le (by omega)
  have version : ((str.drop 2).take 2).length = 2 :=
    List.length_take_of_le (by rw [List.length_drop]; omega)
  have fields : Known (requestHeader str) ↔
      ofWord16 (str.take 2) = kRpcHeaderMagic ∧
        ofWord16 ((str.drop 2).take 2) = kRpcHeaderVersion := by
    rw [Known, requestHeader]
    simp only [RpcRequestHeader.fromNetEndian, RpcRequestHeader.size, List.take_take,
      List.drop_take]
    rfl
  have four : str.take 4 = str.take 2 ++ (str.drop 2).take 2 := List.take_add (i := 2) (j := 2)
  rw [fields, ofWord16_eq_iff magic, ofWord16_eq_iff version, four]
  constructor
  · intro both
    rw [both.1, both.2]
    decide
  · intro whole
    have split : ([0x74, 0x72, 0x00, 0x01] : Bytes) =
        word16 kRpcHeaderMagic ++ word16 kRpcHeaderVersion := by decide
    rw [split] at whole
    exact List.append_inj whole (by rw [magic, length_word16])

end RpcInstance

end Heracles.Rpc
