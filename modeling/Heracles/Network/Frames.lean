import Heracles.Base.Decoder
import Heracles.Network.NetConn

/-!
The frames of a byte stream.

`parse` reads a whole stream the way the format is meant: a header, its payload,
and so on, until a header is refused or a frame is incomplete. `frames` is the
same format as a decoder by demand, and `parse_eq_drain` says that draining it is
parsing.
-/

namespace Heracles.Network

open Heracles.Base
open Heracles.Core

inductive Ending where
  | waiting
  | refused
  deriving DecidableEq, Repr

structure Parsed where
  payloads : List Bytes
  ending : Ending
  deriving DecidableEq, Repr

/-- The header at the front of the input. -/
def frontHeader (input : Bytes) : Header := Header.fromNetEndian (input.take Header.size)

/-- The payloads of a stream, up to the first header refused or the first frame
that is incomplete. -/
def parse (limit : UInt32) (stream : Bytes) : Parsed :=
  if _short : stream.length < Header.size then ⟨[], .waiting⟩
  else if ¬AdmittedHeader limit (frontHeader stream) then ⟨[], .refused⟩
  else
    let length := (frontHeader stream).length.toNat
    if (stream.drop Header.size).length < length then ⟨[], .waiting⟩
    else
      let rest := parse limit ((stream.drop Header.size).drop length)
      ⟨(stream.drop Header.size).take length :: rest.payloads, rest.ending⟩
  termination_by stream.length
  decreasing_by
    simp only [List.length_drop, Header.size] at _short ⊢
    omega

/-- Where a receiver is: before a header, or before a payload of known length. -/
inductive Phase where
  | header
  | body (length : UInt32)
  deriving DecidableEq, Repr

/-- The format as a decoder by demand. -/
def frames (limit : UInt32) : Decoder UInt8 Phase Bytes where
  need
    | .header => Header.size
    | .body length => length.toNat
  accept
    | .header, raw =>
        let header := Header.fromNetEndian raw
        if AdmittedHeader limit header then some ([], .body header.length) else none
    | .body _, raw => some ([raw], .header)
  leaves := by
    intro p emitted q idle accepted
    cases p with
    | header => cases idle
    | body length =>
        simp only [Option.some.injEq, Prod.mk.injEq] at accepted
        rw [← accepted.2]
        decide

section Frames

variable {limit : UInt32} {input : Bytes}

theorem drain_header_short (short : input.length < Header.size) :
    (frames limit).drain .header input = ⟨[], some .header, input⟩ :=
  Decoder.drain_short (d := frames limit) short

theorem drain_header_refused (enough : Header.size ≤ input.length)
    (refused : ¬AdmittedHeader limit (frontHeader input)) :
    (frames limit).drain .header input = ⟨[], none, input.drop Header.size⟩ :=
  Decoder.drain_reject (d := frames limit) enough (if_neg refused)

theorem drain_header_admitted (enough : Header.size ≤ input.length)
    (admitted : AdmittedHeader limit (frontHeader input)) :
    (frames limit).drain .header input =
      (frames limit).drain (.body (frontHeader input).length) (input.drop Header.size) :=
  Decoder.drain_accept (d := frames limit) (p := .header) enough (if_pos admitted)

theorem drain_body_short {length : UInt32} (short : input.length < length.toNat) :
    (frames limit).drain (.body length) input = ⟨[], some (.body length), input⟩ :=
  Decoder.drain_short (d := frames limit) short

theorem drain_body {length : UInt32} (enough : length.toNat ≤ input.length) :
    (frames limit).drain (.body length) input =
      ((frames limit).drain .header (input.drop length.toNat)).prepend
        [input.take length.toNat] :=
  Decoder.drain_accept (d := frames limit) (p := .body length) enough rfl

end Frames

def Phase.ending : Option Phase → Ending
  | some _ => .waiting
  | none => .refused

/-- Draining the decoder parses the stream. -/
theorem parse_eq_drain (limit : UInt32) (stream : Bytes) :
    parse limit stream =
      ⟨((frames limit).drain .header stream).emitted,
        Phase.ending ((frames limit).drain .header stream).phase⟩ := by
  induction stream using parse.induct limit with
  | case1 stream short =>
      rw [parse, dif_pos short, drain_header_short short]
      rfl
  | case2 stream enough refused =>
      rw [parse, dif_neg enough, if_pos refused,
        drain_header_refused (Nat.not_lt.mp enough) refused]
      rfl
  | case3 stream enough admitted length short =>
      rw [parse, dif_neg enough, if_neg admitted, if_pos short,
        drain_header_admitted (Nat.not_lt.mp enough) (not_not.mp admitted), drain_body_short short]
      rfl
  | case4 stream enough admitted length whole ih =>
      rw [parse, dif_neg enough, if_neg admitted, if_neg whole,
        drain_header_admitted (Nat.not_lt.mp enough) (not_not.mp admitted),
        drain_body (Nat.not_lt.mp whole)]
      exact congrArg (fun rest : Parsed => Parsed.mk (_ :: rest.payloads) rest.ending) ih

section OfPayload

variable {limit : UInt32} {data : Bytes}

theorem frontHeader_ofPayload (rest : Bytes) :
    frontHeader ((Message.ofPayload data).netStr ++ rest) = (Message.ofPayload data).header := by
  rw [frontHeader, Message.netStr, List.append_assoc, List.take_left' (by simp)]
  have alone := Header.fromNetEndian_toNetEndian (Message.ofPayload data).header []
  rwa [List.append_nil] at alone

theorem behind_ofPayload (rest : Bytes) :
    ((Message.ofPayload data).netStr ++ rest).drop Header.size = data ++ rest := by
  rw [Message.netStr, List.append_assoc, List.drop_left' (by simp)]
  rfl

theorem length_ofPayload (fits : data.length < 2 ^ 32) :
    (Message.ofPayload data).header.length.toNat = data.length := UInt32.toNat_ofNat_of_lt fits

theorem admitted_ofPayload (fits : data.length < 2 ^ 32) :
    AdmittedHeader limit (Message.ofPayload data).header ↔
      limit = 0 ∨ data.length ≤ limit.toNat := by
  rw [AdmittedHeader, UInt32.le_iff_toNat_le, length_ofPayload fits]
  constructor
  · intro admitted
    exact admitted.2.2
  · intro within
    exact ⟨rfl, rfl, within⟩

theorem enough_ofPayload (rest : Bytes) :
    Header.size ≤ ((Message.ofPayload data).netStr ++ rest).length := by
  rw [List.length_append, Message.length_netStr]
  omega

/-- What a sender writes is one frame: its payload comes first, then the frames
of what follows. -/
theorem drain_ofPayload (rest : Bytes) (fits : data.length < 2 ^ 32)
    (admitted : limit = 0 ∨ data.length ≤ limit.toNat) :
    (frames limit).drain .header ((Message.ofPayload data).netStr ++ rest) =
      ((frames limit).drain .header rest).prepend [data] := by
  rw [drain_header_admitted (enough_ofPayload rest)
      (by rw [frontHeader_ofPayload]; exact (admitted_ofPayload fits).mpr admitted),
    frontHeader_ofPayload, behind_ofPayload,
    drain_body (by rw [length_ofPayload fits, List.length_append]; omega), length_ofPayload fits,
    List.take_left, List.drop_left]

theorem drain_ofPayload_refused (rest : Bytes) (fits : data.length < 2 ^ 32)
    (refused : ¬(limit = 0 ∨ data.length ≤ limit.toNat)) :
    (frames limit).drain .header ((Message.ofPayload data).netStr ++ rest) =
      ⟨[], none, data ++ rest⟩ := by
  rw [drain_header_refused (enough_ofPayload rest)
    (by rw [frontHeader_ofPayload]; exact fun admitted =>
      refused ((admitted_ofPayload fits).mp admitted)), behind_ofPayload]

theorem parse_ofPayload (rest : Bytes) (fits : data.length < 2 ^ 32)
    (admitted : limit = 0 ∨ data.length ≤ limit.toNat) :
    parse limit ((Message.ofPayload data).netStr ++ rest) =
      ⟨data :: (parse limit rest).payloads, (parse limit rest).ending⟩ := by
  rw [parse_eq_drain, parse_eq_drain, drain_ofPayload rest fits admitted]
  rfl

end OfPayload

end Heracles.Network
