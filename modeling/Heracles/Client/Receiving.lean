import Heracles.Client.TcpConnSync
import Heracles.Network.Framing

/-!
Repeated blocking calls return the frames of the stream.

`readHeader_spec` and `readBody_spec` say what the two read loops leave behind:
the bytes in the buffer and the undelivered ones are still those of the stream,
and the amount asked for is at hand. One call then takes the first frame of what
remains (`recv_cases`), so `n` calls return its first `n` payloads.
-/

namespace Heracles.Client

open Heracles.Base
open Heracles.Core
open Heracles.Network

namespace TcpConnSync

/-- What of the stream has not been parsed yet. -/
def remaining (c : TcpConnSync) (s : Socket) : Bytes := c.recvBound.buffer.data ++ s.undelivered

/-- A read in between keeps the rest of the stream and all that is not the
receive buffer. -/
structure Reads (c : TcpConnSync) (s : Socket) (c' : TcpConnSync) (s' : Socket) : Prop where
  remaining : c'.remaining s' = c.remaining s
  header : c'.recvBound.header = c.recvBound.header
  working : c'.connStat = c.connStat
  setting : c'.clientSetting = c.clientSetting
  sending : c'.sendBound = c.sendBound

/-- A buffer small enough for its 32-bit size. -/
def Small (c : TcpConnSync) : Prop := c.recvBound.buffer.data.length < 2 ^ 31 + 2048

theorem Small.fits {c : TcpConnSync} (small : Small c) :
    c.recvBound.buffer.data.length < 2 ^ 32 := lt_trans small (by decide)

theorem Reads.refl (c : TcpConnSync) (s : Socket) : Reads c s c s := ⟨rfl, rfl, rfl, rfl, rfl⟩

theorem Reads.trans {c c' c'' : TcpConnSync} {s s' s'' : Socket} (first : Reads c s c' s')
    (second : Reads c' s' c'' s'') : Reads c s c'' s'' :=
  ⟨second.remaining.trans first.remaining, second.header.trans first.header,
    second.working.trans first.working, second.setting.trans first.setting,
    second.sending.trans first.sending⟩

theorem reads_received {c : TcpConnSync} {s after : Socket} {atLeast : Nat} {chunk : Bytes}
    (completed : s.read atLeast = some (chunk, after)) : Reads c s (c.received chunk) after := by
  obtain ⟨front, _⟩ := Socket.read_some completed
  refine ⟨?_, rfl, rfl, rfl, rfl⟩
  rw [TcpConnSync.remaining, TcpConnSync.remaining, front, received, IOBound.absorb_fill,
    List.append_assoc]

/-- What a read loop that asks for `need` bytes ends in: blocked with a stream
that holds fewer, or with that many in the buffer. -/
def ReadsUntil (need : Nat) (c : TcpConnSync) (s : Socket) : Option (TcpConnSync × Socket) → Prop
  | none => (c.remaining s).length < need
  | some (c', s') => Reads c s c' s' ∧ Small c' ∧ need ≤ c'.recvBound.buffer.data.length

theorem ReadsUntil.after {need : Nat} {c c' : TcpConnSync} {s s' : Socket} (first : Reads c s c' s')
    {r : Option (TcpConnSync × Socket)} (second : ReadsUntil need c' s' r) :
    ReadsUntil need c s r := by
  cases r with
  | none =>
      rw [ReadsUntil, ← first.remaining]
      exact second
  | some result => exact ⟨first.trans second.1, second.2⟩

/-- A loop that is blocked holds fewer bytes than it needs and the socket has
not the rest. -/
theorem ReadsUntil.blocked {need atLeast : Nat} {c : TcpConnSync} {s : Socket}
    (blocked : s.read atLeast = none)
    (enough : c.recvBound.buffer.data.length + atLeast ≤ need) : ReadsUntil need c s none := by
  have few := Socket.read_none.mp blocked
  rw [ReadsUntil, remaining, List.length_append]
  omega

theorem small_received {c : TcpConnSync} {s after : Socket} {atLeast : Nat} {chunk : Bytes}
    (completed : s.read atLeast = some (chunk, after)) (block : atLeast ≤ kFixedIoBufferSize)
    (short : c.recvBound.buffer.data.length < 2 ^ 31) : Small (c.received chunk) := by
  obtain ⟨_, _, upper⟩ := Socket.read_some completed
  rw [max_eq_right block, kFixedIoBufferSize] at upper
  rw [Small, received, IOBound.absorb_fill, List.length_append]
  omega

theorem readHeader_spec {c : TcpConnSync} {s : Socket} (small : Small c) :
    ReadsUntil Header.size c s (readHeader c s) := by
  induction c, s using readHeader.induct with
  | case1 c s bytesRead short completed =>
      have blocked : readHeader c s = none := by
        rw [readHeader, dif_pos short]
        split
        · rfl
        · next delivered => cases completed.symm.trans delivered
      have size : bytesRead.toNat = c.recvBound.buffer.data.length :=
        Buffer.toNat_getLength small.fits
      rw [blocked]
      exact ReadsUntil.blocked completed (by omega)
  | case2 c s bytesRead short chunk after completed ih =>
      have more : readHeader c s = readHeader (c.received chunk) after := by
        rw [readHeader, dif_pos short]
        split
        · next starved => cases completed.symm.trans starved
        · next delivered =>
            cases completed.symm.trans delivered
            rfl
      have size : bytesRead.toNat = c.recvBound.buffer.data.length :=
        Buffer.toNat_getLength small.fits
      have block : Header.size - bytesRead.toNat ≤ kFixedIoBufferSize :=
        (Nat.sub_le _ _).trans (by decide)
      rw [more]
      refine ReadsUntil.after (reads_received completed) (ih (small_received completed block ?_))
      simp only [Header.size] at short
      omega
  | case3 c s bytesRead enough =>
      have size : bytesRead.toNat = c.recvBound.buffer.data.length :=
        Buffer.toNat_getLength small.fits
      rw [readHeader, dif_neg enough]
      exact ⟨Reads.refl c s, small, by omega⟩

theorem readBody_spec {c : TcpConnSync} {s : Socket} (small : Small c)
    (bounded : c.recvBound.header.length.toNat < 2 ^ 31) :
    ReadsUntil c.recvBound.header.length.toNat c s (readBody c s) := by
  induction c, s using readBody.induct with
  | case1 c s short completed =>
      have size := Buffer.toNat_getLength small.fits
      have requested := toNat_toRead short
      have less := UInt32.lt_iff_toNat_lt.mp short
      have blocked : readBody c s = none := by
        rw [readBody, dif_pos short]
        split
        · rfl
        · next delivered => cases completed.symm.trans delivered
      rw [blocked]
      exact ReadsUntil.blocked completed (by omega)
  | case2 c s short chunk after completed ih =>
      have size := Buffer.toNat_getLength small.fits
      have requested := toNat_toRead short
      have less := UInt32.lt_iff_toNat_lt.mp short
      have more : readBody c s = readBody (c.received chunk) after := by
        rw [readBody, dif_pos short]
        split
        · next starved => cases completed.symm.trans starved
        · next delivered =>
            cases completed.symm.trans delivered
            rfl
      have block : c.toRead.toNat ≤ kFixedIoBufferSize := by omega
      rw [more]
      exact ReadsUntil.after (reads_received completed)
        (ih (small_received completed block (by omega)) bounded)
  | case3 c s enough =>
      have size := Buffer.toNat_getLength small.fits
      have arrived := mt UInt32.lt_iff_toNat_lt.mpr enough
      rw [readBody, dif_neg enough]
      exact ⟨Reads.refl c s, small, by omega⟩

/-! ### One call -/

def recvLimit (c : TcpConnSync) : UInt32 := c.clientSetting.recvMaxMsgSize

/-- A connection that can go on receiving. -/
structure Open (limit : UInt32) (c : TcpConnSync) : Prop where
  working : c.connStat = .kWorking
  limited : c.recvLimit = limit
  small : Small c

theorem Reads.open {limit : UInt32} {c c' : TcpConnSync} {s s' : Socket} (reads : Reads c s c' s')
    (ready : Open limit c) (small : Small c') : Open limit c' :=
  ⟨reads.working.trans ready.working,
    (congrArg RpcClientSetting.recvMaxMsgSize reads.setting).trans ready.limited, small⟩

/-- What a call does, against the frames of the rest of the stream. -/
def Receives (limit : UInt32) (rest : Bytes) : Option (Bool × Message × TcpConnSync × Socket) → Prop
  | none => parse limit rest = ⟨[], .waiting⟩
  | some (true, msg, c, s) =>
      Open limit c ∧ parse limit rest =
        ⟨msg.payload :: (parse limit (c.remaining s)).payloads, (parse limit (c.remaining s)).ending⟩
  | some (false, _, c, _) => c.connStat = .kClosed ∧ parse limit rest = ⟨[], .refused⟩

/-- With a header at hand, the rest of the stream starts with it. -/
theorem front_remaining {c : TcpConnSync} {s : Socket}
    (enough : Header.size ≤ c.recvBound.buffer.data.length) :
    frontHeader (c.remaining s) = frontHeader c.recvBound.buffer.data ∧
      (c.remaining s).drop Header.size =
        c.recvBound.buffer.data.drop Header.size ++ s.undelivered := by
  constructor
  · rw [frontHeader, remaining, List.take_append_of_le_length enough]
    rfl
  · rw [remaining, List.drop_append_of_le_length enough]

theorem parseHeader_whole {c : TcpConnSync} (small : Small c)
    (enough : Header.size ≤ c.recvBound.buffer.data.length) :
    c.parseHeader =
      (if AdmittedHeader c.recvLimit (frontHeader c.recvBound.buffer.data) then 0 else -1,
        { c with recvBound := c.recvBound.headerRead }) := by
  have size := Buffer.toNat_getLength small.fits
  rw [parseHeader, IOBound.parseHeader_enough (by omega)]
  rfl

/-- After the header of `rest` has been read, `do_read_msg` takes its payload. -/
theorem doReadMsg_receives {limit : UInt32} {c : TcpConnSync} {s : Socket} {rest : Bytes}
    (ready : Open limit c) (bounded : c.recvBound.header.length.toNat < 2 ^ 31)
    (enough : Header.size ≤ rest.length) (admitted : AdmittedHeader limit (frontHeader rest))
    (header : c.recvBound.header = frontHeader rest)
    (body : c.remaining s = rest.drop Header.size) (msg : Message) :
    Receives limit rest (c.doReadMsg s msg) := by
  have read := readBody_spec (s := s) ready.small bounded
  rw [doReadMsg, if_neg (by simp [ready.working])]
  cases outcome : readBody c s with
  | none =>
      rw [outcome, ReadsUntil, body, header] at read
      rw [Receives, parse, dif_neg (Nat.not_lt.mpr enough), if_neg (not_not.mpr admitted)]
      exact if_pos read
  | some result =>
      obtain ⟨c', s'⟩ := result
      rw [outcome] at read
      obtain ⟨reads, small, arrived⟩ := read
      rw [← reads.header] at arrived
      have still := reads.open ready small
      have held : c'.remaining s' = rest.drop Header.size := reads.remaining.trans body
      have length : (frontHeader rest).length = c'.recvBound.header.length := by
        rw [← header, reads.header]
      have size := Buffer.toNat_getLength small.fits
      have whole : ¬c'.recvBound.buffer.getLength < c'.recvBound.header.length := by
        rw [UInt32.lt_iff_toNat_lt]
        omega
      simp only [parseMsgBody, IOBound.parseMsgBody_enough whole, if_true]
      have fits : (c'.recvBound.buffer.data.drop c'.recvBound.header.length.toNat).length <
          2 ^ 31 + 2048 := by
        rw [List.length_drop]
        exact lt_of_le_of_lt (Nat.sub_le _ _) small
      refine ⟨⟨still.working, still.limited, fits⟩, ?_⟩
      have long : ¬(rest.drop Header.size).length < (frontHeader rest).length.toNat := by
        rw [← held, remaining, List.length_append, length]
        omega
      have front : (rest.drop Header.size).take (frontHeader rest).length.toNat =
          c'.recvBound.buffer.data.take c'.recvBound.header.length.toNat := by
        rw [← held, remaining, length, List.take_append_of_le_length arrived]
      have after : (rest.drop Header.size).drop (frontHeader rest).length.toNat =
          c'.recvBound.buffer.data.drop c'.recvBound.header.length.toNat ++ s'.undelivered := by
        rw [← held, remaining, length, List.drop_append_of_le_length arrived]
      rw [parse, dif_neg (Nat.not_lt.mpr enough), if_neg (not_not.mpr admitted)]
      refine (if_neg long).trans ?_
      simp only [front, after]
      rfl

/-- A call takes the first frame of the rest of the stream, if the counters can
hold its length. -/
theorem recvNetMessage_receives_front {limit : UInt32} {c : TcpConnSync} {s : Socket}
    (ready : Open limit c)
    (counted : AdmittedHeader limit (frontHeader (c.remaining s)) →
      (frontHeader (c.remaining s)).length.toNat < 2 ^ 31) (msg : Message) :
    Receives limit (c.remaining s) (c.recvNetMessage s msg) := by
  have read := readHeader_spec (s := s) ready.small
  rw [recvNetMessage, doRead, if_neg (by simp [ready.working])]
  cases outcome : readHeader c s with
  | none =>
      rw [outcome, ReadsUntil] at read
      rw [Receives, parse]
      exact dif_pos read
  | some result =>
      obtain ⟨c', s'⟩ := result
      rw [outcome] at read
      obtain ⟨reads, small, arrived⟩ := read
      have still := reads.open ready small
      rw [← reads.remaining] at counted ⊢
      obtain ⟨front, behind⟩ := front_remaining (s := s') arrived
      have enough : Header.size ≤ (c'.remaining s').length := by
        rw [remaining, List.length_append]
        omega
      simp only [parseHeader_whole small arrived, still.limited, ← front]
      by_cases admitted : AdmittedHeader limit (frontHeader (c'.remaining s'))
      · simp only [if_pos admitted, if_true]
        have fits : Small { c' with recvBound := c'.recvBound.headerRead } := by
          rw [Small, IOBound.headerRead, List.length_drop]
          exact lt_of_le_of_lt (Nat.sub_le _ _) small
        have header : c'.recvBound.headerRead.header = frontHeader (c'.remaining s') := front.symm
        have parsed : Open limit { c' with recvBound := c'.recvBound.headerRead } :=
          ⟨still.working, still.limited, fits⟩
        refine doReadMsg_receives parsed ?_ enough admitted header behind.symm msg
        rw [header]
        exact counted admitted
      · simp only [if_neg admitted]
        refine ⟨rfl, ?_⟩
        rw [parse, dif_neg (Nat.not_lt.mpr enough)]
        exact if_pos admitted

theorem recvNetMessage_receives {limit : UInt32} (bounded : Bounded limit) {c : TcpConnSync}
    {s : Socket} (ready : Open limit c) (msg : Message) :
    Receives limit (c.remaining s) (c.recvNetMessage s msg) :=
  recvNetMessage_receives_front ready (fun admitted => admitted.small bounded) msg

/-! ### A call that succeeds -/

/-- A message has been taken from the front of the rest of the stream. -/
structure Takes (c : TcpConnSync) (s : Socket) (m : Message) (c' : TcpConnSync) (s' : Socket) :
    Prop where
  front : ∃ raw : Bytes, raw.length = Header.size ∧ m.header = Header.fromNetEndian raw ∧
    c.remaining s = raw ++ (m.payload ++ c'.remaining s')
  whole : m.payload.length = m.header.length.toNat
  working : c.connStat = .kWorking
  stat : c'.connStat = c.connStat
  setting : c'.clientSetting = c.clientSetting
  sending : c'.sendBound = c.sendBound

theorem readHeader_some {c c' : TcpConnSync} {s s' : Socket}
    (read : readHeader c s = some (c', s')) :
    Reads c s c' s' ∧ Header.size ≤ c'.recvBound.buffer.getLength.toNat := by
  induction c, s using readHeader.induct with
  | case1 c s bytesRead short completed =>
      rw [readHeader, dif_pos short] at read
      split at read
      · cases read
      · next delivered => cases completed.symm.trans delivered
  | case2 c s bytesRead short chunk after completed ih =>
      rw [readHeader, dif_pos short] at read
      split at read
      · cases read
      · next delivered =>
          cases completed.symm.trans delivered
          obtain ⟨reads, enough⟩ := ih read
          exact ⟨(reads_received completed).trans reads, enough⟩
  | case3 c s bytesRead enough =>
      rw [readHeader, dif_neg enough] at read
      cases read
      exact ⟨Reads.refl _ _, Nat.not_lt.mp enough⟩

theorem readBody_some {c c' : TcpConnSync} {s s' : Socket} (read : readBody c s = some (c', s')) :
    Reads c s c' s' ∧ ¬c'.recvBound.buffer.getLength < c'.recvBound.header.length := by
  induction c, s using readBody.induct with
  | case1 c s short completed =>
      rw [readBody, dif_pos short] at read
      split at read
      · cases read
      · next delivered => cases completed.symm.trans delivered
  | case2 c s short chunk after completed ih =>
      rw [readBody, dif_pos short] at read
      split at read
      · cases read
      · next delivered =>
          cases completed.symm.trans delivered
          obtain ⟨reads, enough⟩ := ih read
          exact ⟨(reads_received completed).trans reads, enough⟩
  | case3 c s enough =>
      rw [readBody, dif_neg enough] at read
      cases read
      exact ⟨Reads.refl _ _, enough⟩

theorem doReadMsg_true {c c' : TcpConnSync} {s s' : Socket} {msg m : Message}
    (done : c.doReadMsg s msg = some (true, m, c', s')) :
    c.remaining s = m.payload ++ c'.remaining s' ∧ m.header = c.recvBound.header ∧
      m.payload.length = m.header.length.toNat ∧ c'.connStat = c.connStat ∧
      c'.clientSetting = c.clientSetting ∧ c'.sendBound = c.sendBound := by
  rw [doReadMsg] at done
  split at done
  · cases done
  · cases outcome : readBody c s with
    | none =>
        rw [outcome] at done
        cases done
    | some result =>
        obtain ⟨c₁, s₁⟩ := result
        obtain ⟨reads, enough⟩ := readBody_some outcome
        have atHand : c₁.recvBound.header.length.toNat ≤ c₁.recvBound.buffer.data.length :=
          (UInt32.le_iff_toNat_le.mp (UInt32.not_lt.mp enough)).trans (Buffer.toNat_getLength_le _)
        rw [outcome] at done
        simp only [parseMsgBody, IOBound.parseMsgBody_enough enough, if_true, Option.some.injEq,
          Prod.mk.injEq, true_and] at done
        obtain ⟨rfl, rfl, rfl⟩ := done
        refine ⟨?_, reads.header, ?_, reads.working, reads.setting, reads.sending⟩
        · rw [← reads.remaining, remaining, remaining, ← List.append_assoc, List.take_append_drop]
        · rw [List.length_take, min_eq_left atHand]

/-- A call that succeeds has taken one frame, however the network cut the stream. -/
theorem recvNetMessage_true {c c' : TcpConnSync} {s s' : Socket} {msg m : Message}
    (done : c.recvNetMessage s msg = some (true, m, c', s')) : Takes c s m c' s' := by
  rw [recvNetMessage, doRead] at done
  split at done
  · cases done
  · next working =>
      cases outcome : readHeader c s with
      | none =>
          rw [outcome] at done
          cases done
      | some result =>
          obtain ⟨c₁, s₁⟩ := result
          obtain ⟨reads, enough⟩ := readHeader_some outcome
          have atHand : Header.size ≤ c₁.recvBound.buffer.data.length :=
            enough.trans (Buffer.toNat_getLength_le _)
          rw [outcome] at done
          simp only [parseHeader, IOBound.parseHeader_enough enough] at done
          split at done
          · obtain ⟨body, header, whole, stat, setting, sending⟩ := doReadMsg_true done
            refine ⟨⟨c₁.recvBound.buffer.data.take Header.size, ?_, header, ?_⟩, whole,
              not_not.mp working, stat.trans reads.working, setting.trans reads.setting,
              sending.trans reads.sending⟩
            · rw [List.length_take, min_eq_left atHand]
            · rw [← body, ← reads.remaining, remaining, remaining, ← List.append_assoc,
                IOBound.headerRead, List.take_append_drop]
          · cases done

/-- When the stream goes on with the frame of `r`, that is the message taken. -/
theorem Takes.frame {c c' : TcpConnSync} {s s' : Socket} {m r : Message} {rest : Bytes}
    (takes : Takes c s m c' s') (stream : c.remaining s = r.netStr ++ rest)
    (whole : r.payload.length = r.header.length.toNat) : m = r ∧ c'.remaining s' = rest := by
  obtain ⟨raw, length, header, split⟩ := takes.front
  rw [stream, Message.netStr, List.append_assoc] at split
  obtain ⟨same, behind⟩ := List.append_inj split (by rw [length, Header.length_toNetEndian])
  have known : m.header = r.header := by
    rw [header, ← same]
    have alone := Header.fromNetEndian_toNetEndian r.header []
    rwa [List.append_nil] at alone
  have size : r.payload.length = m.payload.length := by rw [whole, takes.whole, known]
  obtain ⟨payload, left⟩ := List.append_inj behind size
  cases m
  cases r
  simp only at known payload
  exact ⟨by rw [known, payload], left.symm⟩

section OfPayload

variable {c : TcpConnSync} {s : Socket} {data rest : Bytes}

theorem receives_ofPayload (working : c.connStat = .kWorking) (small : Small c)
    (short : data.length < 2 ^ 31) (stream : c.remaining s = (Message.ofPayload data).netStr ++ rest)
    (msg : Message) :
    Receives c.recvLimit ((Message.ofPayload data).netStr ++ rest) (c.recvNetMessage s msg) := by
  have fits : data.length < 2 ^ 32 := lt_trans short (by decide)
  rw [← stream]
  refine recvNetMessage_receives_front ⟨working, rfl, small⟩ (fun _ => ?_) msg
  rw [stream, frontHeader_ofPayload, length_ofPayload fits]
  exact short

/-- A frame within the limit is taken as soon as all of it is there. -/
theorem recvNetMessage_admitted (working : c.connStat = .kWorking) (small : Small c)
    (short : data.length < 2 ^ 31) (stream : c.remaining s = (Message.ofPayload data).netStr ++ rest)
    (admitted : c.recvLimit = 0 ∨ data.length ≤ c.recvLimit.toNat) (msg : Message) :
    ∃ c' s', c.recvNetMessage s msg = some (true, Message.ofPayload data, c', s') ∧
      Takes c s (Message.ofPayload data) c' s' ∧ c'.remaining s' = rest := by
  have fits : data.length < 2 ^ 32 := lt_trans short (by decide)
  have receives := receives_ofPayload working small short stream msg
  have parsed := @parse_ofPayload c.recvLimit data rest fits admitted
  cases read : c.recvNetMessage s msg with
  | none =>
      rw [read, Receives, parsed] at receives
      cases receives
  | some result =>
      obtain ⟨ok, netMessage, c', s'⟩ := result
      cases ok with
      | false =>
          rw [read, Receives, parsed] at receives
          cases receives.2
      | true =>
          have takes := recvNetMessage_true read
          obtain ⟨rfl, left⟩ := takes.frame stream (length_ofPayload fits).symm
          exact ⟨c', s', rfl, takes, left⟩

/-- A frame beyond the limit closes the connection. -/
theorem recvNetMessage_refused (working : c.connStat = .kWorking) (small : Small c)
    (short : data.length < 2 ^ 31) (stream : c.remaining s = (Message.ofPayload data).netStr ++ rest)
    (refused : ¬(c.recvLimit = 0 ∨ data.length ≤ c.recvLimit.toNat)) (msg : Message) :
    ∃ m c' s', c.recvNetMessage s msg = some (false, m, c', s') := by
  have fits : data.length < 2 ^ 32 := lt_trans short (by decide)
  have receives := receives_ofPayload working small short stream msg
  have parsed : parse c.recvLimit ((Message.ofPayload data).netStr ++ rest) = ⟨[], .refused⟩ := by
    rw [parse, dif_neg (Nat.not_lt.mpr (enough_ofPayload rest))]
    refine if_pos fun admitted => refused ?_
    rw [frontHeader_ofPayload] at admitted
    exact (admitted_ofPayload fits).mp admitted
  cases read : c.recvNetMessage s msg with
  | none =>
      rw [read, Receives, parsed] at receives
      cases receives
  | some result =>
      obtain ⟨ok, netMessage, c', s'⟩ := result
      cases ok with
      | false => exact ⟨netMessage, c', s', rfl⟩
      | true =>
          rw [read, Receives, parsed] at receives
          cases receives.2

end OfPayload

/-! ### Repeated calls -/

theorem recvMessages_closed {c : TcpConnSync} (closed : c.connStat = .kClosed) (s : Socket)
    (n : Nat) : recvMessages n c s = [] := by
  induction n with
  | zero => rfl
  | succ n ih =>
      have refused : c.recvNetMessage s Message.empty = some (false, Message.empty, c, s) := by
        rw [recvNetMessage, doRead, if_pos (by simp [closed])]
      rw [recvMessages, refused]
      exact ih

/-- `n` calls return the first `n` payloads of the rest of the stream. -/
theorem recvMessages_payloads {limit : UInt32} (bounded : Bounded limit) (n : Nat) :
    ∀ {c : TcpConnSync} {s : Socket}, Open limit c →
      (recvMessages n c s).map Message.payload =
        (parse limit (c.remaining s)).payloads.take n := by
  induction n with
  | zero =>
      intro c s ready
      rw [List.take_zero]
      rfl
  | succ n ih =>
      intro c s ready
      have call := recvNetMessage_receives bounded (s := s) ready Message.empty
      rw [recvMessages]
      cases outcome : c.recvNetMessage s Message.empty with
      | none =>
          rw [outcome, Receives] at call
          rw [call]
          rfl
      | some result =>
          obtain ⟨ok, msg, c', s'⟩ := result
          rw [outcome] at call
          cases ok with
          | true =>
              rw [call.2, List.take_succ_cons, ← ih call.1]
              rfl
          | false =>
              rw [call.2]
              exact congrArg (List.map Message.payload) (recvMessages_closed call.1 s' n)

end TcpConnSync

/-! ### Server and client -/

theorem bounded_toUInt32 {limit : Int32} (positive : 0 < limit) : Bounded limit.toUInt32 := by
  have signed : 0 < limit.toInt := Int32.lt_iff_toInt_lt.mp positive
  have size : limit.toUInt32.toNat = limit.toInt.toNat := by
    have upper := limit.toInt_lt
    have value : limit.toInt = limit.toBitVec.toInt := rfl
    have word : limit.toUInt32.toNat = limit.toBitVec.toNat := rfl
    rw [value, BitVec.toInt_eq_toNat_cond] at signed upper ⊢
    rw [word]
    split at signed <;> split <;> omega
  constructor
  · intro zero
    rw [zero] at size
    have none : (0 : UInt32).toNat = 0 := rfl
    omega
  · have upper := limit.toInt_lt
    omega

/-- For every positive limit, every byte stream and every way the network hands
it over: the server's connection dispatches exactly the payloads of the stream,
in order and no further than the first refused header, which alone closes it, and
waits at an incomplete frame; repeated blocking calls with the same limit return
the same payloads. -/
theorem framing_independent_of_chunking (server : NetServer) (setting : RpcClientSetting)
    (positive : 0 < server.recvMaxMsgSize)
    (same : setting.recvMaxMsgSize = server.recvMaxMsgSize.toUInt32) (stream : Bytes)
    (offers offers' : Nat → Nat) (n : Nat) :
    ((accepted server stream offers).serve n).conn.dispatched <+:
        (parse server.recvMaxMsgSize.toUInt32 stream).payloads ∧
      (stream.length ≤ n →
        ((accepted server stream offers).serve n).conn.dispatched =
          (parse server.recvMaxMsgSize.toUInt32 stream).payloads ∧
        (((accepted server stream offers).serve n).conn.connStat = .kClosed ↔
          (parse server.recvMaxMsgSize.toUInt32 stream).ending = .refused)) ∧
      (TcpConnSync.recvMessages n (TcpConnSync.fresh setting) ⟨stream, offers', 0⟩).map
          Message.payload =
        (parse server.recvMaxMsgSize.toUInt32 stream).payloads.take n := by
  have bounded := bounded_toUInt32 positive
  obtain ⟨dispatching, dispatched⟩ := dispatched_eq_parse bounded stream offers n
  refine ⟨dispatching, dispatched, ?_⟩
  have ready : TcpConnSync.Open server.recvMaxMsgSize.toUInt32 (TcpConnSync.fresh setting) :=
    ⟨rfl, same, Nat.zero_lt_of_lt (by decide : 1 < 2 ^ 31 + 2048)⟩
  exact TcpConnSync.recvMessages_payloads bounded n ready

/-- One frame without payload and one of three bytes, under a limit of 64. -/
theorem framing_two_frames :
    (0 : Int32) < 64 ∧
      ((accepted ⟨0, 64, 0⟩
          ((Message.ofPayload []).netStr ++ (Message.ofPayload (bytes "abc")).netStr)
          (fun _ => 17)).serve 35).conn.dispatched = [[], bytes "abc"] := by
  refine ⟨by decide, ?_⟩
  have all := framing_independent_of_chunking ⟨0, 64, 0⟩ ⟨0, 64⟩ (by decide) rfl
    ((Message.ofPayload []).netStr ++ (Message.ofPayload (bytes "abc")).netStr)
    (fun _ => 17) (fun _ => 2048) 35
  have dispatched := (all.2.1 (by decide)).1
  rw [dispatched]
  have last := @parse_ofPayload 64 (bytes "abc") [] (by decide) (by decide)
  rw [List.append_nil] at last
  have none : parse 64 [] = ⟨[], .waiting⟩ := by
    rw [parse]
    rfl
  have first := @parse_ofPayload 64 [] (Message.ofPayload (bytes "abc")).netStr
    (by decide) (by decide)
  rw [last, none] at first
  exact congrArg Parsed.payloads first

end Heracles.Client
