import Heracles.Network.Frames
import Heracles.Network.TcpConnAsync

/-!
The asynchronous connection parses the stream, not the chunks.

`doRead` and `doReadMsg` drain the decoder `frames` over the receive buffer
(`settled`). `Following` is what holds between completions: the frames dispatched
so far, followed by those in the buffer and the undelivered bytes, are the frames
of the stream. A step of the link between connection and socket keeps it, so
`dispatched_eq_parse` holds for every way the network cuts the stream.
-/

namespace Heracles.Network

open Heracles.Base
open Heracles.Core

/-! ### One call of `doRead` or `doReadMsg` -/

/-- A connection that may go on, with a receive buffer whose size a 32-bit
number holds. -/
structure Ready (c : TcpConnAsync) : Prop where
  working : c.connStat = .kWorking
  live : c.wasCancelled = false
  fits : c.recvBound.buffer.data.length < 2 ^ 32

namespace TcpConnAsync

variable {c : TcpConnAsync}

/-- The limit as the comparison with the header's length sees it. -/
def recvLimit (c : TcpConnAsync) : UInt32 := c.server.recvMaxMsgSize.toUInt32

theorem doRead_short (ready : Ready c) (short : c.recvBound.buffer.data.length < Header.size) :
    (doRead c).2 =
      { c.setOpsCancelTimeout with
        reading := some ⟨.readHandler, Header.size - c.recvBound.buffer.data.length⟩ } := by
  have size := Buffer.toNat_getLength ready.fits
  rw [doRead, if_neg (by simp [ready.working]), if_neg (by simp [ready.live])]
  simp only [size]
  rw [dif_pos short]

theorem parseHeader_whole (ready : Ready c)
    (enough : Header.size ≤ c.recvBound.buffer.data.length) :
    c.parseHeader =
      (if AdmittedHeader c.recvLimit (frontHeader c.recvBound.buffer.data) then 0 else -1,
        { c with recvBound := c.recvBound.headerRead }) := by
  have size := Buffer.toNat_getLength ready.fits
  rw [parseHeader, IOBound.parseHeader_enough (by omega)]
  rfl

theorem doRead_refused (ready : Ready c) (enough : Header.size ≤ c.recvBound.buffer.data.length)
    (refused : ¬AdmittedHeader c.recvLimit (frontHeader c.recvBound.buffer.data)) :
    (doRead c).2 = { c with recvBound := c.recvBound.headerRead }.sockShutdownAndClose := by
  have size := Buffer.toNat_getLength ready.fits
  rw [doRead, if_neg (by simp [ready.working]), if_neg (by simp [ready.live])]
  simp only [parseHeader_whole ready enough, if_neg refused]
  rw [dif_neg (by omega), if_neg (by decide), dif_neg (by decide)]

theorem doRead_admitted (ready : Ready c) (enough : Header.size ≤ c.recvBound.buffer.data.length)
    (admitted : AdmittedHeader c.recvLimit (frontHeader c.recvBound.buffer.data)) :
    (doRead c).2 = doReadMsg { c with recvBound := c.recvBound.headerRead } := by
  have size := Buffer.toNat_getLength ready.fits
  rw [doRead, if_neg (by simp [ready.working]), if_neg (by simp [ready.live])]
  simp only [parseHeader_whole ready enough, if_pos admitted]
  rw [dif_neg (by omega), if_pos trivial]

theorem lt_length_iff (ready : Ready c) :
    c.recvBound.buffer.getLength < c.recvBound.header.length ↔
      c.recvBound.buffer.data.length < c.recvBound.header.length.toNat := by
  rw [UInt32.lt_iff_toNat_lt, Buffer.toNat_getLength ready.fits]

theorem doReadMsg_short (ready : Ready c)
    (short : c.recvBound.buffer.data.length < c.recvBound.header.length.toNat) :
    doReadMsg c =
      { c.setOpsCancelTimeout with
        reading := some ⟨.readMsgHandler,
          min (c.recvBound.header.length.toNat - c.recvBound.buffer.data.length)
            kFixedIoBufferSize⟩ } := by
  have size := Buffer.toNat_getLength ready.fits
  have few := (lt_length_iff ready).mpr short
  have requested :
      (min (c.recvBound.header.length - c.recvBound.buffer.getLength)
        (UInt32.ofNat kFixedIoBufferSize)).toNat =
      min (c.recvBound.header.length.toNat - c.recvBound.buffer.data.length)
        kFixedIoBufferSize := by
    rw [Buffer.toNat_min, UInt32.toNat_sub_of_le _ _ (UInt32.le_of_lt few), size]
    rfl
  rw [doReadMsg, if_neg (by simp [ready.working]), if_neg (by simp [ready.live]), dif_pos few]
  simp only [requested]

theorem parseMsgBody_whole (ready : Ready c) (msg : Message)
    (enough : c.recvBound.header.length.toNat ≤ c.recvBound.buffer.data.length) :
    c.parseMsgBody msg =
      (0, ⟨c.recvBound.header, c.recvBound.buffer.data.take c.recvBound.header.length.toNat⟩,
        { c with
          recvBound := { c.recvBound with
            buffer := ⟨c.recvBound.buffer.data.drop c.recvBound.header.length.toNat⟩ } }) := by
  have arrived := mt (lt_length_iff ready).mp (Nat.not_lt.mpr enough)
  rw [parseMsgBody, IOBound.parseMsgBody_enough arrived]

theorem doReadMsg_whole (ready : Ready c)
    (enough : c.recvBound.header.length.toNat ≤ c.recvBound.buffer.data.length) :
    doReadMsg c =
      (doRead (dispatch
        ⟨c.recvBound.header, c.recvBound.buffer.data.take c.recvBound.header.length.toNat⟩
        { c with
          recvBound := { c.recvBound with
            buffer := ⟨c.recvBound.buffer.data.drop c.recvBound.header.length.toNat⟩ } })).2 := by
  have arrived := mt (lt_length_iff ready).mp (Nat.not_lt.mpr enough)
  rw [doReadMsg, if_neg (by simp [ready.working]), if_neg (by simp [ready.live]), dif_neg arrived]
  simp only [parseMsgBody_whole ready Message.empty enough]
  rw [if_pos trivial]

end TcpConnAsync

/-! ### Draining the buffer -/

/-- The receiver's place in the format agrees with the header it last read, and
what it may have to wait for stays far below the range of its counters. -/
def Phase.Known (c : TcpConnAsync) : Phase → Prop
  | .header => True
  | .body length => c.recvBound.header.length = length ∧ length.toNat < 2 ^ 31

/-- The function that continues from a phase. -/
def enter : Phase → TcpConnAsync → TcpConnAsync
  | .header, c => (TcpConnAsync.doRead c).2
  | .body _, c => TcpConnAsync.doReadMsg c

/-- The read a receiver starts when what is at hand does not suffice. -/
def request : Phase → Bytes → AsyncRead
  | .header, held => ⟨.readHandler, Header.size - held.length⟩
  | .body length, held =>
      ⟨.readMsgHandler, min (length.toNat - held.length) kFixedIoBufferSize⟩

/-- The connection holds `held` and has a read in flight for the rest. -/
structure Waiting (limit : UInt32) (phase : Phase) (held : Bytes) (c : TcpConnAsync) : Prop where
  working : c.connStat = .kWorking
  live : c.wasCancelled = false
  limited : c.recvLimit = limit
  known : phase.Known c
  holds : c.recvBound.buffer.data = held
  reading : c.reading = some (request phase held)
  short : held.length < (frames limit).need phase

structure Closed (c : TcpConnAsync) : Prop where
  closed : c.connStat = .kClosed
  idle : c.reading = none

/-- The connection is where draining has led. -/
def Reached (limit : UInt32) (r : Drained UInt8 Phase Bytes) (c : TcpConnAsync) : Prop :=
  match r.phase with
  | some phase => Waiting limit phase r.rest c
  | none => Closed c

/-- A limit that is set and that the counters of the receive path can hold. -/
structure Bounded (limit : UInt32) : Prop where
  positive : limit ≠ 0
  small : limit.toNat < 2 ^ 31

theorem AdmittedHeader.small {limit : UInt32} (bounded : Bounded limit) {header : Header}
    (admitted : AdmittedHeader limit header) : header.length.toNat < 2 ^ 31 := by
  cases admitted.2.2 with
  | inl unlimited => exact absurd unlimited bounded.positive
  | inr le => exact lt_of_le_of_lt (UInt32.le_iff_toNat_le.mp le) bounded.small

/-- Entered with `held` in its buffer, the connection dispatches what draining
`held` emits and stops where draining stops. -/
theorem settled {limit : UInt32} (bounded : Bounded limit) (phase : Phase) (held : Bytes) :
    ∀ c : TcpConnAsync, Ready c → c.reading = none → c.recvLimit = limit → phase.Known c →
      c.recvBound.buffer.data = held →
      (enter phase c).dispatched = c.dispatched ++ ((frames limit).drain phase held).emitted ∧
        Reached limit ((frames limit).drain phase held) (enter phase c) := by
  induction phase, held using Decoder.drain_induction (d := frames limit) with
  | short phase held short =>
      intro c ready idle limited known data
      subst data
      rw [Decoder.drain_short (d := frames limit) short, List.append_nil]
      cases phase with
      | header =>
          rw [enter, TcpConnAsync.doRead_short ready short]
          exact ⟨rfl, ready.working, ready.live, limited, trivial, rfl, rfl, short⟩
      | body length =>
          obtain ⟨rfl, small⟩ := known
          rw [enter, TcpConnAsync.doReadMsg_short ready short]
          exact ⟨rfl, ready.working, ready.live, limited, ⟨rfl, small⟩, rfl, rfl, short⟩
  | reject phase held enough rejected =>
      intro c ready idle limited known data
      subst data
      cases phase with
      | header =>
          have refused : ¬AdmittedHeader limit (frontHeader c.recvBound.buffer.data) := by
            intro admitted
            exact absurd ((if_pos admitted).symm.trans rejected) (Option.some_ne_none _)
          rw [drain_header_refused enough refused, List.append_nil]
          rw [← limited] at refused
          rw [enter, TcpConnAsync.doRead_refused ready enough refused]
          exact ⟨rfl, rfl, idle⟩
      | body length => cases rejected
  | accept phase held emitted next enough accepted ih =>
      intro c ready idle limited known data
      subst data
      rw [Decoder.drain_accept (d := frames limit) enough accepted]
      cases phase with
      | header =>
          have admitted : AdmittedHeader limit (frontHeader c.recvBound.buffer.data) := by
            by_contra refused
            exact absurd ((if_neg refused).symm.trans accepted) (Option.some_ne_none _).symm
          have found := (if_pos admitted).symm.trans accepted
          rw [Option.some.injEq, Prod.mk.injEq] at found
          obtain ⟨rfl, rfl⟩ := found
          rw [← limited] at admitted
          rw [enter, TcpConnAsync.doRead_admitted ready enough admitted]
          rw [limited] at admitted
          have fits : (c.recvBound.buffer.data.drop Header.size).length < 2 ^ 32 := by
            rw [List.length_drop]
            exact lt_of_le_of_lt (Nat.sub_le _ _) ready.fits
          exact ih { c with recvBound := c.recvBound.headerRead } ⟨ready.working, ready.live, fits⟩
            idle limited ⟨rfl, admitted.small bounded⟩ rfl
      | body length =>
          obtain ⟨rfl, small⟩ := known
          cases accepted
          rw [enter, TcpConnAsync.doReadMsg_whole ready enough]
          have fits : (c.recvBound.buffer.data.drop c.recvBound.header.length.toNat).length <
              2 ^ 32 := by
            rw [List.length_drop]
            exact lt_of_le_of_lt (Nat.sub_le _ _) ready.fits
          have rest := ih (TcpConnAsync.dispatch
            ⟨c.recvBound.header, c.recvBound.buffer.data.take c.recvBound.header.length.toNat⟩
            { c with
              recvBound := { c.recvBound with
                buffer := ⟨c.recvBound.buffer.data.drop c.recvBound.header.length.toNat⟩ } })
            ⟨ready.working, ready.live, fits⟩ idle limited trivial rfl
          refine ⟨?_, rest.2⟩
          rw [Drained.prepend_emitted, ← List.append_assoc]
          exact rest.1

/-! ### Completions -/

namespace TcpConnAsync

/-- The connection after a completed read has been moved into its buffer. -/
def received (c : TcpConnAsync) (chunk : Bytes) : TcpConnAsync :=
  { c.revokeOpsCancelTimeout with
    reading := none
    recvBound := (c.recvBound.fill chunk).absorb chunk.length }

@[simp] theorem data_received (c : TcpConnAsync) (chunk : Bytes) :
    (c.received chunk).recvBound.buffer.data = c.recvBound.buffer.data ++ chunk :=
  IOBound.absorb_fill c.recvBound chunk

/-- The handler of the read for a header does what `doRead` does once the header
has arrived. -/
theorem completeRead_header {c : TcpConnAsync} {atLeast : Nat} {chunk : Bytes}
    (ready : Ready (c.received chunk))
    (enough : Header.size ≤ (c.received chunk).recvBound.buffer.data.length) :
    c.completeRead ⟨.readHandler, atLeast⟩ chunk = (doRead (c.received chunk)).2 := by
  have size := Buffer.toNat_getLength ready.fits
  have arrived : ¬(c.received chunk).recvBound.buffer.getLength.toNat < Header.size := by omega
  have parsed := parseHeader_whole ready enough
  have unfolded : c.completeRead ⟨.readHandler, atLeast⟩ chunk =
      if (c.received chunk).recvBound.buffer.getLength.toNat < Header.size then
        (doRead (c.received chunk)).2
      else if ((c.received chunk).parseHeader).1 = 0 then
        doReadMsg ((c.received chunk).parseHeader).2
      else if 0 < ((c.received chunk).parseHeader).1 then
        (doRead ((c.received chunk).parseHeader).2).2
      else ((c.received chunk).parseHeader).2.sockShutdownAndClose := rfl
  rw [unfolded, if_neg arrived, parsed]
  by_cases admitted : AdmittedHeader (c.received chunk).recvLimit
      (frontHeader (c.received chunk).recvBound.buffer.data)
  · rw [if_pos admitted, if_pos rfl, doRead_admitted ready enough admitted]
  · rw [if_neg admitted, if_neg (by simp), if_neg (by simp), doRead_refused ready enough admitted]

/-- The handler of the read for a payload does what `doReadMsg` does. -/
theorem completeRead_body {c : TcpConnAsync} {atLeast : Nat} {chunk : Bytes}
    (ready : Ready (c.received chunk)) :
    c.completeRead ⟨.readMsgHandler, atLeast⟩ chunk = doReadMsg (c.received chunk) := by
  have unfolded : c.completeRead ⟨.readMsgHandler, atLeast⟩ chunk =
      if ((c.received chunk).parseMsgBody Message.empty).1 = 0 then
        (doRead (dispatch ((c.received chunk).parseMsgBody Message.empty).2.1
          ((c.received chunk).parseMsgBody Message.empty).2.2)).2
      else if 0 < ((c.received chunk).parseMsgBody Message.empty).1 then
        doReadMsg ((c.received chunk).parseMsgBody Message.empty).2.2
      else ((c.received chunk).parseMsgBody Message.empty).2.2.sockShutdownAndClose := rfl
  by_cases short : (c.received chunk).recvBound.buffer.getLength <
      (c.received chunk).recvBound.header.length
  · have again : (c.received chunk).parseMsgBody Message.empty =
        (1, Message.empty, c.received chunk) := by
      rw [parseMsgBody, IOBound.parseMsgBody_short short]
    rw [unfolded, again, if_neg (by simp), if_pos (by simp)]
  · have enough := Nat.not_lt.mp (mt (lt_length_iff ready).mpr short)
    rw [unfolded, parseMsgBody_whole ready Message.empty enough, if_pos rfl,
      doReadMsg_whole ready enough]

end TcpConnAsync

/-- A completed read continues from the phase the connection was waiting in. -/
theorem completeRead_enters {limit : UInt32} {phase : Phase} {held chunk : Bytes}
    {c : TcpConnAsync} (waiting : Waiting limit phase held c)
    (lower : (request phase held).atLeast ≤ chunk.length)
    (upper : chunk.length ≤ kFixedIoBufferSize) :
    c.completeRead (request phase held) chunk = enter phase (c.received chunk) ∧
      Ready (c.received chunk) := by
  have known := waiting.known
  have short := waiting.short
  have data : (c.received chunk).recvBound.buffer.data = held ++ chunk := by
    rw [TcpConnAsync.data_received, waiting.holds]
  have fits : (c.received chunk).recvBound.buffer.data.length < 2 ^ 32 := by
    rw [data, List.length_append]
    cases phase with
    | header =>
        simp only [frames, Header.size, kFixedIoBufferSize] at short upper
        omega
    | body length =>
        have small := known.2
        simp only [frames, kFixedIoBufferSize] at short upper
        omega
  have ready : Ready (c.received chunk) := ⟨waiting.working, waiting.live, fits⟩
  refine ⟨?_, ready⟩
  cases phase with
  | header =>
      refine TcpConnAsync.completeRead_header ready ?_
      rw [data, List.length_append]
      simp only [request] at lower
      omega
  | body length => exact TcpConnAsync.completeRead_body ready

/-! ### A connection served by a socket -/

structure Link where
  conn : TcpConnAsync
  socket : Socket

namespace Link

/-- The read in flight completes, if enough bytes have arrived. -/
def step (l : Link) : Link :=
  match l.conn.reading with
  | none => l
  | some op =>
      match l.socket.read op.atLeast with
      | none => l
      | some (chunk, socket) => ⟨l.conn.completeRead op chunk, socket⟩

def serve : Nat → Link → Link
  | 0, l => l
  | n + 1, l => serve n l.step

end Link

/-- What holds of the frames of `stream` between completions. -/
def Following (limit : UInt32) (stream : Bytes) (l : Link) : Prop :=
  (∃ phase held, Waiting limit phase held l.conn ∧
    (frames limit).drain .header stream =
      ((frames limit).drain phase (held ++ l.socket.undelivered)).prepend l.conn.dispatched) ∨
  (Closed l.conn ∧ ((frames limit).drain .header stream).phase = none ∧
    ((frames limit).drain .header stream).emitted = l.conn.dispatched)

/-- Where draining a prefix of the stream has led, the connection follows. -/
theorem following_of_reached {limit : UInt32} {stream : Bytes} {before : List Bytes}
    {r : Drained UInt8 Phase Bytes} {l : Link} (reached : Reached limit r l.conn)
    (dispatched : l.conn.dispatched = before ++ r.emitted)
    (whole : (frames limit).drain .header stream =
      ((frames limit).resume r l.socket.undelivered).prepend before) :
    Following limit stream l := by
  obtain ⟨emitted, phase, rest⟩ := r
  cases phase with
  | some phase =>
      refine Or.inl ⟨phase, rest, reached, ?_⟩
      rw [whole, dispatched, ← Drained.prepend_prepend]
      rfl
  | none =>
      refine Or.inr ⟨reached, ?_, ?_⟩
      · rw [whole]
        rfl
      · rw [whole, dispatched]
        rfl

/-- A step of the link preserves it. -/
theorem Following.step {limit : UInt32} (bounded : Bounded limit) {stream : Bytes} {l : Link}
    (following : Following limit stream l) : Following limit stream l.step := by
  obtain ⟨phase, held, waiting, whole⟩ | ⟨closed, ended⟩ := following
  · cases completed : l.socket.read (request phase held).atLeast with
    | none =>
        have still : l.step = l := by
          simp only [Link.step, waiting.reading, completed]
        rw [still]
        exact Or.inl ⟨phase, held, waiting, whole⟩
    | some delivery =>
        obtain ⟨chunk, socket⟩ := delivery
        obtain ⟨front, lower, upper⟩ := Socket.read_some completed
        have moved : l.step = ⟨l.conn.completeRead (request phase held) chunk, socket⟩ := by
          simp only [Link.step, waiting.reading, completed]
        have block : chunk.length ≤ kFixedIoBufferSize := by
          refine upper.trans (max_le ?_ le_rfl)
          cases phase with
          | header => exact (Nat.sub_le _ _).trans (by decide)
          | body length => exact min_le_right _ _
        obtain ⟨entered, ready⟩ := completeRead_enters waiting lower block
        have data : (l.conn.received chunk).recvBound.buffer.data = held ++ chunk := by
          rw [TcpConnAsync.data_received, waiting.holds]
        have known : phase.Known (l.conn.received chunk) := by
          cases phase with
          | header => trivial
          | body length => exact waiting.known
        obtain ⟨dispatched, reached⟩ :=
          settled bounded phase (held ++ chunk) _ ready rfl waiting.limited known data
        rw [← entered] at dispatched reached
        rw [moved]
        refine following_of_reached reached dispatched ?_
        rw [whole, front, ← List.append_assoc, Decoder.drain_append]
        rfl
  · have still : l.step = l := by
      simp only [Link.step, closed.idle]
    rw [still]
    exact Or.inr ⟨closed, ended⟩

/-- The payloads dispatched so far are the first of the stream. -/
theorem Following.starts {limit : UInt32} {stream : Bytes} {l : Link}
    (following : Following limit stream l) :
    l.conn.dispatched <+: (parse limit stream).payloads := by
  rw [parse_eq_drain]
  obtain ⟨phase, held, _, whole⟩ | ⟨_, _, all⟩ := following
  · rw [whole]
    exact List.prefix_append _ _
  · rw [all]

/-- No completion is possible: no read is in flight, or it asks for more than
the peer has sent. -/
def Quiet (l : Link) : Prop :=
  ∀ op, l.conn.reading = some op → l.socket.undelivered.length < op.atLeast

/-- Where no completion is possible the connection has dispatched every frame,
and it is closed exactly after a refused header. -/
theorem Following.complete {limit : UInt32} {stream : Bytes} {l : Link}
    (following : Following limit stream l) (quiet : Quiet l) :
    l.conn.dispatched = (parse limit stream).payloads ∧
      (l.conn.connStat = .kClosed ↔ (parse limit stream).ending = .refused) := by
  rw [parse_eq_drain]
  obtain ⟨phase, held, waiting, whole⟩ | ⟨closed, ended, all⟩ := following
  · have starved := quiet _ waiting.reading
    have short : (held ++ l.socket.undelivered).length < (frames limit).need phase := by
      have held_short := waiting.short
      rw [List.length_append]
      cases phase with
      | header =>
          simp only [request, frames] at starved held_short ⊢
          omega
      | body length =>
          have block : l.socket.undelivered.length < length.toNat - held.length :=
            lt_of_lt_of_le starved (min_le_left _ _)
          simp only [frames]
          omega
    rw [whole, Decoder.drain_short (d := frames limit) short]
    constructor
    · exact (List.append_nil _).symm
    · simp [waiting.working, Phase.ending]
  · constructor
    · exact all.symm
    · simp [closed.closed, ended, Phase.ending]

/-- A completion takes at least one byte from the socket. -/
theorem Following.consumes {limit : UInt32} {stream : Bytes} {l : Link}
    (following : Following limit stream l) :
    Quiet l ∨ l.step.socket.undelivered.length < l.socket.undelivered.length := by
  obtain ⟨phase, held, waiting, _⟩ | ⟨closed, _⟩ := following
  · cases completed : l.socket.read (request phase held).atLeast with
    | none =>
        refine Or.inl fun op reading => ?_
        rw [waiting.reading, Option.some.injEq] at reading
        rw [← reading]
        exact Socket.read_none.mp completed
    | some delivery =>
        obtain ⟨chunk, socket⟩ := delivery
        obtain ⟨front, lower, _⟩ := Socket.read_some completed
        have short := waiting.short
        have some : 0 < (request phase held).atLeast := by
          cases phase with
          | header =>
              simp only [request, frames] at short ⊢
              omega
          | body length =>
              simp only [request, frames, kFixedIoBufferSize] at short ⊢
              omega
        refine Or.inr ?_
        simp only [Link.step, waiting.reading, completed]
        rw [front, List.length_append]
        omega
  · refine Or.inl fun op reading => ?_
    rw [closed.idle] at reading
    cases reading

theorem Quiet.step {l : Link} (quiet : Quiet l) : l.step = l := by
  rw [Link.step]
  split
  · rfl
  · next op reading =>
      rw [Socket.read_none.mpr (quiet op reading)]

theorem Quiet.serve {l : Link} (quiet : Quiet l) (n : Nat) : l.serve n = l := by
  induction n with
  | zero => rfl
  | succ n ih => rw [Link.serve, quiet.step, ih]

theorem Following.serve {limit : UInt32} (bounded : Bounded limit) {stream : Bytes} (n : Nat) :
    ∀ {l : Link}, Following limit stream l → Following limit stream (l.serve n) := by
  induction n with
  | zero => exact id
  | succ n ih => exact fun following => ih (following.step bounded)

/-- As many steps as there are bytes deliver all that can be delivered. -/
theorem Following.quiet {limit : UInt32} (bounded : Bounded limit) {stream : Bytes} {n : Nat} :
    ∀ {l : Link}, Following limit stream l → l.socket.undelivered.length ≤ n →
      Quiet (l.serve n) := by
  induction n with
  | zero =>
      intro l following sufficient
      cases following.consumes with
      | inl quiet => exact quiet
      | inr less => omega
  | succ n ih =>
      intro l following sufficient
      cases following.consumes with
      | inl quiet =>
          rw [quiet.serve]
          exact quiet
      | inr less => exact ih (following.step bounded) (by omega)

/-! ### From the start of a connection -/

/-- A connection that has just been started on a socket. -/
def accepted (server : NetServer) (stream : Bytes) (offers : Nat → Nat) : Link :=
  ⟨(TcpConnAsync.fresh server).start, ⟨stream, offers, 0⟩⟩

theorem accepted_following {server : NetServer} (bounded : Bounded server.recvMaxMsgSize.toUInt32)
    (stream : Bytes) (offers : Nat → Nat) :
    Following server.recvMaxMsgSize.toUInt32 stream (accepted server stream offers) := by
  have started := settled bounded .header []
    { TcpConnAsync.fresh server with connStat := .kWorking }
    ⟨rfl, rfl, Nat.zero_lt_of_lt (by decide : 1 < 2 ^ 32)⟩ rfl rfl trivial rfl
  refine following_of_reached started.2 started.1 ?_
  exact Decoder.drain_append (d := frames _) Phase.header [] stream

/-- However the network cuts the stream, what has been dispatched is always a
prefix of the payloads of the stream; it is all of them once everything that can
be delivered has been, and the connection is closed exactly after a refused
header. -/
theorem dispatched_eq_parse {server : NetServer}
    (bounded : Bounded server.recvMaxMsgSize.toUInt32) (stream : Bytes) (offers : Nat → Nat)
    (n : Nat) :
    ((accepted server stream offers).serve n).conn.dispatched <+:
        (parse server.recvMaxMsgSize.toUInt32 stream).payloads ∧
      (stream.length ≤ n →
        ((accepted server stream offers).serve n).conn.dispatched =
          (parse server.recvMaxMsgSize.toUInt32 stream).payloads ∧
        (((accepted server stream offers).serve n).conn.connStat = .kClosed ↔
          (parse server.recvMaxMsgSize.toUInt32 stream).ending = .refused)) := by
  have begun := accepted_following bounded stream offers
  have following := begun.serve bounded n
  refine ⟨following.starts, fun sufficient => ?_⟩
  exact following.complete (begun.quiet bounded sufficient)

end Heracles.Network
