import Heracles.Base.Runs
import Heracles.Network.Framing

/-!
A connection with everything that can happen to it.

`Action` lists the events: a read completes with a chunk, some thread calls
`async_send_message`, the network takes bytes of a write in flight, a write
completes, the operation timer fires. asio reads a write's bytes out of the
block at the moment it transmits them, not when the write is started. An action
that is not possible in a state leaves it alone, so every list of actions is a run.
-/

namespace Heracles.Network

open Heracles.Base
open Heracles.Core

/-! ### What receiving leaves alone -/

/-- Receiving touches nothing of the sending side, may close the connection, and
otherwise ends with a read in flight, guarded by the timer if there is one. -/
structure Continues (c c' : TcpConnAsync) : Prop where
  server : c'.server = c.server
  sendBound : c'.sendBound = c.sendBound
  writing : c'.writing = c.writing
  cancelled : c'.wasCancelled = c.wasCancelled
  stat : c'.connStat = c.connStat ∨ c'.connStat = .kClosed
  reading : c'.connStat = .kWorking → c.wasCancelled = false → c'.reading.isSome
  armed : c'.connStat = .kWorking → c.wasCancelled = false → c.server.opsCancelTimeOut ≠ 0 →
    c'.opsCancelTimer.isSome

/-- A step that changes only the receiving side comes before. -/
theorem Continues.after {c c₁ c' : TcpConnAsync} (continues : Continues c₁ c')
    (server : c₁.server = c.server) (sendBound : c₁.sendBound = c.sendBound)
    (writing : c₁.writing = c.writing) (cancelled : c₁.wasCancelled = c.wasCancelled)
    (stat : c₁.connStat = c.connStat) : Continues c c' where
  server := continues.server.trans server
  sendBound := continues.sendBound.trans sendBound
  writing := continues.writing.trans writing
  cancelled := continues.cancelled.trans cancelled
  stat := stat ▸ continues.stat
  reading working live := continues.reading working (cancelled.trans live)
  armed working live timed := continues.armed working (cancelled.trans live) (server ▸ timed)

namespace TcpConnAsync

theorem continues_idle {c : TcpConnAsync} (stopped : c.connStat ≠ .kWorking ∨ c.wasCancelled) :
    Continues c c where
  server := rfl
  sendBound := rfl
  writing := rfl
  cancelled := rfl
  stat := Or.inl rfl
  reading working live := by simp_all
  armed working live := by simp_all

theorem continues_closed (c : TcpConnAsync) : Continues c c.sockShutdownAndClose where
  server := rfl
  sendBound := rfl
  writing := rfl
  cancelled := rfl
  stat := Or.inr rfl
  reading working := by cases working
  armed working := by cases working

theorem continues_reading (c : TcpConnAsync) (op : AsyncRead) :
    Continues c { c.setOpsCancelTimeout with reading := some op } where
  server := rfl
  sendBound := rfl
  writing := rfl
  cancelled := rfl
  stat := Or.inl rfl
  reading _ _ := rfl
  armed _ _ timed := by
    simp only [setOpsCancelTimeout, if_neg timed]
    rfl

theorem doRead_continues :
    (∀ c : TcpConnAsync, Continues c (doRead c).2) ∧
      ∀ c : TcpConnAsync, Continues c (doReadMsg c) := by
  apply doRead.mutual_induct
  case case1 =>
    intro c stopped
    rw [doRead, if_pos stopped]
    exact continues_idle (Or.inl stopped)
  case case2 =>
    intro c working cancelled
    rw [doRead, if_neg working, if_pos cancelled]
    exact continues_idle (Or.inr cancelled)
  case case3 =>
    intro c working live bytesRead short
    rw [doRead, if_neg working, if_neg live]
    have few : c.recvBound.buffer.getLength.toNat < Header.size := short
    simp only [dif_pos few]
    exact continues_reading c _
  case case4 =>
    intro c working live bytesRead enough ret parsed ih
    rw [doRead, if_neg working, if_neg live]
    have many : ¬c.recvBound.buffer.getLength.toNat < Header.size := enough
    have ok : c.parseHeader.1 = 0 := parsed
    simp only [dif_neg many, if_pos ok]
    exact ih.after rfl rfl rfl rfl rfl
  case case5 =>
    intro c working live bytesRead enough ret failed again ih
    rw [doRead, if_neg working, if_neg live]
    have many : ¬c.recvBound.buffer.getLength.toNat < Header.size := enough
    have bad : ¬c.parseHeader.1 = 0 := failed
    have more : 0 < c.parseHeader.1 := again
    simp only [dif_neg many, if_neg bad, dif_pos more]
    exact ih.after rfl rfl rfl rfl rfl
  case case6 =>
    intro c working live bytesRead enough ret failed refused
    rw [doRead, if_neg working, if_neg live]
    have many : ¬c.recvBound.buffer.getLength.toNat < Header.size := enough
    have bad : ¬c.parseHeader.1 = 0 := failed
    have shut : ¬0 < c.parseHeader.1 := refused
    simp only [dif_neg many, if_neg bad, dif_neg shut]
    exact (continues_closed _).after rfl rfl rfl rfl rfl
  case case7 =>
    intro c stopped
    rw [doReadMsg, if_pos stopped]
    exact continues_idle (Or.inl stopped)
  case case8 =>
    intro c working cancelled
    rw [doReadMsg, if_neg working, if_pos cancelled]
    exact continues_idle (Or.inr cancelled)
  case case9 =>
    intro c working live short
    rw [doReadMsg, if_neg working, if_neg live]
    simp only [dif_pos short]
    exact continues_reading c _
  case case10 =>
    intro c working live enough ret msg parsed ih
    rw [doReadMsg, if_neg working, if_neg live]
    have ok : (c.parseMsgBody Message.empty).1 = 0 := parsed
    simp only [dif_neg enough, if_pos ok]
    exact ih.after rfl rfl rfl rfl rfl
  case case11 =>
    intro c working live enough ret failed again ih
    rw [doReadMsg, if_neg working, if_neg live]
    have bad : ¬(c.parseMsgBody Message.empty).1 = 0 := failed
    have more : 0 < (c.parseMsgBody Message.empty).1 := again
    simp only [dif_neg enough, if_neg bad, dif_pos more]
    exact ih.after rfl rfl rfl rfl rfl
  case case12 =>
    intro c working live enough ret failed refused
    rw [doReadMsg, if_neg working, if_neg live]
    have bad : ¬(c.parseMsgBody Message.empty).1 = 0 := failed
    have shut : ¬0 < (c.parseMsgBody Message.empty).1 := refused
    simp only [dif_neg enough, if_neg bad, dif_neg shut]
    exact (continues_closed _).after rfl rfl rfl rfl rfl

/-- So does a completed read with its handler. -/
theorem completeRead_continues (c : TcpConnAsync) (op : AsyncRead) (chunk : Bytes) :
    Continues c (c.completeRead op chunk) := by
  obtain ⟨reads, readsMsg⟩ := doRead_continues
  obtain ⟨handler, atLeast⟩ := op
  cases handler with
  | readHandler =>
      rw [completeRead]
      simp only [readHandler]
      split
      · exact (reads _).after rfl rfl rfl rfl rfl
      · split
        · exact (readsMsg _).after rfl rfl rfl rfl rfl
        · split
          · exact (reads _).after rfl rfl rfl rfl rfl
          · exact (continues_closed _).after rfl rfl rfl rfl rfl
  | readMsgHandler =>
      rw [completeRead]
      simp only [readMsgHandler]
      split
      · exact (reads _).after rfl rfl rfl rfl rfl
      · split
        · exact (readsMsg _).after rfl rfl rfl rfl rfl
        · exact (continues_closed _).after rfl rfl rfl rfl rfl

/-! ### What sending leaves alone -/

/-- The number of bytes the next write takes. -/
def toWrite (c : TcpConnAsync) : Nat := min c.sendBound.buffer.getLength.toNat kFixedIoBufferSize

/-- The connection once the next block has been copied and its write started. -/
def writeStarted (c : TcpConnAsync) : TcpConnAsync :=
  { c.setOpsCancelTimeout with
    sendBound := { c.sendBound with
      ioBlock := c.sendBound.buffer.data.take c.toWrite ++ c.sendBound.ioBlock.drop c.toWrite
      buffer := ⟨c.sendBound.buffer.data.drop c.toWrite⟩ }
    writing := c.writing ++ [⟨c.toWrite, 0⟩] }

theorem doWrite_empty {c : TcpConnAsync} (empty : c.sendBound.buffer.getLength = 0) :
    (doWrite c).2 = c := by
  rw [doWrite]
  split
  · rfl
  · split
    · rfl
    · rfl

theorem doWrite_filled {c : TcpConnAsync} (working : c.connStat = .kWorking)
    (live : c.wasCancelled = false) (filled : c.sendBound.buffer.getLength ≠ 0) :
    (doWrite c).2 = c.writeStarted := by
  have some : c.sendBound.buffer.getLength.toNat ≠ 0 := by
    intro zero
    exact filled (UInt32.toNat_inj.mp zero)
  have size : (min c.sendBound.buffer.getLength (UInt32.ofNat kFixedIoBufferSize)).toNat =
      c.toWrite := Buffer.toNat_min _ _
  have positive : 0 < min c.sendBound.buffer.getLength (UInt32.ofNat kFixedIoBufferSize) := by
    rw [UInt32.lt_iff_toNat_lt, size, toWrite, kFixedIoBufferSize]
    exact lt_min (Nat.pos_of_ne_zero some) (by decide)
  have data : c.sendBound.buffer.data ≠ [] := by
    intro none
    have length := Buffer.toNat_getLength_le c.sendBound.buffer
    rw [none, List.length_nil] at length
    omega
  have erased : ∀ sz : UInt32, c.sendBound.buffer.frontErase sz =
      ⟨c.sendBound.buffer.data.drop sz.toNat⟩ :=
    fun sz => congrArg Buffer.mk (Buffer.data_frontErase c.sendBound.buffer sz)
  rw [doWrite, if_neg (by simp [working]), if_neg (by simp [live]), if_neg filled]
  simp only [Buffer.consumeInto_some _ positive data, erased, size]
  rfl

theorem toWrite_le (c : TcpConnAsync) : c.toWrite ≤ c.sendBound.buffer.data.length :=
  (min_le_left _ _).trans (Buffer.toNat_getLength_le _)

/-- The connection when the `i`-th write has completed and its handler runs. -/
def writeGone (c : TcpConnAsync) (i : Nat) : TcpConnAsync :=
  { c with writing := c.writing.eraseIdx i, opsCancelTimer := none }

end TcpConnAsync

/-! ### Events -/

inductive Action where
  /-- The read in flight completes with `chunk`. -/
  | read (chunk : Bytes)
  /-- A thread sends a message. -/
  | send (msg : Message)
  /-- The network takes up to `n` bytes of the `i`-th write in flight. -/
  | transmit (i n : Nat)
  /-- The `i`-th write in flight completes. -/
  | written (i : Nat)
  /-- The operation timer fires. -/
  | timeout
  deriving DecidableEq, Repr

/-- A connection, the bytes it has put on the wire and the messages
`async_send_message` returned 0 for. -/
structure Session where
  conn : TcpConnAsync
  wire : Bytes
  accepted : List Message
  deriving DecidableEq, Repr

namespace Session

/-- A connection that has just been started. -/
def opened (server : NetServer) : Session := ⟨(TcpConnAsync.fresh server).start, [], []⟩

def completeRead (s : Session) (chunk : Bytes) : Session :=
  match s.conn.reading with
  | none => s
  | some op =>
      if op.atLeast ≤ chunk.length ∧ chunk.length ≤ kFixedIoBufferSize then
        { s with conn := s.conn.completeRead op chunk }
      else s

def send (s : Session) (msg : Message) : Session :=
  let (ret, conn) := s.conn.asyncSendMessage msg
  { s with conn := conn, accepted := if ret = 0 then s.accepted ++ [msg] else s.accepted }

/-- The bytes come from the block as it is now. -/
def transmit (s : Session) (i n : Nat) : Session :=
  match s.conn.writing[i]? with
  | none => s
  | some w =>
      let n := min n (w.toWrite - w.sent)
      { s with
        conn := { s.conn with writing := s.conn.writing.set i { w with sent := w.sent + n } }
        wire := s.wire ++ (s.conn.sendBound.ioBlock.drop w.sent).take n }

/-- The `i`-th write in flight has gone out completely. -/
def Finished (s : Session) (i : Nat) : Prop :=
  ∃ w ∈ s.conn.writing[i]?, w.sent = w.toWrite

instance (s : Session) (i : Nat) : Decidable (s.Finished i) :=
  decidable_of_iff ((s.conn.writing[i]?.any fun w => w.sent = w.toWrite) = true) (by
    cases found : s.conn.writing[i]? <;> simp [Finished, found])

def completeWrite (s : Session) (i : Nat) : Session :=
  if s.Finished i then
    { s with conn := { s.conn with writing := s.conn.writing.eraseIdx i }.writeHandler }
  else s

def timeout (s : Session) : Session :=
  match s.conn.opsCancelTimer with
  | none => s
  | some _ => { s with conn := s.conn.opsCancelTimeoutCall }

/-- One event. Nothing completes any more on a socket that is closed. -/
def step (s : Session) : Action → Session
  | .read chunk => if s.conn.connStat = .kWorking then s.completeRead chunk else s
  | .send msg => s.send msg
  | .transmit i n => if s.conn.connStat = .kWorking then s.transmit i n else s
  | .written i => if s.conn.connStat = .kWorking then s.completeWrite i else s
  | .timeout => if s.conn.connStat = .kWorking then s.timeout else s

/-- The limit on messages sent admits this one. -/
def Admits (s : Session) (msg : Message) : Prop :=
  s.conn.server.sendMaxMsgSize = 0 ∨ msg.header.length ≤ s.conn.server.sendMaxMsgSize.toUInt32

instance (s : Session) (msg : Message) : Decidable (s.Admits msg) :=
  inferInstanceAs (Decidable (_ ∨ _))

theorem admits_iff {s : Session} {msg : Message} :
    s.Admits msg ↔ ¬(s.conn.server.sendMaxMsgSize ≠ 0 ∧
      s.conn.server.sendMaxMsgSize.toUInt32 < msg.header.length) := by
  rw [Admits, not_and_or, not_not, UInt32.not_lt]

theorem send_admitted {s : Session} {msg : Message} (admitted : s.Admits msg) :
    s.send msg =
      { s with
        conn := { s.conn with
          sendBound := { s.conn.sendBound with
            buffer := s.conn.sendBound.buffer.append msg } }.doWrite.2
        accepted := s.accepted ++ [msg] } := by
  rw [send, TcpConnAsync.asyncSendMessage, if_neg (admits_iff.mp admitted)]
  rfl

theorem send_refused {s : Session} {msg : Message} (refused : ¬s.Admits msg) : s.send msg = s := by
  have limited := not_not.mp (mt admits_iff.mpr refused)
  rw [send, TcpConnAsync.asyncSendMessage, if_pos limited]
  rfl

theorem completeWrite_finished {s : Session} {i : Nat} (finished : s.Finished i) :
    s.completeWrite i = { s with conn := (s.conn.writeGone i).doWrite.2 } := by
  rw [completeWrite, if_pos finished]
  rfl

/-- A started connection waits for a header. -/
theorem opened_eq (server : NetServer) :
    opened server =
      ⟨{ { TcpConnAsync.fresh server with connStat := .kWorking }.setOpsCancelTimeout with
          reading := some ⟨.readHandler, Header.size⟩ }, [], []⟩ := by
  have ready : Ready { TcpConnAsync.fresh server with connStat := .kWorking } :=
    ⟨rfl, rfl, Nat.zero_lt_of_lt (by decide : 1 < 2 ^ 32)⟩
  have short : (TcpConnAsync.fresh server).recvBound.buffer.data.length < Header.size :=
    Nat.zero_lt_of_lt (by decide : 1 < 16)
  rw [opened, TcpConnAsync.start, TcpConnAsync.doRead_short ready short]
  rfl

/-- The state of a session is never `kWorking` again. -/
theorem working_of_step {s : Session} {a : Action}
    (working : (s.step a).conn.connStat = .kWorking) : s.conn.connStat = .kWorking := by
  cases a with
  | read chunk =>
      by_contra stopped
      rw [step, if_neg stopped] at working
      exact stopped working
  | send msg =>
      by_contra stopped
      simp only [step, send, TcpConnAsync.asyncSendMessage] at working
      split at working
      · exact stopped working
      · rw [TcpConnAsync.doWrite, if_pos stopped] at working
        exact stopped working
  | transmit i n =>
      by_contra stopped
      rw [step, if_neg stopped] at working
      exact stopped working
  | written i =>
      by_contra stopped
      rw [step, if_neg stopped] at working
      exact stopped working
  | timeout =>
      by_contra stopped
      rw [step, if_neg stopped] at working
      exact stopped working

theorem working_of_run {s : Session} {actions : List Action}
    (working : (run step s actions).conn.connStat = .kWorking) : s.conn.connStat = .kWorking := by
  induction actions generalizing s with
  | nil => exact working
  | cons a actions ih => exact working_of_step (ih working)

end Session

end Heracles.Network
