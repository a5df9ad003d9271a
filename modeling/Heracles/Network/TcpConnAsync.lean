import Heracles.Network.NetConn

/-!
The server's asynchronous connection.

Starting an asynchronous operation only records it: `reading` is the read in
flight with the handler it was given, `writing` are the writes in flight, and a
handler is a function applied when its operation completes. Payloads handed to
the dispatcher are collected in `dispatched`, oldest first. Socket errors are not
modelled: every operation completes or stays in flight.
-/

namespace Heracles.Network

open Heracles.Base
open Heracles.Core

/-- What connections read of the server's configuration; zero means unlimited,
for the time-out too. -/
structure NetServer where
  sendMaxMsgSize : Int32
  recvMaxMsgSize : Int32
  opsCancelTimeOut : Int32
  deriving DecidableEq, Repr

inductive ReadHandler where
  | readHandler
  | readMsgHandler
  deriving DecidableEq, Repr

/-- A read in flight: its completion handler and the `transfer_at_least` amount. -/
structure AsyncRead where
  handler : ReadHandler
  atLeast : Nat
  deriving DecidableEq, Repr

/-- A write in flight: its `transfer_exactly` amount and how much of it has gone
out so far. -/
structure AsyncWrite where
  toWrite : Nat
  sent : Nat
  deriving DecidableEq, Repr

/-- A timer with a wait pending that fires after so many seconds. -/
structure SteadyTimer where
  expiresFromNow : Int32
  deriving DecidableEq, Repr

structure TcpConnAsync where
  server : NetServer
  connStat : ConnStat
  wasCancelled : Bool
  opsCancelTimer : Option SteadyTimer
  recvBound : IOBound
  sendBound : IOBound
  reading : Option AsyncRead
  writing : List AsyncWrite
  dispatched : List Bytes
  deriving DecidableEq, Repr

namespace TcpConnAsync

/-- A connection as constructed. -/
def fresh (server : NetServer) : TcpConnAsync where
  server := server
  connStat := .kPending
  wasCancelled := false
  opsCancelTimer := none
  recvBound := IOBound.fresh
  sendBound := IOBound.fresh
  reading := none
  writing := []
  dispatched := []

def sockShutdownAndClose (c : TcpConnAsync) : TcpConnAsync := { c with connStat := .kClosed }

/-- Arm the timer anew, unless time-outs are switched off. -/
def setOpsCancelTimeout (c : TcpConnAsync) : TcpConnAsync :=
  { c with
    opsCancelTimer :=
      if c.server.opsCancelTimeOut = 0 then c.opsCancelTimer
      else some ⟨c.server.opsCancelTimeOut⟩ }

/-- Cancel the timer's wait and destroy it. -/
def revokeOpsCancelTimeout (c : TcpConnAsync) : TcpConnAsync := { c with opsCancelTimer := none }

/-- The timer's wait completes without having been cancelled: `ops_cancel`, then
the socket is closed. -/
def opsCancelTimeoutCall (c : TcpConnAsync) : TcpConnAsync :=
  { c with connStat := .kError, wasCancelled := true }.sockShutdownAndClose

/-- `Dispatcher::handle_RPC` with the payload of a message. -/
def dispatch (msg : Message) (c : TcpConnAsync) : TcpConnAsync :=
  { c with dispatched := c.dispatched ++ [msg.payload] }

def parseHeader (c : TcpConnAsync) : Int × TcpConnAsync :=
  let r := c.recvBound.parseHeader c.server.recvMaxMsgSize.toUInt32
  (r.1, { c with recvBound := r.2 })

def parseMsgBody (msg : Message) (c : TcpConnAsync) : Int × Message × TcpConnAsync :=
  let r := c.recvBound.parseMsgBody msg
  (r.1, r.2.1, { c with recvBound := r.2.2 })

/-! ### Receiving -/

theorem length_parseHeader {c : TcpConnAsync}
    (enough : ¬c.recvBound.buffer.getLength.toNat < Header.size) :
    (c.parseHeader).1 ≤ 0 ∧
      (c.parseHeader).2.recvBound.buffer.data.length + Header.size =
        c.recvBound.buffer.data.length := by
  have filled := Buffer.toNat_getLength_le c.recvBound.buffer
  rw [parseHeader, IOBound.parseHeader_enough (Nat.not_lt.mp enough)]
  constructor
  · simp only
    split <;> decide
  · rw [IOBound.headerRead, List.length_drop]
    omega

theorem length_parseMsgBody {c : TcpConnAsync} {msg : Message}
    (enough : ¬c.recvBound.buffer.getLength < c.recvBound.header.length) :
    (c.parseMsgBody msg).1 = 0 ∧
      (c.parseMsgBody msg).2.2.recvBound.buffer.data.length ≤ c.recvBound.buffer.data.length := by
  rw [parseMsgBody, IOBound.parseMsgBody_enough enough]
  simp

mutual

/-- Wait for a header, or parse the one at hand. -/
def doRead (c : TcpConnAsync) : Bool × TcpConnAsync :=
  if c.connStat ≠ .kWorking then (false, c)
  else if c.wasCancelled then (false, c)
  else
    let bytesRead := c.recvBound.buffer.getLength
    if _short : bytesRead.toNat < Header.size then
      (true, { c.setOpsCancelTimeout with
        reading := some ⟨.readHandler, Header.size - bytesRead.toNat⟩ })
    else
      let ret := (c.parseHeader).1
      if ret = 0 then (true, doReadMsg (c.parseHeader).2)
      else if _again : 0 < ret then (true, (doRead (c.parseHeader).2).2)
      else (false, (c.parseHeader).2.sockShutdownAndClose)
  termination_by 2 * c.recvBound.buffer.data.length
  decreasing_by
    · have := (length_parseHeader _short).2
      simp only [Header.size] at this
      omega
    · exact absurd (length_parseHeader _short).1 (Int.not_le.mpr _again)

/-- Wait for the rest of a payload, or take the one at hand, dispatch it and
read on. -/
def doReadMsg (c : TcpConnAsync) : TcpConnAsync :=
  if c.connStat ≠ .kWorking then c
  else if c.wasCancelled then c
  else if _short : c.recvBound.buffer.getLength < c.recvBound.header.length then
    let toRead := min (c.recvBound.header.length - c.recvBound.buffer.getLength)
      (UInt32.ofNat kFixedIoBufferSize)
    { c.setOpsCancelTimeout with reading := some ⟨.readMsgHandler, toRead.toNat⟩ }
  else
    let ret := (c.parseMsgBody Message.empty).1
    let msg := (c.parseMsgBody Message.empty).2.1
    if ret = 0 then (doRead (dispatch msg (c.parseMsgBody Message.empty).2.2)).2
    else if _again : 0 < ret then doReadMsg (c.parseMsgBody Message.empty).2.2
    else (c.parseMsgBody Message.empty).2.2.sockShutdownAndClose
  termination_by 2 * c.recvBound.buffer.data.length + 1
  decreasing_by
    · have := (@length_parseMsgBody c Message.empty _short).2
      simp only [dispatch]
      omega
    · exact absurd (length_parseMsgBody _short).1 (ne_of_gt _again)

end

def start (c : TcpConnAsync) : TcpConnAsync := (doRead { c with connStat := .kWorking }).2

/-- Completion handler of the read for a header. -/
def readHandler (c : TcpConnAsync) (bytesTransferred : Nat) : TcpConnAsync :=
  let c := c.revokeOpsCancelTimeout
  let c := { c with recvBound := c.recvBound.absorb bytesTransferred }
  if c.recvBound.buffer.getLength.toNat < Header.size then (doRead c).2
  else
    let (ret, c) := c.parseHeader
    if ret = 0 then doReadMsg c
    else if 0 < ret then (doRead c).2
    else c.sockShutdownAndClose

/-- Completion handler of the read for a payload. -/
def readMsgHandler (c : TcpConnAsync) (bytesTransferred : Nat) : TcpConnAsync :=
  let c := c.revokeOpsCancelTimeout
  let c := { c with recvBound := c.recvBound.absorb bytesTransferred }
  let (ret, msg, c) := c.parseMsgBody Message.empty
  if ret = 0 then (doRead (dispatch msg c)).2
  else if 0 < ret then doReadMsg c
  else c.sockShutdownAndClose

/-- The read in flight completes with `chunk` and its handler runs. -/
def completeRead (c : TcpConnAsync) (op : AsyncRead) (chunk : Bytes) : TcpConnAsync :=
  let c := { c with reading := none, recvBound := c.recvBound.fill chunk }
  match op.handler with
  | .readHandler => c.readHandler chunk.length
  | .readMsgHandler => c.readMsgHandler chunk.length

/-! ### Sending -/

/-- Copy the next block of the send buffer into `io_block_` and start writing it. -/
def doWrite (c : TcpConnAsync) : Bool × TcpConnAsync :=
  if c.connStat ≠ .kWorking then (false, c)
  else if c.wasCancelled then (false, c)
  else if c.sendBound.buffer.getLength = 0 then (true, c)
  else
    let toWrite := min c.sendBound.buffer.getLength (UInt32.ofNat kFixedIoBufferSize)
    let (_, ioBlock, buffer) := c.sendBound.buffer.consumeInto c.sendBound.ioBlock toWrite
    (true, { c.setOpsCancelTimeout with
      sendBound := { c.sendBound with ioBlock := ioBlock, buffer := buffer }
      writing := c.writing ++ [⟨toWrite.toNat, 0⟩] })

/-- Queue a message and start writing: 0, or -1 when it is above the limit. -/
def asyncSendMessage (c : TcpConnAsync) (msg : Message) : Int × TcpConnAsync :=
  if c.server.sendMaxMsgSize ≠ 0 ∧ c.server.sendMaxMsgSize.toUInt32 < msg.header.length then (-1, c)
  else
    let c := { c with sendBound := { c.sendBound with buffer := c.sendBound.buffer.append msg } }
    (0, (doWrite c).2)

/-- Completion handler of a write. -/
def writeHandler (c : TcpConnAsync) : TcpConnAsync :=
  (doWrite c.revokeOpsCancelTimeout).2

end TcpConnAsync

end Heracles.Network
