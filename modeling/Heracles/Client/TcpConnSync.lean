import Heracles.Network.NetConn

/-!
The client's blocking connection.

A receiving call returns `none` while it is blocked in a read that asks for more
than the peer has sent; a read that ends in an error is `readFailed`. A write is
told after how many bytes the socket fails, if it does.
-/

namespace Heracles.Client

open Heracles.Base
open Heracles.Core
open Heracles.Network

/-- The limits of the client's settings; zero means unlimited. -/
structure RpcClientSetting where
  sendMaxMsgSize : UInt32
  recvMaxMsgSize : UInt32
  deriving DecidableEq, Repr

/-- The errors `handle_socket_ec` tells apart. -/
inductive SocketError where
  | connectionReset
  | timedOut
  | badDescriptor
  | eof
  | operationAborted
  | undetected
  deriving DecidableEq, Repr

structure TcpConnSync where
  clientSetting : RpcClientSetting
  connStat : ConnStat
  recvBound : IOBound
  sendBound : IOBound
  deriving DecidableEq, Repr

namespace TcpConnSync

/-- A connection as constructed on a connected socket. -/
def fresh (clientSetting : RpcClientSetting) : TcpConnSync where
  clientSetting := clientSetting
  connStat := .kWorking
  recvBound := IOBound.fresh
  sendBound := IOBound.fresh

def sockShutdownAndClose (c : TcpConnSync) : TcpConnSync := { c with connStat := .kClosed }

/-- Whether the error has closed the socket, and the connection. -/
def handleSocketEc (c : TcpConnSync) (ec : SocketError) : Bool × TcpConnSync :=
  match ec with
  | .operationAborted => (false, c)
  | _ => (true, c.sockShutdownAndClose)

/-! ### Receiving -/

def parseHeader (c : TcpConnSync) : Int × TcpConnSync :=
  let r := c.recvBound.parseHeader c.clientSetting.recvMaxMsgSize
  (r.1, { c with recvBound := r.2 })

def parseMsgBody (msg : Message) (c : TcpConnSync) : Int × Message × TcpConnSync :=
  let r := c.recvBound.parseMsgBody msg
  (r.1, r.2.1, { c with recvBound := r.2.2 })

/-- The connection after a read has delivered `chunk`. -/
def received (c : TcpConnSync) (chunk : Bytes) : TcpConnSync :=
  { c with recvBound := (c.recvBound.fill chunk).absorb chunk.length }

theorem read_decreases {s after : Socket} {atLeast : Nat} {chunk : Bytes}
    (positive : 0 < atLeast) (completed : s.read atLeast = some (chunk, after)) :
    after.undelivered.length < s.undelivered.length := by
  obtain ⟨front, lower, _⟩ := Socket.read_some completed
  rw [front, List.length_append]
  omega

/-- The loop of `do_read`: read until a header is at hand. -/
def readHeader (c : TcpConnSync) (s : Socket) : Option (TcpConnSync × Socket) :=
  let bytesRead := c.recvBound.buffer.getLength
  if _short : bytesRead.toNat < Header.size then
    match _completed : s.read (Header.size - bytesRead.toNat) with
    | none => none
    | some (chunk, s) => readHeader (c.received chunk) s
  else some (c, s)
  termination_by s.undelivered.length
  decreasing_by exact read_decreases (Nat.sub_pos_of_lt _short) _completed

/-- The amount the loop of `do_read_msg` asks for. -/
def toRead (c : TcpConnSync) : UInt32 :=
  min (c.recvBound.header.length - c.recvBound.buffer.getLength) (UInt32.ofNat kFixedIoBufferSize)

theorem toNat_toRead {c : TcpConnSync}
    (short : c.recvBound.buffer.getLength < c.recvBound.header.length) :
    c.toRead.toNat =
      min (c.recvBound.header.length.toNat - c.recvBound.buffer.getLength.toNat)
        kFixedIoBufferSize := by
  rw [toRead, Buffer.toNat_min, UInt32.toNat_sub_of_le _ _ (UInt32.le_of_lt short)]
  rfl

theorem toRead_pos {c : TcpConnSync}
    (short : c.recvBound.buffer.getLength < c.recvBound.header.length) : 0 < c.toRead.toNat := by
  have less := UInt32.lt_iff_toNat_lt.mp short
  rw [toNat_toRead short]
  simp only [kFixedIoBufferSize]
  omega

/-- The loop of `do_read_msg`: read until the payload is at hand. -/
def readBody (c : TcpConnSync) (s : Socket) : Option (TcpConnSync × Socket) :=
  if _short : c.recvBound.buffer.getLength < c.recvBound.header.length then
    match _completed : s.read c.toRead.toNat with
    | none => none
    | some (chunk, s) => readBody (c.received chunk) s
  else some (c, s)
  termination_by s.undelivered.length
  decreasing_by exact read_decreases (toRead_pos _short) _completed

/-- `do_read_msg`: success, the caller's message and the connection. -/
def doReadMsg (c : TcpConnSync) (s : Socket) (msg : Message) :
    Option (Bool × Message × TcpConnSync × Socket) :=
  if c.connStat ≠ .kWorking then some (false, msg, c, s)
  else
    match readBody c s with
    | none => none
    | some (c, s) =>
        let (ret, msg, c) := c.parseMsgBody msg
        if ret = 0 then some (true, msg, c, s)
        else some (false, msg, c.sockShutdownAndClose, s)

def doRead (c : TcpConnSync) (s : Socket) (msg : Message) :
    Option (Bool × Message × TcpConnSync × Socket) :=
  if c.connStat ≠ .kWorking then some (false, msg, c, s)
  else
    match readHeader c s with
    | none => none
    | some (c, s) =>
        let (ret, c) := c.parseHeader
        if ret = 0 then doReadMsg c s msg
        else some (false, msg, c.sockShutdownAndClose, s)

def recvNetMessage (c : TcpConnSync) (s : Socket) (msg : Message) :
    Option (Bool × Message × TcpConnSync × Socket) :=
  doRead c s msg

/-- A read inside `do_read` or `do_read_msg` ends with an error. -/
def readFailed (c : TcpConnSync) (ec : SocketError) : Bool × TcpConnSync :=
  (false, (c.handleSocketEc ec).2)

/-- The messages of `n` calls in a row, each with an empty message to fill.
A call that stays blocked is the last. -/
def recvMessages : Nat → TcpConnSync → Socket → List Message
  | 0, _, _ => []
  | n + 1, c, s =>
      match c.recvNetMessage s Message.empty with
      | none => []
      | some (true, msg, c, s) => msg :: recvMessages n c s
      | some (false, _, c, s) => recvMessages n c s

end TcpConnSync

/-! ### Sending -/

/-- The sending side of a socket: what has been written, and after how many more
bytes which error ends it. -/
structure Sink where
  written : Bytes
  fault : Option (Nat × SocketError)
  deriving DecidableEq, Repr

/-- Write all of `data`, or what goes out before the error. -/
def Sink.write (w : Sink) (data : Bytes) : Option SocketError × Sink :=
  match w.fault with
  | none => (none, { w with written := w.written ++ data })
  | some (room, ec) =>
      if room < data.length then (some ec, ⟨w.written ++ data.take room, some (0, ec)⟩)
      else (none, ⟨w.written ++ data, some (room - data.length, ec)⟩)

namespace TcpConnSync

/-- The amount the loop of `do_write` takes next. -/
def toWrite (c : TcpConnSync) : UInt32 :=
  min c.sendBound.buffer.getLength (UInt32.ofNat kFixedIoBufferSize)

/-- The connection after its next block has been consumed into `io_block_`. -/
def blockTaken (c : TcpConnSync) : TcpConnSync :=
  let (_, ioBlock, buffer) := c.sendBound.buffer.consumeInto c.sendBound.ioBlock c.toWrite
  { c with sendBound := { c.sendBound with ioBlock := ioBlock, buffer := buffer } }

theorem toNat_toWrite (c : TcpConnSync) :
    c.toWrite.toNat = min c.sendBound.buffer.getLength.toNat kFixedIoBufferSize := by
  rw [toWrite, Buffer.toNat_min]
  rfl

theorem toWrite_pos {c : TcpConnSync} (more : c.sendBound.buffer.getLength ≠ 0) :
    0 < c.toWrite.toNat := by
  have positive : c.sendBound.buffer.getLength.toNat ≠ 0 := fun zero => more (UInt32.toNat_inj.mp zero)
  rw [toNat_toWrite, kFixedIoBufferSize]
  omega

/-- A block is the front of the send buffer. -/
theorem blockTaken_eq {c : TcpConnSync} (more : c.sendBound.buffer.getLength ≠ 0) :
    c.blockTaken.sendBound.ioBlock.take c.toWrite.toNat =
        c.sendBound.buffer.data.take c.toWrite.toNat ∧
      c.blockTaken.sendBound.buffer.data = c.sendBound.buffer.data.drop c.toWrite.toNat := by
  have positive := toWrite_pos more
  have amount := toNat_toWrite c
  have least := Buffer.toNat_getLength_le c.sendBound.buffer
  have filled : c.sendBound.buffer.data ≠ [] := by
    intro drained
    rw [drained, List.length_nil] at least
    omega
  have consumed := Buffer.consumeInto_some c.sendBound.ioBlock
    (UInt32.lt_iff_toNat_lt.mpr positive) filled
  rw [blockTaken]
  simp only [consumed, Buffer.data_frontErase, and_true]
  refine List.take_left' ?_
  rw [List.length_take]
  omega

theorem block_decreases {c : TcpConnSync} (more : c.sendBound.buffer.getLength ≠ 0) :
    c.blockTaken.sendBound.buffer.data.length < c.sendBound.buffer.data.length := by
  have positive := toWrite_pos more
  have amount := toNat_toWrite c
  have least := Buffer.toNat_getLength_le c.sendBound.buffer
  rw [(blockTaken_eq more).2, List.length_drop]
  omega

/-- The loop of `do_write`: block by block until the buffer's 32-bit size is
zero. -/
def writeBlocks (c : TcpConnSync) (w : Sink) : Bool × TcpConnSync × Sink :=
  if _more : c.sendBound.buffer.getLength = 0 then (true, c, w)
  else
    match w.write (c.blockTaken.sendBound.ioBlock.take c.toWrite.toNat) with
    | (some ec, w) => (false, (c.blockTaken.handleSocketEc ec).2, w)
    | (none, w) => writeBlocks c.blockTaken w
  termination_by c.sendBound.buffer.data.length
  decreasing_by exact block_decreases _more

def doWrite (c : TcpConnSync) (w : Sink) : Bool × TcpConnSync × Sink :=
  if c.connStat ≠ .kWorking then (false, c, w)
  else writeBlocks c w

def sendNetMessage (c : TcpConnSync) (w : Sink) (msg : Message) : Bool × TcpConnSync × Sink :=
  if c.clientSetting.sendMaxMsgSize ≠ 0 ∧ c.clientSetting.sendMaxMsgSize < msg.header.length then
    (false, c, w)
  else
    doWrite { c with sendBound := { c.sendBound with buffer := c.sendBound.buffer.append msg } } w

end TcpConnSync

end Heracles.Client
