import Heracles.Base.Runs
import Heracles.Base.Timer
import Heracles.Client.TcpConnSync
import Heracles.Network.Frames
import Heracles.Rpc.RpcMessage

/-!
The client's remote procedure call.

`RpcClientImpl` holds the functions `call_RPC` is made of; `Caller` takes the
call apart into the steps between which the timer thread and the server can act.
`call_mutex_` admits one call at a time, so there is one phase. Each wait on the
timer is labelled with the number of the call that armed it, which the client
itself does not know. A null `conn_` that is dereferenced ends the run.
-/

namespace Heracles.Client

open Heracles.Base
open Heracles.Core
open Heracles.Network
open Heracles.Rpc

/-- `enum class RpcClientStatus : uint8_t`: the status byte of a response is cast
to it unchecked. -/
structure RpcClientStatus where
  code : UInt8
  deriving DecidableEq, Repr

namespace RpcClientStatus

def OK : RpcClientStatus := ⟨0⟩

def NETWORK_CONNECT_ERROR : RpcClientStatus := ⟨11⟩

def NETWORK_SEND_ERROR : RpcClientStatus := ⟨12⟩

def NETWORK_RECV_ERROR : RpcClientStatus := ⟨13⟩

def RPC_CALL_TIMEOUT : RpcClientStatus := ⟨20⟩

def RECV_FORMAT_ERROR : RpcClientStatus := ⟨21⟩

end RpcClientStatus

/-- The arguments of a `call_RPC`. -/
structure Call where
  serviceId : UInt16
  opcode : UInt16
  payload : Bytes
  timeoutSec : UInt32
  deriving DecidableEq, Repr

namespace Call

/-- The request as `send_rpc_message` puts it into a message. -/
def request (call : Call) : Bytes :=
  (RpcRequestMessage.make call.serviceId call.opcode call.payload).netStr

def message (call : Call) : Message := Message.ofPayload call.request

/-- What `call_RPC` makes of the message it has received: the status and, when it
is `OK`, the payload for the caller. -/
def checkResponse (call : Call) (netMessage : Message) : RpcClientStatus × Option Bytes :=
  match RpcResponseMessage.parse netMessage.payload with
  | none => (RpcClientStatus.RECV_FORMAT_ERROR, none)
  | some response =>
      if response.header.magic ≠ kRpcHeaderMagic ∨ response.header.serviceId ≠ call.serviceId ∨
          response.header.opcode ≠ call.opcode then
        (RpcClientStatus.RECV_FORMAT_ERROR, none)
      else if response.header.status ≠ RpcResponseStatus.OK then
        (⟨response.header.status.code⟩, none)
      else (RpcClientStatus.OK, some response.payload)

end Call

/-- The timer carries the completions of its waits that the io_service has not
run yet. -/
structure RpcClientImpl where
  clientSetting : RpcClientSetting
  wasTimeout : Bool
  rpcCallTimer : Option (Timer Nat)
  conn : Option TcpConnSync
  deriving DecidableEq, Repr

namespace RpcClientImpl

/-- A client as constructed. -/
def fresh (clientSetting : RpcClientSetting) : RpcClientImpl where
  clientSetting := clientSetting
  wasTimeout := false
  rpcCallTimer := none
  conn := none

/-- Arm the timer for the call of this number; zero seconds leave everything as
it is, an armed timer included. -/
def setRpcCallTimeout (c : RpcClientImpl) (number : Nat) (sec : UInt32) : RpcClientImpl :=
  if sec = 0 then c
  else
    { c with
      wasTimeout := false
      rpcCallTimer := some ((c.rpcCallTimer.getD Timer.fresh).rearm number) }

/-- The timer's handler; `none` when it dereferences a null `conn_`. -/
def rpcCallTimeout (c : RpcClientImpl) (ec : ErrorCode) : Option RpcClientImpl :=
  match ec with
  | .success =>
      match c.conn with
      | none => none
      | some conn => some { c with wasTimeout := true, conn := some conn.sockShutdownAndClose }
  | .operationAborted => some c

/-- The status of a call whose connection failed it. -/
def failure (c : RpcClientImpl) (status : RpcClientStatus) : RpcClientStatus :=
  if c.wasTimeout then RpcClientStatus.RPC_CALL_TIMEOUT else status

/-- The `i`-th completion waiting to be run, with the call that armed its timer. -/
def completion (c : RpcClientImpl) (i : Nat) : Option (Nat × ErrorCode) :=
  c.rpcCallTimer.bind fun timer => timer.queued[i]?

end RpcClientImpl

/-- A response of the server: one message whose length field is that of its
payload. Everything else in it can be anything. -/
structure Response where
  message : Message
  whole : message.payload.length = message.header.length.toNat

/-- The far end of the current connection. The server parses what it has received
into requests and answers a request at most once, never one before a request it
has answered. `carried` counts the calls the connection has served so far. -/
structure Peer where
  received : Bytes
  undelivered : Bytes
  carried : Nat
  answered : Nat
  answers : List (Nat × Message)
  deriving DecidableEq, Repr

def Peer.fresh : Peer := ⟨[], [], 0, 0, []⟩

/-- How far the running call is: its connection is there, its timer is set if it
has one, its request is sent, or its connection has failed it and is dropped. -/
inductive Progress where
  | idle
  | connected (call : Call)
  | armed (call : Call)
  | sent (call : Call)
  | failed (call : Call) (status : RpcClientStatus)
  deriving DecidableEq, Repr

structure Return where
  number : Nat
  call : Call
  status : RpcClientStatus
  respload : Option Bytes
  deriving DecidableEq, Repr

/-- A client with what surrounds it. `calls` counts the calls begun, `expired`
says whether the running call's own timer has expired during it. -/
structure Caller where
  serverLimit : UInt32
  client : RpcClientImpl
  peer : Peer
  progress : Progress
  calls : Nat
  expired : Bool
  returned : List Return
  crashed : Bool
  deriving DecidableEq, Repr

namespace Caller

def fresh (serverLimit : UInt32) (clientSetting : RpcClientSetting) : Caller where
  serverLimit := serverLimit
  client := RpcClientImpl.fresh clientSetting
  peer := Peer.fresh
  progress := .idle
  calls := 0
  expired := false
  returned := []
  crashed := false

def finish (s : Caller) (call : Call) (status : RpcClientStatus) (respload : Option Bytes) :
    Caller :=
  { s with progress := .idle, returned := s.returned ++ [⟨s.calls, call, status, respload⟩] }

/-- `conn_.reset()` after a failure. -/
def drop (s : Caller) (call : Call) (status : RpcClientStatus) : Caller :=
  { s with client := { s.client with conn := none }, progress := .failed call status }

/-! ### The call -/

/-- `call_RPC` is entered: connect unless the last connection was kept. -/
def enter (s : Caller) (call : Call) (connects : Bool) : Caller :=
  match s.progress, s.client.conn with
  | .idle, some _ =>
      { s with calls := s.calls + 1, expired := false, progress := .connected call }
  | .idle, none =>
      let s := { s with calls := s.calls + 1, expired := false }
      if connects then
        { s with
          client := { s.client with conn := some (TcpConnSync.fresh s.client.clientSetting) }
          peer := Peer.fresh
          progress := .connected call }
      else s.finish call RpcClientStatus.NETWORK_CONNECT_ERROR none
  | _, _ => s

/-- The timer is armed, for a call that has one. -/
def arm (s : Caller) : Caller :=
  match s.progress with
  | .connected call =>
      { s with
        client :=
          if 0 < call.timeoutSec then s.client.setRpcCallTimeout s.calls call.timeoutSec
          else s.client
        progress := .armed call }
  | _ => s

/-- The request is written, up to an error of the socket if there is one. -/
def send (s : Caller) (fault : Option (Nat × SocketError)) : Caller :=
  match s.progress, s.client.conn with
  | .armed call, some conn =>
      let (ok, conn, sink) := conn.sendNetMessage ⟨s.peer.received, fault⟩ call.message
      let s := { s with
        client := { s.client with conn := some conn }
        peer := { s.peer with received := sink.written } }
      if ok then { s with progress := .sent call }
      else s.drop call RpcClientStatus.NETWORK_SEND_ERROR
  | _, _ => s

/-- The response is read, if all of it is there, and checked. -/
def recv (s : Caller) (offers : Nat → Nat) : Caller :=
  match s.progress, s.client.conn with
  | .sent call, some conn =>
      match conn.recvNetMessage ⟨s.peer.undelivered, offers, 0⟩ Message.empty with
      | none => s
      | some (true, netMessage, conn, socket) =>
          let (status, respload) := call.checkResponse netMessage
          { s with
            client := { s.client with conn := some conn }
            peer := { s.peer with
              undelivered := socket.undelivered
              carried := s.peer.carried + 1 } }.finish call status respload
      | some (false, _, conn, _) =>
          { s with client := { s.client with conn := some conn } }.drop call
            RpcClientStatus.NETWORK_RECV_ERROR
  | _, _ => s

/-- A read of the response ends with an error. -/
def recvError (s : Caller) (ec : SocketError) : Caller :=
  match s.progress, s.client.conn with
  | .sent call, some conn =>
      { s with client := { s.client with conn := some (conn.readFailed ec).2 } }.drop call
        RpcClientStatus.NETWORK_RECV_ERROR
  | _, _ => s

/-- A failed call looks at `was_timeout_` and returns. -/
def fail (s : Caller) : Caller :=
  match s.progress with
  | .failed call status => s.finish call (s.client.failure status) none
  | _ => s

/-! ### Timer and server -/

/-- The running call is the one of this number. -/
def Running (s : Caller) (number : Nat) : Prop := s.progress ≠ .idle ∧ number = s.calls

instance (s : Caller) (number : Nat) : Decidable (s.Running number) :=
  inferInstanceAs (Decidable (_ ∧ _))

/-- The timer reaches its expiry time. -/
def expire (s : Caller) : Caller :=
  match s.client.rpcCallTimer with
  | none => s
  | some timer =>
      { s with
        client := { s.client with rpcCallTimer := some timer.expire }
        expired := s.expired || timer.pending.any fun number => s.Running number }

/-- The io_service runs the handler of the `i`-th completion. -/
def handler (s : Caller) (i : Nat) : Caller :=
  match s.client.completion i with
  | none => s
  | some (_, ec) =>
      let client := { s.client with
        rpcCallTimer := s.client.rpcCallTimer.map fun timer => Timer.take timer i }
      match client.rpcCallTimeout ec with
      | none => { s with crashed := true }
      | some client => { s with client := client }

/-- The server answers the `i`-th request of the connection. -/
def respond (s : Caller) (i : Nat) (response : Response) : Caller :=
  if s.client.conn.isSome ∧ s.peer.answered ≤ i ∧
      i < (parse s.serverLimit s.peer.received).payloads.length then
    { s with
      peer := { s.peer with
        undelivered := s.peer.undelivered ++ response.message.netStr
        answered := i + 1
        answers := s.peer.answers ++ [(i, response.message)] } }
  else s

inductive Action where
  | enter (call : Call) (connects : Bool)
  | arm
  | send (fault : Option (Nat × SocketError))
  | recv (offers : Nat → Nat)
  | recvError (ec : SocketError)
  | fail
  | expire
  | handler (i : Nat)
  | respond (i : Nat) (response : Response)

/-- An action that is not possible leaves the state alone. -/
def perform (s : Caller) : Action → Caller
  | .enter call connects => s.enter call connects
  | .arm => s.arm
  | .send fault => s.send fault
  | .recv offers => s.recv offers
  | .recvError ec => s.recvError ec
  | .fail => s.fail
  | .expire => s.expire
  | .handler i => s.handler i
  | .respond i response => s.respond i response

def step (s : Caller) (a : Action) : Caller := if s.crashed then s else s.perform a

theorem step_alive {s : Caller} (alive : s.crashed = false) (a : Action) : s.step a = s.perform a := by
  rw [step, if_neg (by simp [alive])]

/-! ### What an action can do -/

theorem enter_cases (s : Caller) (call : Call) (connects : Bool) :
    s.enter call connects = s ∨
      (s.progress = .idle ∧
        ((∃ conn, s.client.conn = some conn ∧ s.enter call connects =
            { s with calls := s.calls + 1, expired := false, progress := .connected call }) ∨
          (s.client.conn = none ∧ s.enter call connects =
            { s with
              calls := s.calls + 1
              expired := false
              client :=
                { s.client with conn := some (TcpConnSync.fresh s.client.clientSetting) }
              peer := Peer.fresh
              progress := .connected call }) ∨
          s.client.conn = none ∧ s.enter call connects =
            { s with calls := s.calls + 1, expired := false }.finish call
              RpcClientStatus.NETWORK_CONNECT_ERROR none)) := by
  cases progress : s.progress with
  | idle =>
      refine Or.inr ⟨rfl, ?_⟩
      cases held : s.client.conn with
      | some conn => exact Or.inl ⟨conn, rfl, by rw [enter, progress, held]⟩
      | none =>
          cases connects with
          | true => exact Or.inr (Or.inl ⟨rfl, by rw [enter, progress, held]; rfl⟩)
          | false => exact Or.inr (Or.inr ⟨rfl, by rw [enter, progress, held]; rfl⟩)
  | _ => exact Or.inl (by rw [enter, progress])

theorem arm_cases (s : Caller) :
    s.arm = s ∨ ∃ call, s.progress = .connected call ∧ s.arm =
      { s with
        client :=
          if 0 < call.timeoutSec then s.client.setRpcCallTimeout s.calls call.timeoutSec
          else s.client
        progress := .armed call } := by
  cases progress : s.progress with
  | connected call => exact Or.inr ⟨call, rfl, by rw [arm, progress]⟩
  | _ => exact Or.inl (by rw [arm, progress])

theorem send_cases (s : Caller) (fault : Option (Nat × SocketError)) :
    s.send fault = s ∨ ∃ call conn ok conn' sink, s.progress = .armed call ∧
      s.client.conn = some conn ∧
      conn.sendNetMessage ⟨s.peer.received, fault⟩ call.message = (ok, conn', sink) ∧
      s.send fault =
        { s with
          client := { s.client with conn := if ok then some conn' else none }
          peer := { s.peer with received := sink.written }
          progress :=
            if ok then .sent call else .failed call RpcClientStatus.NETWORK_SEND_ERROR } := by
  cases progress : s.progress with
  | armed call =>
      cases held : s.client.conn with
      | none => exact Or.inl (by rw [send, progress, held])
      | some conn =>
          cases sent : conn.sendNetMessage ⟨s.peer.received, fault⟩ call.message with
          | mk ok rest =>
              obtain ⟨conn', sink⟩ := rest
              refine Or.inr ⟨call, conn, ok, conn', sink, rfl, rfl, sent, ?_⟩
              rw [send, progress, held]
              simp only [sent]
              cases ok with
              | true => rfl
              | false => rfl
  | _ => exact Or.inl (by rw [send, progress])

theorem recv_cases (s : Caller) (offers : Nat → Nat) :
    s.recv offers = s ∨ ∃ call conn, s.progress = .sent call ∧ s.client.conn = some conn ∧
      ((∃ netMessage conn' socket,
          conn.recvNetMessage ⟨s.peer.undelivered, offers, 0⟩ Message.empty =
            some (true, netMessage, conn', socket) ∧
          s.recv offers =
            { s with
              client := { s.client with conn := some conn' }
              peer := { s.peer with
                undelivered := socket.undelivered
                carried := s.peer.carried + 1 } }.finish call
              (call.checkResponse netMessage).1 (call.checkResponse netMessage).2) ∨
        s.recv offers = s.drop call RpcClientStatus.NETWORK_RECV_ERROR) := by
  cases progress : s.progress with
  | sent call =>
      cases held : s.client.conn with
      | none => exact Or.inl (by rw [recv, progress, held])
      | some conn =>
          cases read : conn.recvNetMessage ⟨s.peer.undelivered, offers, 0⟩ Message.empty with
          | none =>
              refine Or.inl ?_
              rw [recv, progress, held]
              simp only [read]
          | some result =>
              obtain ⟨ok, netMessage, conn', socket⟩ := result
              refine Or.inr ⟨call, conn, rfl, rfl, ?_⟩
              rw [recv, progress, held]
              simp only [read]
              cases ok with
              | true => exact Or.inl ⟨netMessage, conn', socket, rfl, rfl⟩
              | false => exact Or.inr rfl
  | _ => exact Or.inl (by rw [recv, progress])

theorem recvError_cases (s : Caller) (ec : SocketError) :
    s.recvError ec = s ∨ ∃ call conn, s.progress = .sent call ∧ s.client.conn = some conn ∧
      s.recvError ec = s.drop call RpcClientStatus.NETWORK_RECV_ERROR := by
  cases progress : s.progress with
  | sent call =>
      cases held : s.client.conn with
      | none => exact Or.inl (by rw [recvError, progress, held])
      | some conn => exact Or.inr ⟨call, conn, rfl, rfl, by rw [recvError, progress, held]; rfl⟩
  | _ => exact Or.inl (by rw [recvError, progress])

theorem fail_cases (s : Caller) :
    s.fail = s ∨ ∃ call status, s.progress = .failed call status ∧
      s.fail = s.finish call (s.client.failure status) none := by
  cases progress : s.progress with
  | failed call status => exact Or.inr ⟨call, status, rfl, by rw [fail, progress]⟩
  | _ => exact Or.inl (by rw [fail, progress])

/-- A completion that is run leaves the queue; an expiry closes the connection. -/
theorem handler_cases (s : Caller) (i : Nat) :
    (s.client.completion i = none ∧ s.handler i = s) ∨
      ∃ number timer, s.client.completion i = some (number, .operationAborted) ∧
          s.client.rpcCallTimer = some timer ∧
          s.handler i =
            { s with client := { s.client with rpcCallTimer := some (timer.take i) } } ∨
        s.client.completion i = some (number, .success) ∧
          s.client.rpcCallTimer = some timer ∧
          ((s.client.conn = none ∧ s.handler i = { s with crashed := true }) ∨
            ∃ conn, s.client.conn = some conn ∧ s.handler i =
              { s with
                client := { s.client with
                  wasTimeout := true
                  rpcCallTimer := some (timer.take i)
                  conn := some conn.sockShutdownAndClose } }) := by
  cases armed : s.client.rpcCallTimer with
  | none =>
      have nothing : s.client.completion i = none := by rw [RpcClientImpl.completion, armed]; rfl
      exact Or.inl ⟨nothing, by rw [handler, nothing]⟩
  | some timer =>
      cases queued : s.client.completion i with
      | none => exact Or.inl ⟨rfl, by rw [handler, queued]⟩
      | some completion =>
          obtain ⟨number, ec⟩ := completion
          refine Or.inr ⟨number, timer, ?_⟩
          cases ec with
          | operationAborted =>
              refine Or.inl ⟨rfl, rfl, ?_⟩
              rw [handler, queued]
              simp only [RpcClientImpl.rpcCallTimeout, armed, Option.map_some]
          | success =>
              refine Or.inr ⟨rfl, rfl, ?_⟩
              cases held : s.client.conn with
              | none =>
                  refine Or.inl ⟨rfl, ?_⟩
                  rw [handler, queued]
                  simp only [RpcClientImpl.rpcCallTimeout, held]
              | some conn =>
                  refine Or.inr ⟨conn, rfl, ?_⟩
                  rw [handler, queued]
                  simp only [RpcClientImpl.rpcCallTimeout, held, armed, Option.map_some]

/-- A call that has failed has failed to send or to receive. -/
def NetworkFailure (s : Caller) : Prop :=
  ∀ call status, s.progress = .failed call status →
    status = RpcClientStatus.NETWORK_SEND_ERROR ∨ status = RpcClientStatus.NETWORK_RECV_ERROR

theorem NetworkFailure.same {s s' : Caller} (failure : NetworkFailure s)
    (progress : s'.progress = s.progress) : NetworkFailure s' := by
  intro call status failed
  exact failure call status (progress.symm.trans failed)

theorem networkFailure_of_ne {s : Caller} (other : ∀ call status, s.progress ≠ .failed call status) :
    NetworkFailure s := fun call status failed => absurd failed (other call status)

theorem networkFailure_drop (s : Caller) (call : Call) :
    NetworkFailure (s.drop call RpcClientStatus.NETWORK_RECV_ERROR) := by
  intro call' status failed
  cases failed
  exact Or.inr rfl

theorem NetworkFailure.step {s : Caller} (failure : NetworkFailure s) (a : Action) :
    NetworkFailure (s.step a) := by
  rw [Caller.step]
  split
  · exact failure
  · cases a with
    | enter call connects =>
        rcases s.enter_cases call connects with same | ⟨_, ⟨_, _, next⟩ | ⟨_, next⟩ | ⟨_, next⟩⟩
        · rw [perform, same]
          exact failure
        · rw [perform, next]
          exact networkFailure_of_ne fun _ _ => nofun
        · rw [perform, next]
          exact networkFailure_of_ne fun _ _ => nofun
        · rw [perform, next]
          exact networkFailure_of_ne fun _ _ => nofun
    | arm =>
        rcases s.arm_cases with same | ⟨_, _, next⟩
        · rw [perform, same]
          exact failure
        · rw [perform, next]
          exact networkFailure_of_ne fun _ _ => nofun
    | send fault =>
        rcases s.send_cases fault with same | ⟨call, conn, ok, conn', sink, _, _, _, next⟩
        · rw [perform, same]
          exact failure
        · rw [perform, next]
          intro call' status failed
          cases ok with
          | true => cases failed
          | false =>
              cases failed
              exact Or.inl rfl
    | recv offers =>
        rcases s.recv_cases offers with same | ⟨call, _, _, _, ⟨_, _, _, _, next⟩ | next⟩
        · rw [perform, same]
          exact failure
        · rw [perform, next]
          exact networkFailure_of_ne fun _ _ => nofun
        · rw [perform, next]
          exact networkFailure_drop s call
    | recvError ec =>
        rcases s.recvError_cases ec with same | ⟨call, _, _, _, next⟩
        · rw [perform, same]
          exact failure
        · rw [perform, next]
          exact networkFailure_drop s call
    | fail =>
        rcases s.fail_cases with same | ⟨_, _, _, next⟩
        · rw [perform, same]
          exact failure
        · rw [perform, next]
          exact networkFailure_of_ne fun _ _ => nofun
    | expire =>
        rw [perform, expire]
        split
        · exact failure
        · exact failure.same rfl
    | handler i =>
        rcases s.handler_cases i with ⟨_, same⟩ | ⟨_, _, ⟨_, _, next⟩ |
          ⟨_, _, ⟨_, next⟩ | ⟨_, _, next⟩⟩⟩
        · rw [perform, same]
          exact failure
        · rw [perform, next]
          exact failure.same rfl
        · rw [perform, next]
          exact failure.same rfl
        · rw [perform, next]
          exact failure.same rfl
    | respond i response =>
        rw [perform, respond]
        split
        · exact failure.same rfl
        · exact failure

/-- So it does not return `OK`. -/
theorem NetworkFailure.ne_ok {s : Caller} (failure : NetworkFailure s) {call : Call}
    {status : RpcClientStatus} (failed : s.progress = .failed call status) :
    s.client.failure status ≠ RpcClientStatus.OK := by
  rw [RpcClientImpl.failure]
  rcases failure call status failed with rfl | rfl
  · split
    · decide
    · decide
  · split
    · decide
    · decide

/-! ### Returns -/

theorem not_appended {returned : List Return} {r : Return} : returned ≠ returned ++ [r] := by
  simp

theorem returned_arm (s : Caller) : s.arm.returned = s.returned := by
  rcases s.arm_cases with same | ⟨_, _, next⟩
  · rw [same]
  · rw [next]

theorem returned_send (s : Caller) (fault : Option (Nat × SocketError)) :
    (s.send fault).returned = s.returned := by
  rcases s.send_cases fault with same | ⟨_, _, _, _, _, _, _, _, next⟩
  · rw [same]
  · rw [next]

theorem returned_recvError (s : Caller) (ec : SocketError) :
    (s.recvError ec).returned = s.returned := by
  rcases s.recvError_cases ec with same | ⟨_, _, _, _, next⟩
  · rw [same]
  · rw [next]
    rfl

theorem returned_expire (s : Caller) : s.expire.returned = s.returned := by
  unfold expire
  split
  · rfl
  · rfl

theorem returned_handler (s : Caller) (i : Nat) : (s.handler i).returned = s.returned := by
  rcases s.handler_cases i with ⟨_, same⟩ | ⟨_, _, ⟨_, _, next⟩ |
    ⟨_, _, ⟨_, next⟩ | ⟨_, _, next⟩⟩⟩
  · rw [same]
  · rw [next]
  · rw [next]
  · rw [next]

theorem returned_respond (s : Caller) (i : Nat) (response : Response) :
    (s.respond i response).returned = s.returned := by
  unfold respond
  split
  · rfl
  · rfl

/-- The return that was appended is the one found at the end. -/
theorem appended {s : Caller} {call : Call} {status : RpcClientStatus} {respload : Option Bytes}
    {r : Return} (new : (s.finish call status respload).returned = s.returned ++ [r]) :
    r = ⟨s.calls, call, status, respload⟩ := by
  have last := List.append_cancel_left new
  exact (List.singleton_inj.mp last).symm

/-- A call returns because it could not connect, after a failure, or with what the
response says. -/
theorem returned_cases {s : Caller} {a : Action} {r : Return}
    (new : (s.step a).returned = s.returned ++ [r]) :
    r.status = RpcClientStatus.NETWORK_CONNECT_ERROR ∨
      (∃ call status, s.progress = .failed call status ∧
        r = ⟨s.calls, call, s.client.failure status, none⟩) ∨
      ∃ offers call conn netMessage conn' socket, s.progress = .sent call ∧
        s.client.conn = some conn ∧
        conn.recvNetMessage ⟨s.peer.undelivered, offers, 0⟩ Message.empty =
          some (true, netMessage, conn', socket) ∧
        r = ⟨s.calls, call, (call.checkResponse netMessage).1,
          (call.checkResponse netMessage).2⟩ := by
  rw [step] at new
  split at new
  · exact absurd new not_appended
  · cases a with
    | enter call connects =>
        rw [perform] at new
        rcases s.enter_cases call connects with same | ⟨_, ⟨_, _, next⟩ | ⟨_, next⟩ | ⟨_, next⟩⟩
        · rw [same] at new
          exact absurd new not_appended
        · rw [next] at new
          exact absurd new not_appended
        · rw [next] at new
          exact absurd new not_appended
        · rw [next] at new
          exact Or.inl (congrArg Return.status (appended new))
    | arm => exact absurd (s.returned_arm.symm.trans new) not_appended
    | send fault => exact absurd ((s.returned_send fault).symm.trans new) not_appended
    | recv offers =>
        rw [perform] at new
        rcases s.recv_cases offers with same | ⟨call, conn, sent, held, outcome⟩
        · rw [same] at new
          exact absurd new not_appended
        · rcases outcome with ⟨netMessage, conn', socket, read, next⟩ | next
          · rw [next] at new
            exact Or.inr (Or.inr
              ⟨offers, call, conn, netMessage, conn', socket, sent, held, read, appended new⟩)
          · rw [next] at new
            exact absurd new not_appended
    | recvError ec => exact absurd ((s.returned_recvError ec).symm.trans new) not_appended
    | fail =>
        rw [perform] at new
        rcases s.fail_cases with same | ⟨call, status, failed, next⟩
        · rw [same] at new
          exact absurd new not_appended
        · rw [next] at new
          exact Or.inr (Or.inl ⟨call, status, failed, appended new⟩)
    | expire => exact absurd (s.returned_expire.symm.trans new) not_appended
    | handler i => exact absurd ((s.returned_handler i).symm.trans new) not_appended
    | respond i response =>
        exact absurd ((s.returned_respond i response).symm.trans new) not_appended

end Caller

end Heracles.Client
