import Heracles.Client.Pairing
import Heracles.Rpc.MonitorTaskService

/-!
A rejection on its way to the caller.

`RpcInstance::reject` leaves the service id and the opcode of the response header
zero; `call_RPC` compares both with those of the call before it looks at the
status. `returns_of_rejection` says what the waiting call returns in every case.
-/

namespace Heracles.Client

open Heracles.Base
open Heracles.Core
open Heracles.Network
open Heracles.Rpc

/-- The status of the server under the name the client has for it. -/
def RpcClientStatus.ofResponse (status : RpcResponseStatus) : RpcClientStatus := ⟨status.code⟩

theorem length_ofStatus (status : RpcResponseStatus) :
    (RpcResponseMessage.ofStatus status).netStr.length = RpcResponseHeader.size :=
  RpcResponseMessage.length_netStr _

/-- The message of a rejection. -/
def rejection (status : RpcResponseStatus) : Response where
  message := RpcInstance.reject status
  whole := by
    refine (length_ofPayload (lt_of_eq_of_lt (length_ofStatus status) ?_)).symm
    decide

/-- The call asks for service 0 and operation 0, as every rejection says it does. -/
def Call.Unnumbered (call : Call) : Prop := call.serviceId = 0 ∧ call.opcode = 0

instance (call : Call) : Decidable call.Unnumbered := inferInstanceAs (Decidable (_ ∧ _))

/-- The connection is open and its limit lets a response without a payload
through. -/
def TcpConnSync.Admits (c : TcpConnSync) : Prop :=
  c.connStat = .kWorking ∧
    (c.clientSetting.recvMaxMsgSize = 0 ∨
      RpcResponseHeader.size ≤ c.clientSetting.recvMaxMsgSize.toNat)

instance (c : TcpConnSync) : Decidable c.Admits := inferInstanceAs (Decidable (_ ∧ (_ ∨ _)))

theorem checkResponse_reject {status : RpcResponseStatus} (failed : status ≠ RpcResponseStatus.OK)
    (call : Call) :
    call.checkResponse (RpcInstance.reject status) =
      if call.Unnumbered then (RpcClientStatus.ofResponse status, none)
      else (RpcClientStatus.RECV_FORMAT_ERROR, none) := by
  have parsed : RpcResponseMessage.parse (RpcInstance.reject status).payload =
      some (RpcResponseMessage.ofStatus status) := RpcResponseMessage.parse_netStr _
  rw [Call.checkResponse, parsed]
  by_cases unnumbered : call.Unnumbered
  · have service : call.serviceId = 0 := unnumbered.1
    have operation : call.opcode = 0 := unnumbered.2
    have checked : ¬((RpcResponseMessage.ofStatus status).header.magic ≠ kRpcHeaderMagic ∨
        (RpcResponseMessage.ofStatus status).header.serviceId ≠ call.serviceId ∨
        (RpcResponseMessage.ofStatus status).header.opcode ≠ call.opcode) := by
      rw [service, operation]
      exact fun differs => differs.elim (fun magic => magic rfl) fun numbers =>
        numbers.elim (fun zero => zero rfl) fun zero => zero rfl
    rw [if_pos unnumbered]
    exact (if_neg checked).trans (if_pos failed)
  · rw [if_neg unnumbered]
    refine if_pos (Or.inr ?_)
    by_contra! numbers
    exact unnumbered ⟨numbers.1.symm, numbers.2.symm⟩

namespace Caller

/-- The call waits for its response, nothing is unread, and the rejection is what
is on its way. -/
structure TurnedAway (s : Caller) (call : Call) (conn : TcpConnSync)
    (status : RpcResponseStatus) : Prop where
  alive : s.crashed = false
  sent : s.progress = .sent call
  held : s.client.conn = some conn
  unread : conn.recvBound.buffer.data = []
  arrives : s.peer.undelivered = (RpcInstance.reject status).netStr

/-- What the call makes of a rejection. -/
def statusOfRejection (s : Caller) (call : Call) (conn : TcpConnSync)
    (status : RpcResponseStatus) : RpcClientStatus :=
  if conn.Admits then (call.checkResponse (RpcInstance.reject status)).1
  else s.client.failure RpcClientStatus.NETWORK_RECV_ERROR

section TurnedAway

variable {s : Caller} {call : Call} {conn : TcpConnSync} {status : RpcResponseStatus}

theorem TurnedAway.stream (turnedAway : TurnedAway s call conn status) (offers : Nat → Nat) :
    conn.remaining ⟨s.peer.undelivered, offers, 0⟩ =
      (Message.ofPayload (RpcResponseMessage.ofStatus status).netStr).netStr ++ [] := by
  rw [TcpConnSync.remaining, turnedAway.unread, turnedAway.arrives, List.nil_append,
    List.append_nil]
  rfl

/-- The running call returns this status in the next two steps. -/
def Returns (s : Caller) (call : Call) (status : RpcClientStatus) (offers : Nat → Nat) : Prop :=
  ∃ respload, (run step s [.recv offers, .fail]).returned =
    s.returned ++ [⟨s.calls, call, status, respload⟩]

/-- A call whose response has been read has returned. -/
theorem returns_of_read (alive : s.crashed = false) (sent : s.progress = .sent call)
    (held : s.client.conn = some conn) {offers : Nat → Nat} {netMessage : Message}
    {conn' : TcpConnSync} {socket : Socket}
    (read : conn.recvNetMessage ⟨s.peer.undelivered, offers, 0⟩ Message.empty =
      some (true, netMessage, conn', socket)) :
    Returns s call (call.checkResponse netMessage).1 offers := by
  refine ⟨(call.checkResponse netMessage).2, ?_⟩
  have stepped : s.step (.recv offers) =
      { s with
        client := { s.client with conn := some conn' }
        peer := { s.peer with
          undelivered := socket.undelivered
          carried := s.peer.carried + 1 } }.finish call
        (call.checkResponse netMessage).1 (call.checkResponse netMessage).2 := by
    rw [step_alive alive, perform, recv, sent, held]
    simp only [read]
  rw [run_cons, stepped, run_cons, run_nil, step_alive]
  · rfl
  · exact alive

/-- A call whose read fails looks at `was_timeout_` and returns. -/
theorem returns_of_refused (alive : s.crashed = false) (sent : s.progress = .sent call)
    (held : s.client.conn = some conn) {offers : Nat → Nat} {netMessage : Message}
    {conn' : TcpConnSync} {socket : Socket}
    (read : conn.recvNetMessage ⟨s.peer.undelivered, offers, 0⟩ Message.empty =
      some (false, netMessage, conn', socket)) :
    Returns s call (s.client.failure RpcClientStatus.NETWORK_RECV_ERROR) offers := by
  refine ⟨none, ?_⟩
  have stepped : s.step (.recv offers) = s.drop call RpcClientStatus.NETWORK_RECV_ERROR := by
    rw [step_alive alive, perform, recv, sent, held]
    simp only [read]
    rfl
  rw [run_cons, stepped, run_cons, run_nil, step_alive]
  · rfl
  · exact alive

/-- The waiting call returns, whatever the connection makes of the rejection. -/
theorem returns_of_rejection (turnedAway : TurnedAway s call conn status) (offers : Nat → Nat) :
    Returns s call (s.statusOfRejection call conn status) offers := by
  have stream := turnedAway.stream offers
  obtain ⟨alive, sent, held, unread, _⟩ := turnedAway
  have small : TcpConnSync.Small conn := by
    rw [TcpConnSync.Small, unread]
    decide
  have length := length_ofStatus status
  have short : (RpcResponseMessage.ofStatus status).netStr.length < 2 ^ 31 := by
    rw [length]
    decide
  rw [statusOfRejection]
  by_cases admits : conn.Admits
  · rw [if_pos admits]
    obtain ⟨conn', socket, read, _⟩ := TcpConnSync.recvNetMessage_admitted admits.1 small short
      stream (by rw [length]; exact admits.2) Message.empty
    exact returns_of_read alive sent held read
  · rw [if_neg admits]
    by_cases working : conn.connStat = .kWorking
    · obtain ⟨netMessage, conn', socket, read⟩ :=
        TcpConnSync.recvNetMessage_refused working small short stream
          (by rw [length]; exact fun within => admits ⟨working, within⟩) Message.empty
      exact returns_of_refused alive sent held read
    · have closed : conn.recvNetMessage ⟨s.peer.undelivered, offers, 0⟩ Message.empty =
          some (false, Message.empty, conn, ⟨s.peer.undelivered, offers, 0⟩) := by
        rw [TcpConnSync.recvNetMessage, TcpConnSync.doRead, if_pos working]
      exact returns_of_refused alive sent held closed

/-- The server answers the request of a waiting call with a rejection; nothing
else is on its way. -/
theorem Orderly.turnedAway (orderly : Orderly s) (alive : s.crashed = false)
    (sent : s.progress = .sent call) (held : s.client.conn = some conn)
    (unanswered : s.peer.answered = s.peer.carried)
    (found : s.peer.carried < (parse s.serverLimit s.peer.received).payloads.length)
    (status : RpcResponseStatus) :
    TurnedAway (s.step (.respond s.peer.carried (rejection status))) call conn status := by
  have before := orderly conn held
  rw [sent] at before
  obtain ⟨unread, awaiting⟩ := before
  have nothing : s.peer.undelivered = [] := by
    cases awaiting with
    | unanswered undelivered _ _ => exact undelivered
    | answered _ _ answered _ _ => omega
  have possible : s.client.conn.isSome ∧ s.peer.answered ≤ s.peer.carried ∧
      s.peer.carried < (parse s.serverLimit s.peer.received).payloads.length :=
    ⟨by rw [held]; rfl, unanswered.le, found⟩
  rw [step_alive alive, perform, Caller.respond, if_pos possible]
  refine ⟨alive, sent, held, unread, ?_⟩
  simp only [nothing, List.nil_append]
  rfl

/-- So it is in every run whose sends are whole. -/
theorem turnedAway_of_run {serverLimit : UInt32} {clientSetting : RpcClientSetting}
    {actions : List Action} (whole : Along step SendsWhole (fresh serverLimit clientSetting) actions)
    (reached : run step (fresh serverLimit clientSetting) actions = s) (alive : s.crashed = false)
    (sent : s.progress = .sent call) (held : s.client.conn = some conn)
    (unanswered : s.peer.answered = s.peer.carried)
    (found : s.peer.carried < (parse s.serverLimit s.peer.received).payloads.length)
    (status : RpcResponseStatus) :
    TurnedAway (s.step (.respond s.peer.carried (rejection status))) call conn status := by
  have orderly : Orderly s := by
    rw [← reached]
    exact whole.invariant (fun _ _ orderly sends => orderly.step sends) (orderly_of_dropped rfl)
  exact orderly.turnedAway alive sent held unanswered found status

/-- The call returns one status. -/
theorem Returns.unique {offers : Nat → Nat} {first second : RpcClientStatus}
    (returns : Returns s call first offers) (returns' : Returns s call second offers) :
    first = second := by
  obtain ⟨respload, returned⟩ := returns
  obtain ⟨respload', returned'⟩ := returns'
  have same := List.append_cancel_left (returned.symm.trans returned')
  exact congrArg Return.status (List.singleton_inj.mp same)

theorem failure_ne_ofResponse (c : RpcClientImpl)
    (rejected : status = RpcResponseStatus.INVALID_REQUEST ∨
      status = RpcResponseStatus.INVALID_SERVICE) :
    c.failure RpcClientStatus.NETWORK_RECV_ERROR ≠ RpcClientStatus.ofResponse status := by
  rw [RpcClientImpl.failure]
  rcases rejected with rfl | rfl
  · split
    · decide
    · decide
  · split
    · decide
    · decide

/-- A call whose request the server has rejected returns the server's status
exactly when it asks for service 0 and operation 0 and the response gets
through. -/
theorem rejection_reaches_caller_iff (services : List UInt16) (proto : ProtoBuf)
    (repos : EventReposIf) (offers : Nat → Nat)
    (rejected : answers services proto repos call.request = [RpcInstance.reject status])
    (failed : status ≠ RpcResponseStatus.OK) (turnedAway : TurnedAway s call conn status) :
    Returns s call (RpcClientStatus.ofResponse status) offers ↔
      call.serviceId = 0 ∧ call.opcode = 0 ∧ conn.connStat = .kWorking ∧
        (conn.clientSetting.recvMaxMsgSize = 0 ∨
          RpcResponseHeader.size ≤ conn.clientSetting.recvMaxMsgSize.toNat) := by
  have known := reject_mem_answers failed (by rw [rejected]; exact List.mem_singleton_self _)
  have returns := returns_of_rejection turnedAway offers
  have same : Returns s call (RpcClientStatus.ofResponse status) offers ↔
      s.statusOfRejection call conn status = RpcClientStatus.ofResponse status := by
    constructor
    · intro expected
      exact returns.unique expected
    · intro same
      rw [← same]
      exact returns
  rw [same, statusOfRejection, ← and_assoc]
  change _ ↔ call.Unnumbered ∧ conn.Admits
  by_cases admits : conn.Admits
  · rw [if_pos admits, checkResponse_reject failed]
    by_cases unnumbered : call.Unnumbered
    · rw [if_pos unnumbered]
      exact iff_of_true rfl ⟨unnumbered, admits⟩
    · rw [if_neg unnumbered]
      refine iff_of_false ?_ fun both => unnumbered both.1
      rcases known with rfl | rfl
      · decide
      · decide
  · rw [if_neg admits]
    exact iff_of_false (failure_ne_ofResponse s.client known) fun both => admits both.2

end TurnedAway

/-- A call that asks for service 0 and operation 0 waits, and its rejection is on
its way. -/
def unnumbered : Caller :=
  waiting (fresh 0 ⟨0, 64⟩) ⟨0, 0, bytes "a", 0⟩ (TcpConnSync.fresh ⟨0, 64⟩) [] 0
    (rejection RpcResponseStatus.INVALID_SERVICE)

theorem unnumbered_rejection_reaches_caller :
    Returns unnumbered ⟨0, 0, bytes "a", 0⟩
      (RpcClientStatus.ofResponse RpcResponseStatus.INVALID_SERVICE) fun _ => 64 :=
  (rejection_reaches_caller_iff [1] servicesProto emptyRepos (fun _ => 64) (by decide +kernel)
    (by decide) ⟨rfl, rfl, rfl, rfl, rfl⟩).mpr ⟨rfl, rfl, rfl, Or.inr (by decide)⟩

/-- A request for a service that is not there. -/
def unknownService : Call := ⟨7, 1, bytes "a", 0⟩

/-- The call of it has been entered. -/
def unknownEntered : Caller :=
  { fresh 0 ⟨0, 64⟩ with
    client := ⟨⟨0, 64⟩, false, none, some (TcpConnSync.fresh ⟨0, 64⟩)⟩
    progress := .connected unknownService
    calls := 1 }

theorem unknown_found :
    0 < (parse unknownEntered.serverLimit (unknownEntered.peer.received ++
      written unknownService.message.netStr)).payloads.length := by
  have whole : unknownEntered.peer.received ++ written unknownService.message.netStr =
      (Message.ofPayload unknownService.request).netStr ++ [] := by decide +kernel
  have limit : unknownEntered.serverLimit = 0 := rfl
  rw [whole, limit, parse_ofPayload [] (by decide) (Or.inl rfl)]
  exact Nat.succ_pos _

/-- It is sent and rejected. -/
def rejectedRun : List Action :=
  [.enter unknownService true, .arm, .send none,
    .respond 0 (rejection RpcResponseStatus.INVALID_SERVICE)]

/-- The server answers it with `INVALID_SERVICE`, the call returns
`RECV_FORMAT_ERROR`. -/
theorem unknown_service_format_error :
    (∀ proto repos, answers [1] proto repos unknownService.request =
        [RpcInstance.reject RpcResponseStatus.INVALID_SERVICE]) ∧
      (run step (fresh 0 ⟨0, 64⟩) (rejectedRun ++ [.recv fun _ => 64, .fail])).returned.map
        Return.status = [RpcClientStatus.RECV_FORMAT_ERROR] := by
  constructor
  · intro proto repos
    have dispatched : Dispatcher.handleRPC [1] (RpcInstance.make unknownService.request
        (Int32.ofNat unknownService.request.length)) =
        .rejected (RpcInstance.reject RpcResponseStatus.INVALID_SERVICE) := by decide +kernel
    rw [answers, dispatched]
  · obtain ⟨c, waits, idle, _⟩ := run_waiting (s := unknownEntered) rfl rfl rfl idle_fresh rfl rfl
      (List.nil_append _) (Nat.le_refl 0) unknown_found
      (rejection RpcResponseStatus.INVALID_SERVICE)
    have turnedAway : TurnedAway (waiting unknownEntered unknownService c
        ([] ++ written unknownService.message.netStr) 0
        (rejection RpcResponseStatus.INVALID_SERVICE)) unknownService c
        RpcResponseStatus.INVALID_SERVICE := ⟨rfl, rfl, rfl, idle.unread, rfl⟩
    obtain ⟨respload, returned⟩ := returns_of_rejection turnedAway fun _ => 64
    have admits : c.Admits := ⟨idle.working, Or.inr (by rw [idle.setting]; decide)⟩
    rw [statusOfRejection, if_pos admits] at returned
    have reached : run step (fresh 0 ⟨0, 64⟩) rejectedRun = waiting unknownEntered unknownService c
        ([] ++ written unknownService.message.netStr) 0
        (rejection RpcResponseStatus.INVALID_SERVICE) := waits
    rw [run_append, reached, returned]
    rfl

end Caller

end Heracles.Client
