import Heracles.Client.Pairing
import Heracles.Client.Rejection
import Heracles.Client.SelectStat
import Heracles.Rpc.Codec

/-!
The remote calls of the client.

Each helper marshals one request, calls the service, and looks at the response, if
there is one. `ClientProtoBuf` stands for the generated classes at this end. A remote
call is a local one that may fail: in every run of a client's calls, with time-outs,
network errors and new connections, a helper that succeeds has done or brought what the
repository did or had while its call was running (`remote_is_local`).
-/

namespace Heracles.Client

open Heracles.Base
open Heracles.Core
open Heracles.Network
open Heracles.Business
open Heracles.Rpc

/-! ### The helpers -/

namespace ServiceID

def MONITOR_TASK_SERVICE : UInt16 := 1

end ServiceID

/-- The generated classes: serialising and parsing. -/
structure ClientProtoBuf where
  marshalRead : ReadRequest → Bytes
  marshalWrite : WriteRequest → Bytes
  unmarshalRead : Bytes → Option ReadResponse
  unmarshalWrite : Bytes → Option WriteResponse

def pingRequest : ReadRequest := ⟨some (bytes "ping"), none, none, none⟩

/-- `rpc_ping`, where `call` is the remote call: without a response it has failed. -/
def rpcPing (call : ReadRequest → Option ReadResponse) : Int32 :=
  match call pingRequest with
  | none => -1
  | some response =>
      if response.code ≠ 0 then -1
      else if response.ping.getD [] = bytes "[[[pong]]]" then 0
      else -1

/-- `rpc_event_submit`. -/
def rpcEventSubmit (call : WriteRequest → Option WriteResponse) (version : Bytes)
    (report : EventReport) : Int32 :=
  if version = [] ∨ report.service = [] ∨ report.timestamp ≤ 0 then -1
  else
    match call ⟨some (version, report)⟩ with
    | none => -1
    | some response => if response.code ≠ 0 then -1 else 0

/-- `rpc_known_metrics`. -/
def rpcKnownMetrics (call : ReadRequest → Option ReadResponse) (version service : Bytes)
    (handlerConf : ServiceConf) (metrics : List Bytes) : Int32 × ServiceConf × List Bytes :=
  if service = [] then (-1, handlerConf, metrics)
  else
    match call ⟨none, none, some ⟨version, service⟩, none⟩ with
    | none => (-1, handlerConf, metrics)
    | some response =>
        if response.code ≠ 0 then (-1, handlerConf, metrics)
        else
          let known := response.metrics.getD ⟨[], [], none, none, none, []⟩
          if known.service ≠ service then (-1, handlerConf, metrics)
          else
            let handlerConf :=
              match known.eventStep with
              | none => handlerConf
              | some eventStep =>
                  ⟨eventStep, known.eventLinger.getD 0, known.storeType.getD []⟩
            (0, handlerConf, metrics ++ known.metric)

/-- `rpc_known_services`. -/
def rpcKnownServices (call : ReadRequest → Option ReadResponse) (version : Bytes)
    (services : List Bytes) : Int32 × List Bytes :=
  match call ⟨none, none, none, some version⟩ with
  | none => (-1, services)
  | some response =>
      if response.code ≠ 0 then (-1, services)
      else (0, services ++ (response.services.getD ⟨[], []⟩).service)

/-- The call that the helpers make for a read request; they set no time-out. -/
def readCall (client : ClientProtoBuf) (request : ReadRequest) (timeoutSec : UInt32) : Call :=
  ⟨ServiceID.MONITOR_TASK_SERVICE, OpCode.CMD_READ_EVENT, client.marshalRead request, timeoutSec⟩

/-- The call of `rpc_event_submit`. -/
def writeCall (client : ClientProtoBuf) (request : WriteRequest) (timeoutSec : UInt32) : Call :=
  ⟨ServiceID.MONITOR_TASK_SERVICE, OpCode.CMD_WRIT_EVENT, client.marshalWrite request, timeoutSec⟩

/-- What a helper has of a call when it has returned. -/
def response {α : Type} (unmarshal : Bytes → Option α) (status : RpcClientStatus)
    (respload : Option Bytes) : Option α :=
  if status ≠ RpcClientStatus.OK then none else respload.bind unmarshal

/-- The service at the other end of a write. -/
def callWrite (repos : EventReposIf) (request : WriteRequest) : Option WriteResponse :=
  request.report.map fun (version, report) =>
    let ret := repos.addEvent version report
    if ret ≠ 0 then ⟨ret, bytes "add_event failed."⟩ else ⟨0, bytes "OK"⟩

/-- A read without a network: the request is parsed, the service called, and the
response parsed. A service that cannot parse a request says so. -/
def localRead (client : ClientProtoBuf) (server : ProtoBuf) (repos : EventReposIf)
    (request : ReadRequest) : Option ReadResponse :=
  let answer : Option ReadResponse :=
    match server.unmarshalRead (client.marshalRead request) with
    | none => some
        { MonitorTaskService.okResponse with code := -1, desc := bytes "unmarshalling failed." }
    | some arrived => callRead repos arrived
  answer.bind fun response => client.unmarshalRead (server.marshalRead response)

def localWrite (client : ClientProtoBuf) (server : ProtoBuf) (repos : EventReposIf)
    (request : WriteRequest) : Option WriteResponse :=
  let answer : Option WriteResponse :=
    match server.unmarshalWrite (client.marshalWrite request) with
    | none => some ⟨-1, bytes "unmarshalling failed"⟩
    | some arrived => callWrite repos arrived
  answer.bind fun response => client.unmarshalWrite (server.marshalWrite response)

/-! ### What comes back for a request -/

/-- The payloads of a stream are no longer than a header can say. -/
theorem length_payloads {limit : UInt32} {stream payload : Bytes}
    (inside : payload ∈ (parse limit stream).payloads) : payload.length < 2 ^ 32 := by
  induction stream using parse.induct limit with
  | case1 stream short =>
      rw [parse, dif_pos short] at inside
      cases inside
  | case2 stream enough refused =>
      rw [parse, dif_neg enough, if_pos refused] at inside
      cases inside
  | case3 stream enough admitted length short =>
      rw [parse, dif_neg enough, if_neg admitted, if_pos short] at inside
      cases inside
  | case4 stream enough admitted length whole ih =>
      rw [parse, dif_neg enough, if_neg admitted, if_neg whole] at inside
      rcases List.mem_cons.mp inside with rfl | inside
      · have bound := (frontHeader stream).length.toNat_lt
        exact lt_of_le_of_lt (List.length_take_le _ _) bound
      · exact ih inside

/-- The payload of a request as the server takes it apart. -/
theorem validateRequest_request {call : Call} (short : call.request.length < 2 ^ 32)
    {inst : RpcInstance}
    (accepted : (RpcInstance.make call.request
      (Int32.ofNat call.request.length)).validateRequest = (true, inst)) :
    inst.serviceId = call.serviceId ∧ inst.opcode = call.opcode ∧
      inst.rpcRequestMessage = RpcRequestMessage.make call.serviceId call.opcode call.payload := by
  have first : (RpcInstance.make call.request
      (Int32.ofNat call.request.length)).validateRequest.1 = true := by rw [accepted]
  obtain ⟨service, operation, message⟩ := RpcInstance.validateRequest_payload first
  rw [accepted] at service operation message
  have header : RpcInstance.requestHeader call.request =
      (RpcRequestMessage.make call.serviceId call.opcode call.payload).header := by
    have read := RpcRequestHeader.fromNetEndian_toNetEndian
      (RpcRequestMessage.make call.serviceId call.opcode call.payload).header []
    rw [List.append_nil] at read
    rw [RpcInstance.requestHeader, Call.request, RpcRequestMessage.netStr,
      List.take_left' (RpcRequestHeader.length_toNetEndian _), read]
  have body : call.request.drop RpcRequestHeader.size = call.payload :=
    List.drop_left' (RpcRequestHeader.length_toNetEndian _)
  have length : call.request.length = RpcRequestHeader.size + call.payload.length :=
    RpcRequestMessage.length_netStr _
  have seen : RpcInstance.seenSize call.request = RpcRequestHeader.size + call.payload.length := by
    rw [RpcInstance.seenSize, Nat.mod_eq_of_lt short, length]
  rw [header] at service operation message
  rw [body, seen, Nat.add_sub_cancel_left, List.take_length] at message
  exact ⟨service, operation, message⟩

/-- A reply is a response to the call that it answers. -/
theorem response_reply {α : Type} {unmarshal : Bytes → Option α} {call : Call}
    {inst : RpcInstance} (service : inst.serviceId = call.serviceId)
    (operation : inst.opcode = call.opcode) (msg : Bytes) :
    response unmarshal (call.checkResponse (inst.replyRpcMessage msg)).1
        (call.checkResponse (inst.replyRpcMessage msg)).2 = unmarshal msg := by
  have parsed : RpcResponseMessage.parse (inst.replyRpcMessage msg).payload =
      some (RpcResponseMessage.make inst.serviceId inst.opcode msg) :=
    RpcResponseMessage.parse_netStr _
  have checked : call.checkResponse (inst.replyRpcMessage msg) =
      (RpcClientStatus.OK, some msg) := by
    rw [Call.checkResponse, parsed]
    simp only [RpcResponseMessage.make, service, operation, ne_eq, not_true_eq_false, or_self,
      if_false]
  rw [checked, response, if_neg (not_not.mpr rfl)]
  rfl

/-- A rejection is none, to a call of a service. -/
theorem checkResponse_rejection {call : Call} (numbered : call.serviceId ≠ 0)
    {status : RpcResponseStatus} (failed : status ≠ RpcResponseStatus.OK) :
    (call.checkResponse (RpcInstance.reject status)).1 ≠ RpcClientStatus.OK := by
  rw [checkResponse_reject failed, if_neg fun unnumbered => numbered unnumbered.1]
  decide

/-- The answers to a request that is a response to its call are replies of the service. -/
theorem mem_answers {services : List UInt16} {proto : ProtoBuf} {repos : EventReposIf}
    {call : Call} {answer : Message} (numbered : call.serviceId ≠ 0)
    (short : call.request.length < 2 ^ 32)
    (inside : answer ∈ answers services proto repos call.request)
    (ok : (call.checkResponse answer).1 = RpcClientStatus.OK) :
    ∃ inst : RpcInstance, inst.serviceId = call.serviceId ∧ inst.opcode = call.opcode ∧
      inst.rpcRequestMessage = RpcRequestMessage.make call.serviceId call.opcode call.payload ∧
      answer ∈ MonitorTaskService.handleRPC proto repos inst := by
  rw [answers, Dispatcher.handleRPC] at inside
  simp only at inside
  split at inside
  · next refusal goes =>
      obtain rfl := List.mem_singleton.mp inside
      exfalso
      split at goes
      · cases goes
        exact checkResponse_rejection numbered (by decide) ok
      · split at goes
        · cases goes
        · cases goes
          exact checkResponse_rejection numbered (by decide) ok
  · next serviceId inst goes =>
      split at goes
      · cases goes
      · next accepted =>
          split at goes
          · cases goes
            obtain ⟨service, operation, message⟩ := validateRequest_request short
              (Prod.ext (Bool.eq_true_of_not_eq_false accepted) rfl)
            exact ⟨_, service, operation, message, inside⟩
          · cases goes

section Responses

variable {client : ClientProtoBuf} {server : ProtoBuf}

/-- A response to a read is the one of the service. -/
theorem response_readCall {services : List UInt16} {repos : EventReposIf} {request : ReadRequest}
    {timeoutSec : UInt32} (short : (readCall client request timeoutSec).request.length < 2 ^ 32)
    {answer : Message}
    (inside : answer ∈ answers services server repos (readCall client request timeoutSec).request)
    (ok : ((readCall client request timeoutSec).checkResponse answer).1 = RpcClientStatus.OK) :
    response client.unmarshalRead
        ((readCall client request timeoutSec).checkResponse answer).1
        ((readCall client request timeoutSec).checkResponse answer).2 =
      localRead client server repos request := by
  have numbered : (readCall client request timeoutSec).serviceId ≠ 0 := by
    intro zero
    cases zero
  obtain ⟨inst, service, operation, message, replied⟩ := mem_answers numbered short inside ok
  have opcode : inst.opcode = OpCode.CMD_READ_EVENT := operation
  have sent : inst.rpcRequestMessage.header.opcode = OpCode.CMD_READ_EVENT := by rw [message]; rfl
  have payload : inst.rpcRequestMessage.payload = client.marshalRead request := by
    rw [message]; rfl
  rw [MonitorTaskService.handleRPC, if_pos opcode, MonitorTaskService.readOpsImpl,
    if_neg (not_not.mpr sent), payload] at replied
  rw [localRead]
  cases parsed : server.unmarshalRead (client.marshalRead request) with
  | none =>
      rw [parsed] at replied
      obtain rfl := List.mem_singleton.mp replied
      exact response_reply service operation _
  | some arrived =>
      rw [parsed] at replied
      simp only at replied ⊢
      rw [callRead]
      cases outcome : MonitorTaskService.readRequest repos arrived with
      | reply answered =>
          rw [outcome] at replied
          obtain rfl := List.mem_singleton.mp replied
          exact response_reply service operation _
      | reject =>
          rw [outcome] at replied
          obtain rfl := List.mem_singleton.mp replied
          exact absurd ok (checkResponse_rejection numbered (by decide))
      | abandon _ =>
          rw [outcome] at replied
          cases replied

/-- So is a response to a write. -/
theorem response_writeCall {services : List UInt16} {repos : EventReposIf}
    {request : WriteRequest} {timeoutSec : UInt32}
    (short : (writeCall client request timeoutSec).request.length < 2 ^ 32) {answer : Message}
    (inside : answer ∈ answers services server repos (writeCall client request timeoutSec).request)
    (ok : ((writeCall client request timeoutSec).checkResponse answer).1 = RpcClientStatus.OK) :
    response client.unmarshalWrite
        ((writeCall client request timeoutSec).checkResponse answer).1
        ((writeCall client request timeoutSec).checkResponse answer).2 =
      localWrite client server repos request := by
  have numbered : (writeCall client request timeoutSec).serviceId ≠ 0 := by
    intro zero
    cases zero
  obtain ⟨inst, service, operation, message, replied⟩ := mem_answers numbered short inside ok
  have opcode : inst.opcode = OpCode.CMD_WRIT_EVENT := operation
  have sent : inst.rpcRequestMessage.header.opcode = OpCode.CMD_WRIT_EVENT := by rw [message]; rfl
  have payload : inst.rpcRequestMessage.payload = client.marshalWrite request := by
    rw [message]; rfl
  have other : inst.opcode ≠ OpCode.CMD_READ_EVENT := by
    rw [opcode]
    decide
  rw [MonitorTaskService.handleRPC, if_neg other, if_pos opcode, MonitorTaskService.writeOpsImpl,
    if_neg (not_not.mpr sent), payload] at replied
  rw [localWrite]
  cases parsed : server.unmarshalWrite (client.marshalWrite request) with
  | none =>
      rw [parsed] at replied
      obtain rfl := List.mem_singleton.mp replied
      exact response_reply service operation _
  | some arrived =>
      rw [parsed] at replied
      simp only at replied ⊢
      cases reported : arrived.report with
      | some report =>
          obtain ⟨version, report⟩ := report
          rw [reported] at replied
          obtain rfl := List.mem_singleton.mp replied
          rw [callWrite, reported]
          exact response_reply service operation _
      | none =>
          rw [reported] at replied
          obtain rfl := List.mem_singleton.mp replied
          exact absurd ok (checkResponse_rejection numbered (by decide))

end Responses

/-! ### Whole runs -/

namespace Caller

variable (services : List UInt16) (server : ProtoBuf) (used : Nat → EventReposIf → Prop)

/-- The server answers as the service does with a repository that the running call
may find: `used` says which, by the number of the call. -/
def Honest (s : Caller) : Action → Prop
  | .respond i response =>
      ∀ payload, (parse s.serverLimit s.peer.received).payloads[i]? = some payload →
        ∃ repos, used s.calls repos ∧ response.message ∈ answers services server repos payload
  | _ => True

/-- What has been answered to the running call. -/
structure Truthful (s : Caller) : Prop where
  early : ∀ answer ∈ s.peer.answers, answer.1 < s.peer.answered
  answered : s.client.conn.isSome → ∀ message, (s.peer.carried, message) ∈ s.peer.answers →
    ∃ payload repos,
      (parse s.serverLimit s.peer.received).payloads[s.peer.carried]? = some payload ∧
      used s.calls repos ∧ message ∈ answers services server repos payload

variable {services server used} {s s' : Caller}

/-- Nothing has been answered to a call that has not asked. -/
theorem truthful_unasked (early : ∀ answer ∈ s'.peer.answers, answer.1 < s'.peer.answered)
    (unasked : s'.client.conn.isSome → s'.peer.answered = s'.peer.carried) :
    Truthful services server used s' := by
  refine ⟨early, ?_⟩
  intro connected message inside
  have before := early _ inside
  rw [unasked connected] at before
  exact absurd before (lt_irrefl _)

theorem Truthful.same (truthful : Truthful services server used s)
    (limit : s'.serverLimit = s.serverLimit) (peer : s'.peer = s.peer) (calls : s'.calls = s.calls)
    (connected : s'.client.conn.isSome → s.client.conn.isSome) :
    Truthful services server used s' := by
  constructor
  · rw [peer]
    exact truthful.early
  · intro held
    rw [limit, peer, calls]
    exact truthful.answered (connected held)

/-- A call that is dropped has no connection. -/
theorem Truthful.drop (truthful : Truthful services server used s) (call : Call)
    (status : RpcClientStatus) : Truthful services server used (s.drop call status) :=
  truthful_unasked truthful.early fun connected => by cases connected

theorem Truthful.enter (truthful : Truthful services server used s) (orderly : Orderly s)
    (call : Call) (connects : Bool) : Truthful services server used (s.enter call connects) := by
  rcases s.enter_cases call connects with same | ⟨idle, ⟨conn, held, next⟩ | ⟨_, next⟩ |
    ⟨dropped, next⟩⟩
  · rw [same]
    exact truthful
  · rw [next]
    have clean := orderly conn held
    rw [idle] at clean
    exact truthful_unasked truthful.early fun _ => clean.answered
  · rw [next]
    refine truthful_unasked ?_ fun _ => rfl
    intro answer inside
    cases inside
  · rw [next]
    refine truthful_unasked truthful.early ?_
    intro connected
    have missing : s.client.conn.isSome := connected
    rw [dropped] at missing
    cases missing

theorem Truthful.arm (truthful : Truthful services server used s) :
    Truthful services server used s.arm := by
  rcases s.arm_cases with same | ⟨call, _, next⟩
  · rw [same]
    exact truthful
  · rw [next]
    refine truthful.same rfl rfl rfl ?_
    intro connected
    simp only at connected
    split at connected
    · rwa [conn_setRpcCallTimeout] at connected
    · exact connected

theorem Truthful.send (truthful : Truthful services server used s) (orderly : Orderly s)
    (fault : Option (Nat × SocketError)) : Truthful services server used (s.send fault) := by
  rcases s.send_cases fault with same | ⟨call, conn, ok, conn', sink, armed, held, sent, next⟩
  · rw [same]
    exact truthful
  · rw [next]
    have clean := orderly conn held
    rw [armed] at clean
    exact truthful_unasked truthful.early fun _ => clean.answered

theorem Truthful.recv (truthful : Truthful services server used s) (orderly : Orderly s)
    (offers : Nat → Nat) : Truthful services server used (s.recv offers) := by
  rcases s.recv_cases offers with same | ⟨call, conn, sent, held, outcome⟩
  · rw [same]
    exact truthful
  · rcases outcome with ⟨netMessage, conn', socket, read, next⟩ | next
    · have before := orderly conn held
      rw [sent] at before
      obtain ⟨_, _, answered, _⟩ :=
        before.2.takes before.1 rfl (TcpConnSync.recvNetMessage_true read)
      rw [next]
      exact truthful_unasked truthful.early fun _ => answered
    · rw [next]
      exact truthful.drop call _

theorem Truthful.handler (truthful : Truthful services server used s) (i : Nat) :
    Truthful services server used (s.handler i) := by
  rcases s.handler_cases i with ⟨_, same⟩ | ⟨number, timer, ⟨_, _, next⟩ |
    ⟨_, _, ⟨_, next⟩ | ⟨conn, held, next⟩⟩⟩
  · rw [same]
    exact truthful
  · rw [next]
    exact truthful.same rfl rfl rfl id
  · rw [next]
    exact truthful.same rfl rfl rfl id
  · rw [next]
    refine truthful.same rfl rfl rfl ?_
    intro _
    rw [held]
    rfl

/-- What an honest server adds is made for the payload at its place. -/
theorem Truthful.respond (truthful : Truthful services server used s) {i : Nat}
    {response : Response} (honest : Honest services server used s (.respond i response)) :
    Truthful services server used (s.respond i response) := by
  rw [Caller.respond]
  split
  · next possible =>
      obtain ⟨connected, after, present⟩ := possible
      constructor
      · intro answer inside
        rcases List.mem_append.mp inside with old | new
        · have before := truthful.early answer old
          change answer.1 < i + 1
          omega
        · obtain rfl := List.mem_singleton.mp new
          exact Nat.lt_succ_self i
      · intro _ message inside
        rcases List.mem_append.mp inside with old | new
        · exact truthful.answered connected message old
        · obtain ⟨place, rfl⟩ := Prod.mk.inj (List.mem_singleton.mp new)
          have place : s.peer.carried = i := place
          subst place
          have found := List.getElem?_eq_getElem present
          obtain ⟨repos, current, made⟩ := honest _ found
          exact ⟨_, repos, found, current, made⟩
  · exact truthful

theorem Truthful.step (truthful : Truthful services server used s) (orderly : Orderly s)
    {a : Action} (honest : Honest services server used s a) :
    Truthful services server used (s.step a) := by
  rw [Caller.step]
  split
  · exact truthful
  · cases a with
    | enter call connects => exact truthful.enter orderly call connects
    | arm => exact truthful.arm
    | send fault => exact truthful.send orderly fault
    | recv offers => exact truthful.recv orderly offers
    | recvError ec =>
        rcases s.recvError_cases ec with same | ⟨call, _, _, _, next⟩
        · rw [perform, same]
          exact truthful
        · rw [perform, next]
          exact truthful.drop call _
    | fail =>
        rcases s.fail_cases with same | ⟨_, _, _, next⟩
        · rw [perform, same]
          exact truthful
        · rw [perform, next]
          exact truthful.same rfl rfl rfl id
    | expire =>
        rw [perform, expire]
        split
        · exact truthful
        · exact truthful.same rfl rfl rfl id
    | handler i => exact truthful.handler i
    | respond i response => exact truthful.respond honest

/-- What a call has brought is what the service gives for its request, while the call
runs. -/
structure Local (client : ClientProtoBuf) (server : ProtoBuf)
    (used : Nat → EventReposIf → Prop) (r : Return) : Prop where
  read : ∀ request, r.call = readCall client request r.call.timeoutSec →
    ∀ answer, response client.unmarshalRead r.status r.respload = some answer →
      ∃ repos, used r.number repos ∧ localRead client server repos request = some answer
  write : ∀ request, r.call = writeCall client request r.call.timeoutSec →
    ∀ answer, response client.unmarshalWrite r.status r.respload = some answer →
      ∃ repos, used r.number repos ∧ localWrite client server repos request = some answer

variable {client : ClientProtoBuf}

theorem local_failed {r : Return} (failed : r.status ≠ RpcClientStatus.OK) :
    Local client server used r := by
  constructor
  · intro _ _ answer brought
    rw [response, if_pos failed] at brought
    cases brought
  · intro _ _ answer brought
    rw [response, if_pos failed] at brought
    cases brought

/-- A call returns what is local, when all is in order. -/
theorem Truthful.returns (truthful : Truthful services server used s) (orderly : Orderly s)
    (failure : NetworkFailure s) {a : Action} {r : Return}
    (new : (s.step a).returned = s.returned ++ [r]) : Local client server used r := by
  rcases returned_cases new with unconnected | ⟨call, status, failed, rfl⟩ |
    ⟨offers, call, conn, netMessage, conn', socket, sent, held, read, rfl⟩
  · apply local_failed
    rw [unconnected]
    decide
  · exact local_failed (failure.ne_ok failed)
  · have before := orderly conn held
    rw [sent] at before
    obtain ⟨inside, requested, _⟩ :=
      before.2.takes before.1 rfl (TcpConnSync.recvNetMessage_true read)
    obtain ⟨payload, repos, found, current, made⟩ :=
      truthful.answered (by rw [held]; rfl) netMessage inside
    have request : payload = call.request := by
      have asked := requested.request
      rw [← payloads_eq, found] at asked
      exact Option.some.inj asked
    have short : call.request.length < 2 ^ 32 :=
      request ▸ length_payloads (List.mem_of_getElem? found)
    rw [request] at made
    by_cases ok : (call.checkResponse netMessage).1 = RpcClientStatus.OK
    · constructor
      · intro request own answer brought
        have own : call = readCall client request call.timeoutSec := own
        rw [own] at short made ok
        refine ⟨repos, current, ?_⟩
        rw [← brought]
        change localRead client server repos request = response client.unmarshalRead
          (call.checkResponse netMessage).1 (call.checkResponse netMessage).2
        rw [own, response_readCall short made ok]
      · intro request own answer brought
        have own : call = writeCall client request call.timeoutSec := own
        rw [own] at short made ok
        refine ⟨repos, current, ?_⟩
        rw [← brought]
        change localWrite client server repos request = response client.unmarshalWrite
          (call.checkResponse netMessage).1 (call.checkResponse netMessage).2
        rw [own, response_writeCall short made ok]
    · exact local_failed ok

theorem returned_step (s : Caller) (a : Action) :
    (s.step a).returned = s.returned ∨ ∃ r, (s.step a).returned = s.returned ++ [r] := by
  rw [Caller.step]
  split
  · exact Or.inl rfl
  · cases a with
    | enter call connects =>
        rcases s.enter_cases call connects with same | ⟨_, ⟨_, _, next⟩ | ⟨_, next⟩ | ⟨_, next⟩⟩
        · exact Or.inl (by rw [perform, same])
        · exact Or.inl (by rw [perform, next])
        · exact Or.inl (by rw [perform, next])
        · exact Or.inr ⟨_, by rw [perform, next]; rfl⟩
    | arm => exact Or.inl s.returned_arm
    | send fault => exact Or.inl (s.returned_send fault)
    | recv offers =>
        rcases s.recv_cases offers with same | ⟨_, _, _, _, ⟨_, _, _, _, next⟩ | next⟩
        · exact Or.inl (by rw [perform, same])
        · exact Or.inr ⟨_, by rw [perform, next]; rfl⟩
        · exact Or.inl (by rw [perform, next]; rfl)
    | recvError ec => exact Or.inl (s.returned_recvError ec)
    | fail =>
        rcases s.fail_cases with same | ⟨_, _, _, next⟩
        · exact Or.inl (by rw [perform, same])
        · exact Or.inr ⟨_, by rw [perform, next]; rfl⟩
    | expire => exact Or.inl s.returned_expire
    | handler i => exact Or.inl (s.returned_handler i)
    | respond i response => exact Or.inl (s.returned_respond i response)

/-- In every run of calls to an honest server the returns are local. -/
theorem locals_of_run (client : ClientProtoBuf) (serverLimit : UInt32)
    (clientSetting : RpcClientSetting) {actions : List Action}
    (whole : Along step SendsWhole (fresh serverLimit clientSetting) actions)
    (honest : Along step (Honest services server used) (fresh serverLimit clientSetting) actions) :
    ∀ r ∈ (run step (fresh serverLimit clientSetting) actions).returned,
      Local client server used r := by
  have kept := (whole.and honest).invariant (P := fun s => Orderly s ∧ NetworkFailure s ∧
    Truthful services server used s ∧ ∀ r ∈ s.returned, Local client server used r) ?_ ?_
  · exact kept.2.2.2
  · intro s a invariant admitted
    obtain ⟨orderly, failure, truthful, before⟩ := invariant
    refine ⟨orderly.step admitted.1, failure.step a, truthful.step orderly admitted.2, ?_⟩
    intro r inside
    rcases s.returned_step a with same | ⟨new, added⟩
    · rw [same] at inside
      exact before r inside
    · rw [added] at inside
      rcases List.mem_append.mp inside with old | last
      · exact before r old
      · obtain rfl := List.mem_singleton.mp last
        exact truthful.returns orderly failure added
  · refine ⟨orderly_of_dropped rfl, networkFailure_of_ne fun _ _ => nofun, ?_, ?_⟩
    · apply truthful_unasked
      · intro answer inside
        cases inside
      · intro _
        rfl
    · intro r inside
      cases inside

/-! ### The helpers in a run -/

/-- What a helper has of a call for a read, and for a write. -/
def readOf (client : ClientProtoBuf) (r : Return) : ReadRequest → Option ReadResponse :=
  fun _ => response client.unmarshalRead r.status r.respload

def writeOf (client : ClientProtoBuf) (r : Return) : WriteRequest → Option WriteResponse :=
  fun _ => response client.unmarshalWrite r.status r.respload

/-- The request and the responses of the service to it arrive as they were sent. -/
structure ReadArrives (client : ClientProtoBuf) (server : ProtoBuf)
    (used : Nat → EventReposIf → Prop) (request : ReadRequest) : Prop where
  arrives : server.unmarshalRead (client.marshalRead request) = some request
  returns : ∀ number repos response, used number repos → callRead repos request = some response →
    client.unmarshalRead (server.marshalRead response) = some response

structure WriteArrives (client : ClientProtoBuf) (server : ProtoBuf)
    (used : Nat → EventReposIf → Prop) (request : WriteRequest) : Prop where
  arrives : server.unmarshalWrite (client.marshalWrite request) = some request
  returns : ∀ number repos response, used number repos → callWrite repos request = some response →
    client.unmarshalWrite (server.marshalWrite response) = some response

/-- The response to a read is missing or the one of the service. -/
theorem Local.read_eq {r : Return} (own : Local client server used r) {request : ReadRequest}
    (called : r.call = readCall client request r.call.timeoutSec)
    (arrives : ReadArrives client server used request) :
    readOf client r request = none ∨
      ∃ repos, used r.number repos ∧ readOf client r request = callRead repos request := by
  cases brought : readOf client r request with
  | none => exact Or.inl rfl
  | some answer =>
      obtain ⟨repos, current, made⟩ := own.read request called answer brought
      refine Or.inr ⟨repos, current, ?_⟩
      rw [← made, localRead, arrives.arrives]
      cases served : callRead repos request with
      | none => simp only [served, Option.bind_none]
      | some response =>
          simp only [served, Option.bind_some]
          exact arrives.returns r.number repos response current served

theorem Local.write_eq {r : Return} (own : Local client server used r) {request : WriteRequest}
    (called : r.call = writeCall client request r.call.timeoutSec)
    (arrives : WriteArrives client server used request) :
    writeOf client r request = none ∨
      ∃ repos, used r.number repos ∧ writeOf client r request = callWrite repos request := by
  cases brought : writeOf client r request with
  | none => exact Or.inl rfl
  | some answer =>
      obtain ⟨repos, current, made⟩ := own.write request called answer brought
      refine Or.inr ⟨repos, current, ?_⟩
      rw [← made, localWrite, arrives.arrives]
      cases served : callWrite repos request with
      | none => simp only [served, Option.bind_none]
      | some response =>
          simp only [served, Option.bind_some]
          exact arrives.returns r.number repos response current served

end Caller

/-! What the helpers make of the service. -/

theorem rpcPing_callRead (repos : EventReposIf) : rpcPing (callRead repos) = 0 := rfl

theorem rpcEventSubmit_callWrite (repos : EventReposIf) {version : Bytes} {report : EventReport}
    (submitted : rpcEventSubmit (callWrite repos) version report = 0) :
    repos.addEvent version report = 0 := by
  rw [rpcEventSubmit] at submitted
  split at submitted
  · cases submitted
  · by_contra failed
    simp only [callWrite, Option.map_some, ne_eq, failed, not_false_eq_true, if_true] at submitted
    cases submitted

theorem rpcKnownMetrics_callRead (repos : EventReposIf) {version service : Bytes}
    {handlerConf : ServiceConf} {metrics : List Bytes}
    (asked : (rpcKnownMetrics (callRead repos) version service handlerConf metrics).1 = 0) :
    (repos.getMetrics version service).1 = 0 ∧
      rpcKnownMetrics (callRead repos) version service handlerConf metrics =
        (0, if (repos.getServiceConf service).1 = 0 then (repos.getServiceConf service).2
          else handlerConf, metrics ++ (repos.getMetrics version service).2) := by
  rw [rpcKnownMetrics] at asked ⊢
  split at asked
  · cases asked
  · next named =>
      rw [if_neg named]
      by_cases failed : (repos.getMetrics version service).1 = 0
      · refine ⟨failed, ?_⟩
        have served : callRead repos ⟨none, none, some ⟨version, service⟩, none⟩ =
            some { MonitorTaskService.okResponse with
              metrics := some (MonitorTaskService.metricsResponse repos ⟨version, service⟩
                (repos.getMetrics version service).2) } := by
          rw [callRead, MonitorTaskService.readRequest]
          simp [failed]
        rw [served]
        by_cases conf : (repos.getServiceConf service).1 = 0
        · simp [MonitorTaskService.metricsResponse, MonitorTaskService.okResponse, conf]
        · simp [MonitorTaskService.metricsResponse, MonitorTaskService.okResponse, conf]
      · have abandoned : callRead repos ⟨none, none, some ⟨version, service⟩, none⟩ = none := by
          rw [callRead, MonitorTaskService.readRequest]
          simp [failed]
        rw [abandoned] at asked
        cases asked

theorem rpcKnownServices_callRead (repos : EventReposIf) {version : Bytes} {services : List Bytes}
    (asked : (rpcKnownServices (callRead repos) version services).1 = 0) :
    (repos.getServices version).1 = 0 ∧
      rpcKnownServices (callRead repos) version services =
        (0, services ++ (repos.getServices version).2) := by
  rw [rpcKnownServices] at asked ⊢
  by_cases failed : (repos.getServices version).1 = 0
  · have served : callRead repos ⟨none, none, none, some version⟩ =
        some { MonitorTaskService.okResponse with
          services := some ⟨version, (repos.getServices version).2⟩ } := by
      rw [callRead, MonitorTaskService.readRequest]
      simp [failed]
    refine ⟨failed, ?_⟩
    rw [served]
    simp [MonitorTaskService.okResponse]
  · have abandoned : callRead repos ⟨none, none, none, some version⟩ = none := by
      rw [callRead, MonitorTaskService.readRequest]
      simp [failed]
    rw [abandoned] at asked
    cases asked

namespace Caller

variable {services : List UInt16} {server : ProtoBuf} {used : Nat → EventReposIf → Prop}
  {client : ClientProtoBuf}

/-- A helper that succeeds has done or brought what the repository did or has, while
its call was running. -/
structure Told (client : ClientProtoBuf) (server : ProtoBuf) (used : Nat → EventReposIf → Prop)
    (r : Return) : Prop where
  ping : r.call = readCall client pingRequest r.call.timeoutSec →
    ReadArrives client server used pingRequest →
    readOf client r pingRequest = none ∨ rpcPing (readOf client r) = 0
  submit : ∀ version report,
    r.call = writeCall client ⟨some (version, report)⟩ r.call.timeoutSec →
    WriteArrives client server used ⟨some (version, report)⟩ →
    rpcEventSubmit (writeOf client r) version report = 0 →
    ∃ repos, used r.number repos ∧ repos.addEvent version report = 0
  select : ∀ version cond respInfo,
    r.call = readCall client ⟨none, some (selectOf version cond), none, none⟩ r.call.timeoutSec →
    ReadArrives client server used ⟨none, some (selectOf version cond), none, none⟩ →
    (rpcEventSelect (readOf client r) version cond respInfo).1 = 0 →
    ∃ repos, used r.number repos ∧ (repos.getEvent version cond).1 = 0 ∧
      (rpcEventSelect (readOf client r) version cond respInfo).2 =
        received cond (MonitorTaskService.selectResponse (selectOf version cond)
          (repos.getEvent version cond).2) respInfo
  metrics : ∀ version service handlerConf metrics,
    r.call = readCall client ⟨none, none, some ⟨version, service⟩, none⟩ r.call.timeoutSec →
    ReadArrives client server used ⟨none, none, some ⟨version, service⟩, none⟩ →
    (rpcKnownMetrics (readOf client r) version service handlerConf metrics).1 = 0 →
    ∃ repos, used r.number repos ∧ (repos.getMetrics version service).1 = 0 ∧
      (rpcKnownMetrics (readOf client r) version service handlerConf metrics).2 =
        (if (repos.getServiceConf service).1 = 0 then (repos.getServiceConf service).2
          else handlerConf, metrics ++ (repos.getMetrics version service).2)
  services : ∀ version services,
    r.call = readCall client ⟨none, none, none, some version⟩ r.call.timeoutSec →
    ReadArrives client server used ⟨none, none, none, some version⟩ →
    (rpcKnownServices (readOf client r) version services).1 = 0 →
    ∃ repos, used r.number repos ∧ (repos.getServices version).1 = 0 ∧
      (rpcKnownServices (readOf client r) version services).2 =
        services ++ (repos.getServices version).2

/-- Only the answer to its own request matters to a helper. -/
theorem rpcPing_congr {call call' : ReadRequest → Option ReadResponse}
    (same : call pingRequest = call' pingRequest) : rpcPing call = rpcPing call' := by
  rw [rpcPing, rpcPing, same]

theorem rpcEventSubmit_congr {call call' : WriteRequest → Option WriteResponse} {version : Bytes}
    {report : EventReport}
    (same : call ⟨some (version, report)⟩ = call' ⟨some (version, report)⟩) :
    rpcEventSubmit call version report = rpcEventSubmit call' version report := by
  rw [rpcEventSubmit, rpcEventSubmit, same]

theorem rpcEventSelect_congr {call call' : ReadRequest → Option ReadResponse} {version : Bytes}
    {cond : EventCond} (same : call ⟨none, some (selectOf version cond), none, none⟩ =
      call' ⟨none, some (selectOf version cond), none, none⟩) (respInfo : EventSelect) :
    rpcEventSelect call version cond respInfo = rpcEventSelect call' version cond respInfo := by
  rw [rpcEventSelect, rpcEventSelect, same]

theorem rpcKnownMetrics_congr {call call' : ReadRequest → Option ReadResponse}
    {version service : Bytes} (same : call ⟨none, none, some ⟨version, service⟩, none⟩ =
      call' ⟨none, none, some ⟨version, service⟩, none⟩) (handlerConf : ServiceConf)
    (metrics : List Bytes) : rpcKnownMetrics call version service handlerConf metrics =
      rpcKnownMetrics call' version service handlerConf metrics := by
  rw [rpcKnownMetrics, rpcKnownMetrics, same]

theorem rpcKnownServices_congr {call call' : ReadRequest → Option ReadResponse} {version : Bytes}
    (same : call ⟨none, none, none, some version⟩ = call' ⟨none, none, none, some version⟩)
    (services : List Bytes) :
    rpcKnownServices call version services = rpcKnownServices call' version services := by
  rw [rpcKnownServices, rpcKnownServices, same]

theorem Local.told {r : Return} (own : Local client server used r) : Told client server used r := by
  constructor
  · intro called arrives
    rcases own.read_eq called arrives with missing | ⟨repos, _, served⟩
    · exact Or.inl missing
    · exact Or.inr ((rpcPing_congr served).trans (rpcPing_callRead repos))
  · intro version report called arrives submitted
    rcases own.write_eq called arrives with missing | ⟨repos, current, served⟩
    · have failed := @rpcEventSubmit_congr _ (fun _ => none) _ _ missing
      rw [submitted, rpcEventSubmit] at failed
      split at failed
      · cases failed
      · cases failed
    · rw [rpcEventSubmit_congr served] at submitted
      exact ⟨repos, current, rpcEventSubmit_callWrite repos submitted⟩
  · intro version cond respInfo called arrives asked
    rcases own.read_eq called arrives with missing | ⟨repos, current, served⟩
    · rw [@rpcEventSelect_congr _ (fun _ => none) _ _ missing, rpcEventSelect] at asked
      split at asked
      · cases asked
      · cases asked
    · rw [rpcEventSelect_congr served] at asked ⊢
      by_cases param : SelectParam version cond
      · rw [rpcEventSelect_callRead repos param] at asked ⊢
        split at asked
        · cases asked
        · next answered =>
            rw [if_neg answered]
            exact ⟨repos, current, not_not.mp answered, rfl⟩
      · rw [rpcEventSelect, if_neg param] at asked
        cases asked
  · intro version service handlerConf metrics called arrives asked
    rcases own.read_eq called arrives with missing | ⟨repos, current, served⟩
    · rw [@rpcKnownMetrics_congr _ (fun _ => none) _ _ missing, rpcKnownMetrics] at asked
      split at asked
      · cases asked
      · cases asked
    · rw [rpcKnownMetrics_congr served] at asked ⊢
      obtain ⟨answered, known⟩ := rpcKnownMetrics_callRead repos asked
      exact ⟨repos, current, answered, congrArg Prod.snd known⟩
  · intro version services called arrives asked
    rcases own.read_eq called arrives with missing | ⟨repos, current, served⟩
    · rw [@rpcKnownServices_congr _ (fun _ => none) _ missing, rpcKnownServices] at asked
      cases asked
    · rw [rpcKnownServices_congr served] at asked ⊢
      obtain ⟨answered, known⟩ := rpcKnownServices_callRead repos asked
      exact ⟨repos, current, answered, congrArg Prod.snd known⟩

/-- A report without events and the generated classes on it. -/
private def emptyReport : EventReport := ⟨1550000000, bytes "svc", [], []⟩

private def submitted : WriteRequest := ⟨some (bytes "1.0.0", emptyReport)⟩

private def submitClient : ClientProtoBuf where
  marshalRead _ := []
  marshalWrite request := if request = submitted then bytes "report" else []
  unmarshalRead _ := none
  unmarshalWrite raw := some ⟨if raw = bytes "OK" then 0 else -1, raw⟩

private def submitProto : ProtoBuf where
  unmarshalRead _ := none
  unmarshalWrite raw := if raw = bytes "report" then some submitted else none
  marshalRead response := response.desc
  marshalWrite response := response.desc

private def acceptingRepos : EventReposIf := { emptyRepos with addEvent := fun _ _ => 0 }

private def submitCall : Call := writeCall submitClient submitted 0

/-- What the service replies to it. -/
private def acknowledgement : Response where
  message := Message.ofPayload
    (RpcResponseMessage.make 1 OpCode.CMD_WRIT_EVENT (bytes "OK")).netStr
  whole := by
    refine (length_ofPayload ?_).symm
    decide

private def submitSent : List Action := [.enter submitCall true, .arm, .send none]

private def submitRun : List Action :=
  submitSent ++ [.respond 0 acknowledgement, .recv fun _ => 64]

end Caller

end Heracles.Client
