import Heracles.Business.EventTypes
import Heracles.Rpc.RpcInstance

/-!
The monitoring service behind the dispatcher.

`ProtoBuf` stands for the generated message classes, `EventReposIf` for what the
event repository answers; optional request fields have their defaults. A handler
returns the messages it has passed to `async_send_message`, in order.
`length_answers` counts them: one for every request, except a read request whose
query fails, which gets none.
-/

namespace Heracles.Rpc

open Heracles.Base
open Heracles.Core
open Heracles.Business

/-! ### Messages of the service -/

namespace OpCode

def CMD_READ_EVENT : UInt16 := 1

def CMD_WRIT_EVENT : UInt16 := 2

end OpCode

structure ReadSelect where
  version : Bytes
  service : Bytes
  metric : Bytes
  tmInterval : Int64
  tmStart : Int64
  entityIdx : Bytes
  tag : Bytes
  groupby : Int32
  orderby : Int32
  orders : Int32
  limit : Int32
  deriving DecidableEq

structure ReadMetrics where
  version : Bytes
  service : Bytes
  deriving DecidableEq

/-- `MonitorReadOps::Request`: the message of a ping, a query, a service whose
metrics are asked for, the version of a services request. -/
structure ReadRequest where
  ping : Option Bytes
  select : Option ReadSelect
  metrics : Option ReadMetrics
  services : Option Bytes
  deriving DecidableEq

structure SelectResponse where
  version : Bytes
  service : Bytes
  timestamp : Int64
  metric : Bytes
  tmInterval : Int64
  tmStart : Int64
  entityIdx : Bytes
  tag : Bytes
  summary : EventInfo
  info : List EventInfo
  deriving DecidableEq

structure MetricsResponse where
  version : Bytes
  service : Bytes
  eventStep : Option Int32
  eventLinger : Option Int32
  storeType : Option Bytes
  metric : List Bytes
  deriving DecidableEq

structure ServicesResponse where
  version : Bytes
  service : List Bytes
  deriving DecidableEq

/-- `MonitorReadOps::Response`. -/
structure ReadResponse where
  code : Int32
  desc : Bytes
  ping : Option Bytes
  select : Option SelectResponse
  metrics : Option MetricsResponse
  services : Option ServicesResponse
  deriving DecidableEq

/-- `MonitorWriteOps::Request`: the version and the report. -/
structure WriteRequest where
  report : Option (Bytes × EventReport)
  deriving DecidableEq

structure WriteResponse where
  code : Int32
  desc : Bytes
  deriving DecidableEq

/-- The generated classes: parsing and serialising. -/
structure ProtoBuf where
  unmarshalRead : Bytes → Option ReadRequest
  unmarshalWrite : Bytes → Option WriteRequest
  marshalRead : ReadResponse → Bytes
  marshalWrite : WriteResponse → Bytes

/-- What `get_service_conf` hands out. -/
structure ServiceConf where
  eventStep : Int32
  eventLinger : Int32
  storeType : Bytes
  deriving DecidableEq

/-- The answers of the event repository to one request. -/
structure EventReposIf where
  addEvent : Bytes → EventReport → Int32
  getEvent : Bytes → EventCond → Int32 × EventSelect
  getMetrics : Bytes → Bytes → Int32 × List Bytes
  getServices : Bytes → Int32 × List Bytes
  getServiceConf : Bytes → Int32 × ServiceConf

/-! ### Parameters of a query -/

/-- A number that must name a value of an enumeration. -/
def enumOf {α : Type} (values : List α) (n : Int32) : Option α :=
  if n < 0 then none else values[n.toInt.toNat]?

def groupTypeOf : Int32 → Option GroupType := enumOf [.none, .byTimestamp, .byTag]

def orderByTypeOf : Int32 → Option OrderByType :=
  enumOf [.none, .timestamp, .tag, .count, .sum, .avg, .min, .max, .p10, .p50, .p90]

def orderTypeOf : Int32 → Option Business.OrderType := enumOf [.desc, .asc]

/-- The condition of a query, or the text of the first parameter refused. -/
def condOf (request : ReadSelect) : Except Bytes EventCond :=
  match groupTypeOf request.groupby with
  | none => .error (bytes "invalid groupby param.")
  | some groupby =>
      match orderByTypeOf request.orderby with
      | none => .error (bytes "invalid orderby param.")
      | some orderby =>
          match orderTypeOf request.orders with
          | none => .error (bytes "invalid orders param.")
          | some orders => .ok
              { tmInterval := request.tmInterval
                service := request.service
                metric := request.metric
                tmStart := request.tmStart
                entityIdx := request.entityIdx
                tag := request.tag
                groupby := groupby
                orderby := orderby
                orders := orders
                limit := request.limit }

/-! ### The handlers -/

namespace MonitorTaskService

variable (proto : ProtoBuf) (repos : EventReposIf)

def okResponse : ReadResponse := ⟨0, bytes "OK", none, none, none, none⟩

def selectResponse (request : ReadSelect) (stat : EventSelect) : SelectResponse where
  version := request.version
  service := stat.service
  timestamp := stat.timestamp
  metric := stat.metric
  tmInterval := stat.tmInterval
  tmStart := stat.timestamp
  entityIdx := stat.entityIdx
  tag := stat.tag
  summary := stat.summary
  info := stat.info

def metricsResponse (request : ReadMetrics) (metric : List Bytes) : MetricsResponse :=
  let conf := repos.getServiceConf request.service
  { version := request.version
    service := request.service
    eventStep := if conf.1 = 0 then some conf.2.eventStep else none
    eventLinger := if conf.1 = 0 then some conf.2.eventLinger else none
    storeType := if conf.1 = 0 then some conf.2.storeType else none
    metric := metric }

/-- What a read operation does with its request. -/
inductive ReadOutcome where
  /-- The response is marshalled and sent. -/
  | reply (response : ReadResponse)
  /-- The request is rejected as invalid. -/
  | reject
  /-- The handler returns with this response and sends nothing. -/
  | abandon (response : ReadResponse)
  deriving DecidableEq

/-- The operations a read request can ask for, tried in this order. -/
def readRequest (request : ReadRequest) : ReadOutcome :=
  if request.ping.isSome then
    .reply { okResponse with ping := some (bytes "[[[pong]]]") }
  else
    match request.select with
    | some select =>
        match condOf select with
        | .error desc => .reply { okResponse with code := -1, desc := desc }
        | .ok cond =>
            let (ret, stat) := repos.getEvent select.version cond
            if ret ≠ 0 then
              .abandon { okResponse with code := ret, desc := bytes "get_event error" }
            else .reply { okResponse with select := some (selectResponse select stat) }
    | none =>
        match request.metrics with
        | some metrics =>
            let (ret, metricStat) := repos.getMetrics metrics.version metrics.service
            if ret ≠ 0 then
              .abandon { okResponse with
                code := ret
                desc := bytes "get_metrics failed."
                metrics := some ⟨metrics.version, metrics.service, none, none, none, []⟩ }
            else
              .reply { okResponse with metrics := some (metricsResponse repos metrics metricStat) }
        | none =>
            match request.services with
            | some version =>
                let (ret, serviceStat) := repos.getServices version
                if ret ≠ 0 then
                  .abandon { okResponse with
                    code := ret
                    desc := bytes "get_services failed."
                    services := some ⟨version, []⟩ }
                else .reply { okResponse with services := some ⟨version, serviceStat⟩ }
            | none => .reject

def readOpsImpl (inst : RpcInstance) : List Message :=
  if inst.rpcRequestMessage.header.opcode ≠ OpCode.CMD_READ_EVENT then
    [RpcInstance.reject RpcResponseStatus.INVALID_REQUEST]
  else
    match proto.unmarshalRead inst.rpcRequestMessage.payload with
    | none =>
        [inst.replyRpcMessage (proto.marshalRead
          { okResponse with code := -1, desc := bytes "unmarshalling failed." })]
    | some request =>
        match readRequest repos request with
        | .reply response => [inst.replyRpcMessage (proto.marshalRead response)]
        | .reject => [RpcInstance.reject RpcResponseStatus.INVALID_REQUEST]
        | .abandon _ => []

def writeOpsImpl (inst : RpcInstance) : List Message :=
  if inst.rpcRequestMessage.header.opcode ≠ OpCode.CMD_WRIT_EVENT then
    [RpcInstance.reject RpcResponseStatus.INVALID_REQUEST]
  else
    match proto.unmarshalWrite inst.rpcRequestMessage.payload with
    | none =>
        [inst.replyRpcMessage (proto.marshalWrite ⟨-1, bytes "unmarshalling failed"⟩)]
    | some request =>
        match request.report with
        | some (version, report) =>
            let ret := repos.addEvent version report
            let response : WriteResponse :=
              if ret ≠ 0 then ⟨ret, bytes "add_event failed."⟩ else ⟨0, bytes "OK"⟩
            [inst.replyRpcMessage (proto.marshalWrite response)]
        | none => [RpcInstance.reject RpcResponseStatus.INVALID_REQUEST]

def handleRPC (inst : RpcInstance) : List Message :=
  if inst.opcode = OpCode.CMD_READ_EVENT then readOpsImpl proto repos inst
  else if inst.opcode = OpCode.CMD_WRIT_EVENT then writeOpsImpl proto repos inst
  else [RpcInstance.reject RpcResponseStatus.INVALID_REQUEST]

end MonitorTaskService

/-! ### The dispatcher -/

/-- Where the dispatcher sends an instance: it answers it itself, or the service
with this number gets it into its executor's queue. -/
inductive Dispatched where
  | rejected (answer : Message)
  | queued (serviceId : UInt16) (inst : RpcInstance)
  deriving DecidableEq

/-- `Dispatcher::handle_RPC`, with the numbers of the registered services. -/
def Dispatcher.handleRPC (services : List UInt16) (inst : RpcInstance) : Dispatched :=
  let (ok, inst) := inst.validateRequest
  if ok = false then .rejected (RpcInstance.reject RpcResponseStatus.INVALID_REQUEST)
  else if inst.serviceId ∈ services then .queued inst.serviceId inst
  else .rejected (RpcInstance.reject RpcResponseStatus.INVALID_SERVICE)

/-- The messages sent for a payload by the time its handler has returned: the
dispatcher's own answer, or those of the service an executor thread runs. -/
def answers (services : List UInt16) (proto : ProtoBuf) (repos : EventReposIf) (payload : Bytes) :
    List Message :=
  match Dispatcher.handleRPC services (RpcInstance.make payload (Int32.ofNat payload.length)) with
  | .rejected answer => [answer]
  | .queued _ inst => MonitorTaskService.handleRPC proto repos inst

/-! ### Counting the answers -/

/-- The query of a read request fails: the operation tried is a query, a metrics
or a services request, and the repository returns a code that is not 0. -/
def QueryFails (repos : EventReposIf) (request : ReadRequest) : Prop :=
  request.ping = none ∧
    match request.select, request.metrics, request.services with
    | some select, _, _ =>
        ∃ cond, condOf select = .ok cond ∧ (repos.getEvent select.version cond).1 ≠ 0
    | none, some metrics, _ => (repos.getMetrics metrics.version metrics.service).1 ≠ 0
    | none, none, some version => (repos.getServices version).1 ≠ 0
    | none, none, none => False

/-- The payload reaches the read operations of a registered service with a query
that fails. -/
def FailedRead (services : List UInt16) (proto : ProtoBuf) (repos : EventReposIf)
    (payload : Bytes) : Prop :=
  RpcRequestHeader.size < RpcInstance.seenSize payload ∧
    RpcInstance.Known (RpcInstance.requestHeader payload) ∧
    (RpcInstance.requestHeader payload).serviceId ∈ services ∧
    (RpcInstance.requestHeader payload).opcode = OpCode.CMD_READ_EVENT ∧
    ∃ request,
      proto.unmarshalRead ((payload.drop RpcRequestHeader.size).take
        (RpcInstance.seenSize payload - RpcRequestHeader.size)) = some request ∧
      QueryFails repos request

namespace MonitorTaskService

theorem readRequest_abandons_iff {repos : EventReposIf} {request : ReadRequest} :
    (∃ response, readRequest repos request = .abandon response) ↔ QueryFails repos request := by
  obtain ⟨ping, select, metrics, services⟩ := request
  rw [readRequest, QueryFails]
  cases ping with
  | some msg => simp
  | none =>
      cases select with
      | some select =>
          cases found : condOf select with
          | error desc => simp [found]
          | ok cond =>
              by_cases failed : (repos.getEvent select.version cond).1 = 0
              · simp [found, failed]
              · simp [found, failed]
      | none =>
          cases metrics with
          | some metrics =>
              by_cases failed : (repos.getMetrics metrics.version metrics.service).1 = 0
              · simp [failed]
              · simp [failed]
          | none =>
              cases services with
              | some version =>
                  by_cases failed : (repos.getServices version).1 = 0
                  · simp [failed]
                  · simp [failed]
              | none => simp

/-- A read operation answers once, unless its query fails. -/
theorem length_readOpsImpl {proto : ProtoBuf} {repos : EventReposIf} {inst : RpcInstance}
    (read : inst.rpcRequestMessage.header.opcode = OpCode.CMD_READ_EVENT) :
    (readOpsImpl proto repos inst).length = 1 ↔
      ¬∃ request, proto.unmarshalRead inst.rpcRequestMessage.payload = some request ∧
        QueryFails repos request := by
  rw [readOpsImpl, if_neg (not_not.mpr read)]
  cases parsed : proto.unmarshalRead inst.rpcRequestMessage.payload with
  | none => simp
  | some request =>
      have abandons := @readRequest_abandons_iff repos request
      simp only [Option.some.injEq, exists_eq_left', ← abandons]
      cases readRequest repos request <;> simp

theorem length_writeOpsImpl (proto : ProtoBuf) (repos : EventReposIf) (inst : RpcInstance) :
    (writeOpsImpl proto repos inst).length = 1 := by
  rw [writeOpsImpl]
  split
  · rfl
  · split
    · rfl
    · split
      · rfl
      · rfl

theorem length_handleRPC {proto : ProtoBuf} {repos : EventReposIf} {inst : RpcInstance}
    (same : inst.rpcRequestMessage.header.opcode = inst.opcode) :
    (handleRPC proto repos inst).length = 1 ↔
      ¬(inst.opcode = OpCode.CMD_READ_EVENT ∧
        ∃ request, proto.unmarshalRead inst.rpcRequestMessage.payload = some request ∧
          QueryFails repos request) := by
  rw [handleRPC]
  by_cases read : inst.opcode = OpCode.CMD_READ_EVENT
  · rw [if_pos read, length_readOpsImpl (same.trans read)]
    simp [read]
  · rw [if_neg read]
    simp only [read, false_and, not_false_eq_true, iff_true]
    split
    · exact length_writeOpsImpl proto repos inst
    · rfl

end MonitorTaskService

/-- Every request gets exactly one answer, except the read requests whose query
fails. -/
theorem length_answers (services : List UInt16) (proto : ProtoBuf) (repos : EventReposIf)
    (payload : Bytes) :
    (answers services proto repos payload).length = 1 ↔
      ¬FailedRead services proto repos payload := by
  rw [answers, Dispatcher.handleRPC]
  cases valid :
      (RpcInstance.make payload (Int32.ofNat payload.length)).validateRequest.1 with
  | false =>
      have refused := mt (RpcInstance.validateRequest_accepts payload).mpr (by simp [valid])
      simp only [valid, if_true, List.length_singleton, true_iff]
      intro failed
      exact refused ⟨failed.1, failed.2.1⟩
  | true =>
      obtain ⟨long, known⟩ := (RpcInstance.validateRequest_accepts payload).mp valid
      obtain ⟨service, operation, request⟩ := RpcInstance.validateRequest_payload valid
      simp only [valid, Bool.true_eq_false, if_false]
      rw [service]
      by_cases registered : (RpcInstance.requestHeader payload).serviceId ∈ services
      · rw [if_pos registered]
        simp only
        rw [MonitorTaskService.length_handleRPC (by rw [request, operation])]
        rw [operation, request, FailedRead]
        simp [long, known, registered]
      · rw [if_neg registered]
        simp only [List.length_singleton, true_iff]
        intro failed
        exact registered failed.2.2.1

/-! ### Rejections -/

/-- The service answers as asked or rejects the request as invalid. -/
theorem MonitorTaskService.mem_handleRPC {proto : ProtoBuf} {repos : EventReposIf}
    {inst : RpcInstance} {answer : Message} (mem : answer ∈ handleRPC proto repos inst) :
    answer = RpcInstance.reject RpcResponseStatus.INVALID_REQUEST ∨
      ∃ msg, answer = inst.replyRpcMessage msg := by
  rw [handleRPC] at mem
  split at mem
  · rw [readOpsImpl] at mem
    split at mem
    · exact Or.inl (List.mem_singleton.mp mem)
    · split at mem
      · exact Or.inr ⟨_, List.mem_singleton.mp mem⟩
      · split at mem
        · exact Or.inr ⟨_, List.mem_singleton.mp mem⟩
        · exact Or.inl (List.mem_singleton.mp mem)
        · exact absurd mem List.not_mem_nil
  · split at mem
    · rw [writeOpsImpl] at mem
      split at mem
      · exact Or.inl (List.mem_singleton.mp mem)
      · split at mem
        · exact Or.inr ⟨_, List.mem_singleton.mp mem⟩
        · split at mem
          · exact Or.inr ⟨_, List.mem_singleton.mp mem⟩
          · exact Or.inl (List.mem_singleton.mp mem)
    · exact Or.inl (List.mem_singleton.mp mem)

/-- The payload of a message that carries a response determines the response. -/
theorem ofPayload_response_inj {response response' : RpcResponseMessage}
    (same : Message.ofPayload response.netStr = Message.ofPayload response'.netStr) :
    response = response' := by
  have payload : response.netStr = response'.netStr := congrArg Message.payload same
  have parsed := RpcResponseMessage.parse_netStr response
  rw [payload, RpcResponseMessage.parse_netStr] at parsed
  exact (Option.some.inj parsed).symm

theorem reject_inj {status status' : RpcResponseStatus}
    (same : RpcInstance.reject status = RpcInstance.reject status') : status = status' :=
  congrArg (fun response => response.header.status) (ofPayload_response_inj same)

/-- A status other than `OK` is one of the two with which requests are rejected. -/
theorem reject_mem_answers {services : List UInt16} {proto : ProtoBuf} {repos : EventReposIf}
    {payload : Bytes} {status : RpcResponseStatus} (failed : status ≠ RpcResponseStatus.OK)
    (mem : RpcInstance.reject status ∈ answers services proto repos payload) :
    status = RpcResponseStatus.INVALID_REQUEST ∨ status = RpcResponseStatus.INVALID_SERVICE := by
  rw [answers, Dispatcher.handleRPC] at mem
  simp only at mem
  split at mem
  · next answer rejected =>
      have same : RpcInstance.reject status = answer := List.mem_singleton.mp mem
      split at rejected
      · cases rejected
        exact Or.inl (reject_inj same)
      · split at rejected
        · cases rejected
        · cases rejected
          exact Or.inr (reject_inj same)
  · rcases MonitorTaskService.mem_handleRPC mem with invalid | ⟨msg, replied⟩
    · exact Or.inl (reject_inj invalid)
    · have same := ofPayload_response_inj replied
      exact absurd (congrArg (fun response => response.header.status) same) failed

/-! ### A request without an answer -/

/-- A services request of version 2.0.0, as a client serialises it. -/
def servicesRequest : Bytes := [0x32, 0x07, 0x0a, 0x05] ++ bytes "2.0.0"

/-- The generated classes on that request. -/
def servicesProto : ProtoBuf where
  unmarshalRead raw :=
    if raw = servicesRequest then some ⟨none, none, none, some (bytes "2.0.0")⟩ else none
  unmarshalWrite _ := none
  marshalRead response := response.desc
  marshalWrite response := response.desc

/-- A repository that serves version 1.0.0 and knows nothing. -/
def emptyRepos : EventReposIf where
  addEvent _ _ := -1
  getEvent _ _ := (-1, EventSelect.zero)
  getMetrics version _ := if version = bytes "1.0.0" then (0, []) else (-1, [])
  getServices version := if version = bytes "1.0.0" then (0, []) else (-1, [])
  getServiceConf _ := (-1, ⟨0, 0, []⟩)

/-- The request passes every check and nothing is ever sent for it. -/
theorem failed_services_request_unanswered :
    answers [1] servicesProto emptyRepos
      (RpcRequestMessage.make 1 OpCode.CMD_READ_EVENT servicesRequest).netStr = [] := by
  decide +kernel

end Heracles.Rpc
