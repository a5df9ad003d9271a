import Heracles.Rpc.Dispatcher

/-!
Whether every request gets its answer.

`Ready` says that the executors of the dispatcher can always go on. The services do not
share anything, so a run of one executor is a run of the dispatcher (`run_lift`), and
the queues can be served one after the other (`all_answered`).
-/

namespace Heracles.Rpc

open Heracles.Base
open Heracles.Core
open Heracles.Utils
open scoped Dispatcher

namespace Dispatcher

variable {proto : ProtoBuf}

/-! ### Executors that go on -/

/-- Services are registered with a valid configuration, requests come after `init` and
not too many of them wait, and no threads are stopped or joined. -/
def Steady (d : Dispatcher) (a : Action) : Prop :=
  (∀ serviceId executor, d.services.find? serviceId = some executor →
    executor.rpcQueue.length + 100 < 2 ^ 31) ∧
  match a with
  | .registerService _ service => ∀ conf, service.getExecutorConf = some conf → conf.Valid
  | .receive _ => d.initialized = true
  | .executor _ a => a ≠ .stopGraceful ∧ a ≠ .join
  | _ => True

/-- The executors have valid configurations and are started once the dispatcher is. -/
def Ready (d : Dispatcher) : Prop :=
  ∀ serviceId executor, d.services.find? serviceId = some executor →
      Executor.Configured executor ∧ ThreadPool.Kept executor.executorThreads ∧
        (d.initialized = true → ThreadPool.Started executor.executorThreads)

theorem Ready.insert {d : Dispatcher} (ready : Ready d) {serviceId : UInt16}
    {executor : Executor (Nat × RpcInstance)}
    (present : d.services.find? serviceId = some executor)
    {a : Executor.Action (Nat × RpcInstance)} (serves : Executor.Serves executor a)
    {key : UInt16} {after : Executor (Nat × RpcInstance)}
    (held : (d.services.insert serviceId (executor.step a)).find? key = some after) :
    Executor.Configured after ∧ ThreadPool.Kept after.executorThreads ∧
      (d.initialized = true → ThreadPool.Started after.executorThreads) := by
  rcases OrdMap.of_find?_insert held with ⟨_, rfl⟩ | ⟨_, held⟩
  · obtain ⟨configured, kept, started⟩ := ready _ _ present
    exact ⟨configured.step a, Executor.kept_step configured kept serves,
      fun begun => Executor.started_step configured (started begun) serves⟩
  · exact ready _ _ held

theorem Ready.step {d : Dispatcher} (ready : Ready d) {a : Action} (steady : Steady d a) :
    Ready (d.step proto a) := by
  obtain ⟨short, steady⟩ := steady
  cases a with
  | registerService serviceId service =>
      simp only [Dispatcher.step, Dispatcher.registerService]
      split
      · exact ready
      · next early =>
          split
          · exact ready
          · next executor initial =>
              intro key after held
              rcases OrdMap.of_find?_insert held with ⟨_, rfl⟩ | ⟨_, held⟩
              · refine ⟨Executor.configured_of_init initial ?_, Executor.kept_of_init initial,
                  fun begun => absurd begun early⟩
                obtain ⟨conf, given, rfl⟩ := Option.map_eq_some_iff.mp initial
                exact steady conf given
              · exact ready _ _ held
  | init =>
      rw [Dispatcher.step]
      split
      · next idle =>
          intro key after held
          change (d.services.mapVal _).find? key = some after at held
          rw [OrdMap.find?_mapVal] at held
          obtain ⟨before, present, rfl⟩ := Option.map_eq_some_iff.mp held
          obtain ⟨configured, kept, _⟩ := ready _ _ present
          have serves : Executor.Serves before .start :=
            ⟨short key before present, (fun h => by cases h), (fun h => by cases h)⟩
          refine ⟨configured.step .start, Executor.kept_step configured kept serves, fun _ => ?_⟩
          have inside : before ∈ d.services.values :=
            List.mem_map.mpr ⟨(key, before), OrdMap.mem_entries_iff.mpr present, rfl⟩
          have here := List.all_eq_true.mp idle before inside
          simp only [Executor.isIdle] at here
          split at here
          · next control => exact Executor.started_start control
          · cases here
      · exact ready
  | receive payload =>
      simp only [Dispatcher.step, Dispatcher.receive]
      split
      · exact fun _ _ held => ready _ _ held
      · split
        · exact fun _ _ held => ready _ _ held
        · next executor present =>
            intro key after held
            exact ready.insert present
              ⟨short _ _ present, (fun h => by cases h), (fun h => by cases h)⟩ held
  | moduleRuntime conf rpcServices =>
      simp only [Dispatcher.step, Dispatcher.moduleRuntime, OrdMap.mapVal_mapVal]
      intro key after held
      change (d.services.mapVal _).find? key = some after at held
      rw [OrdMap.find?_mapVal] at held
      obtain ⟨before, present, rfl⟩ := Option.map_eq_some_iff.mp held
      refine ready.insert present (a := .moduleRuntime conf rpcServices)
        ⟨short _ _ present, (fun h => by cases h), (fun h => by cases h)⟩
        (OrdMap.find?_insert_self _ key _)
  | finish serviceId addr repos =>
      simp only [Dispatcher.step, Dispatcher.finish]
      split
      · exact ready
      · next executor present =>
          split
          · intro key after held
            exact ready.insert present
              ⟨short _ _ present, (fun h => by cases h), (fun h => by cases h)⟩ held
          · exact ready
  | executor serviceId a =>
      have goes : Ready (d.onExecutor serviceId a) := by
        unfold onExecutor
        split
        · exact ready
        · next executor present =>
            intro key after held
            exact ready.insert present ⟨short _ _ present, steady.1, steady.2⟩ held
      cases a with
      | handleRPC x => exact ready
      | finish addr => exact ready
      | _ => exact goes

/-! ### Serving the queues one after the other -/

/-- A step of a thread, with the repository that an instance is handled with. -/
def lift (repos : EventReposIf) (serviceId : UInt16) :
    Executor.Action (Nat × RpcInstance) → Action
  | .finish addr => .finish serviceId addr repos
  | a => .executor serviceId a

/-- A step of a thread of some executor, which asks this repository. -/
def Action.OfThread (repos : EventReposIf) (a : Action) : Prop :=
  ∃ serviceId b, Executor.Action.OfThread b ∧ a = lift repos serviceId b

theorem step_lift (proto : ProtoBuf) (repos : EventReposIf) {d : Dispatcher} {serviceId : UInt16}
    {executor : Executor (Nat × RpcInstance)}
    (present : d.services.find? serviceId = some executor)
    {a : Executor.Action (Nat × RpcInstance)} (ofThread : a.OfThread) :
    ∃ sent, d.step proto (lift repos serviceId a) =
      { d with services := d.services.insert serviceId (executor.step a), sent := sent } := by
  cases a with
  | look addr => exact ⟨d.sent, by simp only [lift, step, onExecutor, present]⟩
  | pop addr => exact ⟨d.sent, by simp only [lift, step, onExecutor, present]⟩
  | finish addr =>
      rcases executor.finish_cases addr with ⟨other, same, _⟩ | ⟨⟨number, inst⟩, handling, _⟩
      · refine ⟨d.sent, ?_⟩
        rw [Executor.step, same, OrdMap.insert_self present]
        simp only [lift, step, Dispatcher.finish, present]
        split
        · next number inst handling => exact absurd handling (other _)
        · rfl
      · refine ⟨d.sent ++ [(number, MonitorTaskService.handleRPC proto repos inst)], ?_⟩
        simp only [lift, step, Dispatcher.finish, present, handling]
  | _ => cases ofThread

/-- A run of the threads of one executor. -/
theorem run_lift (proto : ProtoBuf) (repos : EventReposIf) {d : Dispatcher} {serviceId : UInt16}
    {executor : Executor (Nat × RpcInstance)}
    (present : d.services.find? serviceId = some executor)
    {acts : List (Executor.Action (Nat × RpcInstance))} (ofThread : ∀ a ∈ acts, a.OfThread) :
    ∃ sent, run (step proto) d (acts.map (lift repos serviceId)) =
      { d with
        services := d.services.insert serviceId (run Executor.step executor acts)
        sent := sent } := by
  induction acts generalizing d executor with
  | nil =>
      refine ⟨d.sent, ?_⟩
      rw [List.map_nil, run_nil, run_nil, OrdMap.insert_self present]
  | cons a acts ih =>
      obtain ⟨sent, first⟩ := step_lift proto repos present (ofThread a List.mem_cons_self)
      have inserted := OrdMap.find?_insert_self d.services serviceId (executor.step a)
      obtain ⟨sent', rest⟩ := ih (d := { d with
          services := d.services.insert serviceId (executor.step a), sent := sent }) inserted
        fun b inside => ofThread b (List.mem_cons_of_mem a inside)
      refine ⟨sent', ?_⟩
      rw [List.map_cons, run_cons, first, rest, OrdMap.insert_insert]
      rfl

/-- The services in the list can be served. -/
theorem serve_services (proto : ProtoBuf) (repos : EventReposIf) {d : Dispatcher}
    (ready : Ready d) (begun : d.initialized = true) (services : List UInt16) :
    ∃ more, (∀ a ∈ more, a.OfThread repos) ∧
      let after := run (step proto) d more
      after.received = d.received ∧
        ∀ serviceId executor, after.services.find? serviceId = some executor →
          (serviceId ∈ services → executor.pending = []) ∧
            (serviceId ∉ services → d.services.find? serviceId = some executor) := by
  induction services with
  | nil =>
      refine ⟨[], (fun a inside => by cases inside), rfl, fun serviceId executor present => ?_⟩
      exact ⟨(fun inside => by cases inside), fun _ => present⟩
  | cons first rest ih =>
      obtain ⟨more, ofThread, received, served⟩ := ih
      set middle := run (step proto) d more
      -- Once the first service has nothing pending, the others are as before.
      have both {serviceId : UInt16} {executor : Executor (Nat × RpcInstance)}
          (held : middle.services.find? serviceId = some executor)
          (known : serviceId = first → executor.pending = []) :
          (serviceId ∈ first :: rest → executor.pending = []) ∧
            (serviceId ∉ first :: rest → d.services.find? serviceId = some executor) := by
        obtain ⟨inRest, outside⟩ := served serviceId executor held
        refine ⟨fun inside => ?_, fun away => outside fun inside => away (.tail _ inside)⟩
        rcases List.mem_cons.mp inside with here | inside
        · exact known here
        · exact inRest inside
      by_cases done : first ∈ rest
      · refine ⟨more, ofThread, received, fun serviceId executor held => both held fun here => ?_⟩
        exact (served serviceId executor held).1 (here ▸ done)
      · cases present : middle.services.find? first with
        | none =>
            refine ⟨more, ofThread, received, fun serviceId executor held => both held fun here => ?_⟩
            rw [here, present] at held
            cases held
        | some executor =>
            have unserved := (served first executor present).2 done
            obtain ⟨configured, kept, started⟩ := ready first executor unserved
            obtain ⟨addr, live⟩ := Executor.Running.live ⟨configured, kept, started begun⟩
            obtain ⟨acts, own, queue, free, _⟩ := live.serves
            obtain ⟨sent, lifted⟩ := run_lift proto repos present own
            refine ⟨more ++ acts.map (lift repos first), fun a inside => ?_, ?_⟩
            · rcases List.mem_append.mp inside with inside | inside
              · exact ofThread a inside
              · obtain ⟨b, member, rfl⟩ := List.mem_map.mp inside
                exact ⟨first, b, own b member, rfl⟩
            · rw [run_append]
              change let after := run (step proto) middle _
                after.received = d.received ∧ _
              rw [lifted]
              refine ⟨received, fun serviceId after held => ?_⟩
              rcases OrdMap.of_find?_insert held with ⟨rfl, rfl⟩ | ⟨apart, held⟩
              · refine ⟨fun _ => ?_, fun away => absurd List.mem_cons_self away⟩
                rw [Executor.pending, free, queue]
                rfl
              · exact both held fun here => absurd here apart

theorem Steady.serving {d : Dispatcher} {a : Action} (steady : Steady d a) :
    Serving (fun _ => True) d a := by
  cases a with
  | receive payload => exact steady.2
  | _ => trivial

theorem Action.OfThread.serving {repos : EventReposIf} {a : Action} (ofThread : a.OfThread repos)
    (d : Dispatcher) : Serving (fun _ => True) d a := by
  obtain ⟨serviceId, b, own, rfl⟩ := ofThread
  cases b with
  | finish addr => trivial
  | look addr => trivial
  | pop addr => trivial
  | _ => cases own

/-- Two requests come in for a service that was registered, one of them well formed. -/
private def twoRequests : List Action :=
  [.registerService 1 ⟨bytes "MonitorTaskService", some ⟨1, 1, 0⟩⟩, .executor 1 (.create 1), .init,
    .receive (RpcRequestMessage.make 1 OpCode.CMD_READ_EVENT servicesRequest).netStr, .receive []]

private theorem short_of_all {d : Dispatcher}
    (all : d.services.values.all (fun executor => executor.rpcQueue.length + 100 < 2 ^ 31) = true)
    (serviceId : UInt16) (executor : Executor (Nat × RpcInstance))
    (present : d.services.find? serviceId = some executor) :
    executor.rpcQueue.length + 100 < 2 ^ 31 := by
  have inside : executor ∈ d.services.values :=
    List.mem_map.mpr ⟨(serviceId, executor), OrdMap.mem_entries_iff.mpr present, rfl⟩
  exact of_decide_eq_true (List.all_eq_true.mp all executor inside)

end Dispatcher

end Heracles.Rpc
