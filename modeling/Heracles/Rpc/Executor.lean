import Heracles.Base.Refine
import Heracles.Base.Serving
import Heracles.Rpc.ExecutorConf
import Heracles.Utils.EQueue
import Heracles.Utils.PoolResize

/-!
The executor of a service.

Dispatched instances wait in a queue, and the threads of a pool pop and handle them.
A timer adjusts the size of the pool to the length of the queue, if the configuration
at the start allows more threads than it begins with; the configuration itself follows
that of the service.

A state shows as a queue with its servers (`serving`) and as its thread pool, and every
step as moves of each (`refines_serving`, `threads_step`), so what holds of those holds
here.
-/

namespace Heracles.Rpc

open Heracles.Base
open Heracles.Utils

/-! ### The service's part -/

def intOfBool (b : Bool) : Int32 := if b then 1 else 0

namespace MonitorTaskService

/-- `handle_rpc_service_runtime_conf`. Its result is a `bool`, 0 for success; `conf` is
what the local variable holds before anything is read into it. -/
def handleRpcServiceRuntimeConf (s : MonitorTaskService) (setting : ServiceSetting)
    (conf : ExecutorConf) : Bool × MonitorTaskService :=
  let (ret, conf) := RpcServiceBase.handleRpcServiceConf setting conf
  if ret ≠ 0 then (boolOfInt (-1), s)
  else (boolOfInt 0, { s with confPtr := s.confPtr.map fun _ => conf })

/-- `module_runtime`, with what the configuration has for `rpc.services`. -/
def moduleRuntime (s : MonitorTaskService) (conf : ExecutorConf) :
    Option (List ServiceSetting) → Int32 × MonitorTaskService
  | none => (-1, s)
  | some rpcServices =>
      match rpcServices.find? fun service => service.instanceName.getD [] = s.instanceName with
      | none => (-1, s)
      | some service =>
          let (ret, s) := s.handleRpcServiceRuntimeConf service conf
          (intOfBool ret, s)

end MonitorTaskService

/-! ### The executor -/

/-- Where the body of the loop of `executor_service_run` is. -/
inductive Work (α : Type) where
  | popping
  | handling (rpcInstance : α)
  deriving DecidableEq

/-- `adjusts` says whether the timer is there. `dispatched`, `popped` and `handled` are
the history: the instances that were queued, taken from the queue and handled. -/
structure Executor (α : Type) where
  service : MonitorTaskService
  conf : ExecutorConf
  rpcQueue : List α
  executorThreads : ThreadPool (Work α)
  adjusts : Bool
  dispatched : List α
  popped : List α
  handled : List α

namespace Executor

variable {α : Type}

/-- `init`, when the pool has been told how many threads it is to create; `none` where
the service has no configuration. -/
def init (service : MonitorTaskService) : Option (Executor α) :=
  service.getExecutorConf.map fun conf =>
    { service := service
      conf := conf
      rpcQueue := []
      executorThreads := (ThreadPool.new 1).initThreads conf.execThreadNumber.toUInt32
      adjusts := conf.execThreadNumberHard > conf.execThreadNumber ∧ conf.execThreadStepSize > 0
      dispatched := []
      popped := []
      handled := [] }

/-- The number of threads that `executor_threads_adjust` asks for. -/
def expectThread (conf : ExecutorConf) (size : Nat) : Int32 :=
  let queueSize := Int32.ofNat size
  let expect :=
    if queueSize > conf.execThreadStepSize then
      conf.execThreadNumber + queueSize / conf.execThreadStepSize
    else conf.execThreadNumber
  if expect > conf.execThreadNumberHard then conf.execThreadNumberHard else expect

/-- `executor_threads_adjust`. -/
def executorThreadsAdjust (e : Executor α) : Executor α :=
  if e.conf.execThreadStepSize = 0 then e
  else
    let expect := expectThread e.conf e.rpcQueue.length
    { e with executorThreads := e.executorThreads.step (.call (.resizeThreads expect.toUInt32)) }

/-- `module_runtime`: the configuration is copied when the service has taken it. -/
def moduleRuntime (e : Executor α) (conf : ExecutorConf)
    (rpcServices : Option (List ServiceSetting)) : Int32 × Executor α :=
  let (ret, service) := e.service.moduleRuntime conf rpcServices
  let e := { e with service := service }
  if ret = 0 then (ret, { e with conf := service.getExecutorConf.getD e.conf }) else (ret, e)

def handleRPC (e : Executor α) (rpcInstance : α) : Executor α :=
  { e with
    rpcQueue := e.rpcQueue ++ [rpcInstance]
    dispatched := e.dispatched ++ [rpcInstance] }

/-- What the thread at an address does in the body of its loop. -/
def workAt (e : Executor α) (addr : Nat) : Option (Work α) :=
  match e.executorThreads.workers.find? addr with
  | some ⟨_, .working work⟩ => some work
  | _ => none

/-- The thread at an address moves. -/
def moveThread (e : Executor α) (addr : Nat) (move : Worker.Move (Work α)) : Executor α :=
  { e with executorThreads := e.executorThreads.step (.thread addr move) }

/-- The `POP` of a thread ends, with an instance or because it has timed out. -/
def pop (e : Executor α) (addr : Nat) : Executor α :=
  match e.workAt addr with
  | some .popping =>
      match EQueue.pop e.rpcQueue with
      | none => e.moveThread addr .back
      | some (rpcInstance, rest) =>
          { e.moveThread addr (.body (.handling rpcInstance)) with
            rpcQueue := rest
            popped := e.popped ++ [rpcInstance] }
  | _ => e

/-- The service has handled the instance that a thread has popped. -/
def finish (e : Executor α) (addr : Nat) : Executor α :=
  match e.workAt addr with
  | some (.handling rpcInstance) =>
      { e.moveThread addr .back with handled := e.handled ++ [rpcInstance] }
  | _ => e

inductive Action (α : Type) where
  | handleRPC (rpcInstance : α)
  | adjust
  | start
  | stopGraceful
  | join
  | moduleRuntime (conf : ExecutorConf) (rpcServices : Option (List ServiceSetting))
  /-- The operation of the pool that is running creates a thread, goes on, or has waited
  for its time. -/
  | create (addr : Nat)
  | advance
  | timeout
  /-- A thread reads or writes its status, ends its `POP` or its instance. -/
  | look (addr : Nat)
  | pop (addr : Nat)
  | finish (addr : Nat)

def onPool (e : Executor α) (a : ThreadPool.Action (Work α)) : Executor α :=
  { e with executorThreads := e.executorThreads.step a }

def step (e : Executor α) : Action α → Executor α
  | .handleRPC rpcInstance => e.handleRPC rpcInstance
  | .adjust => if e.adjusts then e.executorThreadsAdjust else e
  | .start => e.onPool (.call .startThreads)
  | .stopGraceful => e.onPool (.call .gracefulStopThreads)
  | .join => e.onPool (.call .joinThreads)
  | .moduleRuntime conf rpcServices => (e.moduleRuntime conf rpcServices).2
  | .create addr => e.onPool (.create addr)
  | .advance => e.onPool .advance
  | .timeout => e.onPool .timeout
  | .look addr => e.onPool (.thread addr (.look .popping))
  | .pop addr => e.pop addr
  | .finish addr => e.finish addr

/-! ### The pool of an executor -/

/-- The moves that a step makes in the pool. -/
def poolMoves (e : Executor α) : Action α → List (ThreadPool.Action (Work α))
  | .handleRPC _ => []
  | .adjust =>
      if e.adjusts ∧ e.conf.execThreadStepSize ≠ 0 then
        [.call (.resizeThreads (expectThread e.conf e.rpcQueue.length).toUInt32)]
      else []
  | .start => [.call .startThreads]
  | .stopGraceful => [.call .gracefulStopThreads]
  | .join => [.call .joinThreads]
  | .moduleRuntime _ _ => []
  | .create addr => [.create addr]
  | .advance => [.advance]
  | .timeout => [.timeout]
  | .look addr => [.thread addr (.look .popping)]
  | .pop addr =>
      match e.workAt addr, e.rpcQueue with
      | some .popping, [] => [.thread addr .back]
      | some .popping, rpcInstance :: _ => [.thread addr (.body (.handling rpcInstance))]
      | _, _ => []
  | .finish addr =>
      match e.workAt addr with
      | some (.handling _) => [.thread addr .back]
      | _ => []

/-- What `pop` does, case by case. -/
theorem pop_cases (e : Executor α) (addr : Nat) :
    (e.workAt addr ≠ some .popping ∧ e.pop addr = e ∧ e.poolMoves (.pop addr) = []) ∨
      (e.workAt addr = some .popping ∧ e.rpcQueue = [] ∧
        e.pop addr = e.onPool (.thread addr .back) ∧
        e.poolMoves (.pop addr) = [.thread addr .back]) ∨
      ∃ x rest, e.workAt addr = some .popping ∧ e.rpcQueue = x :: rest ∧
        e.pop addr = { e.onPool (.thread addr (.body (.handling x))) with
          rpcQueue := rest, popped := e.popped ++ [x] } ∧
        e.poolMoves (.pop addr) = [.thread addr (.body (.handling x))] := by
  simp only [pop, poolMoves]
  cases doing : e.workAt addr with
  | none => exact Or.inl ⟨(fun h => by cases h), rfl, rfl⟩
  | some work =>
      cases work with
      | handling x => exact Or.inl ⟨(fun h => by cases h), rfl, rfl⟩
      | popping =>
          cases queued : e.rpcQueue with
          | nil => exact Or.inr (Or.inl ⟨rfl, rfl, rfl, rfl⟩)
          | cons x rest => exact Or.inr (Or.inr ⟨x, rest, rfl, rfl, rfl, rfl⟩)

theorem finish_cases (e : Executor α) (addr : Nat) :
    ((∀ x, e.workAt addr ≠ some (.handling x)) ∧ e.finish addr = e ∧
        e.poolMoves (.finish addr) = []) ∨
      ∃ x, e.workAt addr = some (.handling x) ∧
        e.finish addr = { e.onPool (.thread addr .back) with handled := e.handled ++ [x] } ∧
        e.poolMoves (.finish addr) = [.thread addr .back] := by
  simp only [finish, poolMoves]
  cases doing : e.workAt addr with
  | none => exact Or.inl ⟨(fun _ h => by cases h), rfl, rfl⟩
  | some work =>
      cases work with
      | popping => exact Or.inl ⟨(fun _ h => by cases h), rfl, rfl⟩
      | handling x => exact Or.inr ⟨x, rfl, rfl, rfl⟩

theorem moduleRuntime_threads (e : Executor α) (conf : ExecutorConf)
    (rpcServices : Option (List ServiceSetting)) :
    (e.moduleRuntime conf rpcServices).2.executorThreads = e.executorThreads := by
  simp only [moduleRuntime]
  split
  · rfl
  · rfl

/-- The pool makes the moves of a step. -/
theorem threads_step (e : Executor α) (a : Action α) :
    (e.step a).executorThreads = run ThreadPool.step e.executorThreads (e.poolMoves a) := by
  cases a with
  | adjust =>
      simp only [step, poolMoves, executorThreadsAdjust]
      by_cases adjusts : e.adjusts = true
      · by_cases zero : e.conf.execThreadStepSize = 0
        · rw [if_pos adjusts, if_pos zero, if_neg (fun both => both.2 zero)]
          rfl
        · rw [if_pos adjusts, if_neg zero, if_pos ⟨adjusts, zero⟩]
          rfl
      · rw [if_neg adjusts, if_neg (fun both => adjusts both.1)]
        rfl
  | moduleRuntime conf rpcServices => exact moduleRuntime_threads e conf rpcServices
  | pop addr =>
      rcases e.pop_cases addr with ⟨_, same, none⟩ | ⟨_, _, back, one⟩ | ⟨x, rest, _, _, took, one⟩
      · rw [step, same, none]
        rfl
      · rw [step, back, one]
        rfl
      · rw [step, took, one]
        rfl
  | finish addr =>
      rcases e.finish_cases addr with ⟨_, same, none⟩ | ⟨x, _, done, one⟩
      · rw [step, same, none]
        rfl
      · rw [step, done, one]
        rfl
  | _ => rfl

/-- The moves that a step may make in the pool. -/
theorem mem_poolMoves {e : Executor α} {a : Action α} {move : ThreadPool.Action (Work α)}
    (inside : move ∈ e.poolMoves a) :
    (a = .adjust ∧ e.adjusts = true ∧ e.conf.execThreadStepSize ≠ 0 ∧
        move = .call (.resizeThreads (expectThread e.conf e.rpcQueue.length).toUInt32)) ∨
      (a = .start ∧ move = .call .startThreads) ∨
      (a = .stopGraceful ∧ move = .call .gracefulStopThreads) ∨
      (a = .join ∧ move = .call .joinThreads) ∨ (∃ addr, move = .create addr) ∨
      move = .advance ∨ (a = .timeout ∧ move = .timeout) ∨
      ∃ addr own, move = .thread addr own ∧ own ≠ .quit := by
  cases a with
  | handleRPC x => cases inside
  | moduleRuntime conf rpcServices => cases inside
  | adjust =>
      rw [poolMoves] at inside
      split at inside
      · next both => exact Or.inl ⟨rfl, both.1, both.2, List.mem_singleton.mp inside⟩
      · cases inside
  | start => exact Or.inr (Or.inl ⟨rfl, List.mem_singleton.mp inside⟩)
  | stopGraceful => exact Or.inr (Or.inr (Or.inl ⟨rfl, List.mem_singleton.mp inside⟩))
  | join => exact Or.inr (Or.inr (Or.inr (Or.inl ⟨rfl, List.mem_singleton.mp inside⟩)))
  | create addr =>
      exact Or.inr (Or.inr (Or.inr (Or.inr (Or.inl ⟨addr, List.mem_singleton.mp inside⟩))))
  | advance =>
      exact Or.inr (Or.inr (Or.inr (Or.inr (Or.inr (Or.inl (List.mem_singleton.mp inside))))))
  | timeout =>
      exact Or.inr (Or.inr (Or.inr (Or.inr (Or.inr (Or.inr
        (Or.inl ⟨rfl, List.mem_singleton.mp inside⟩))))))
  | look addr =>
      exact Or.inr (Or.inr (Or.inr (Or.inr (Or.inr (Or.inr (Or.inr
        ⟨addr, _, List.mem_singleton.mp inside, fun h => by cases h⟩))))))
  | pop addr =>
      rcases e.pop_cases addr with ⟨_, _, none⟩ | ⟨_, _, _, one⟩ | ⟨x, rest, _, _, _, one⟩
      · rw [none] at inside
        cases inside
      · rw [one] at inside
        exact Or.inr (Or.inr (Or.inr (Or.inr (Or.inr (Or.inr (Or.inr
          ⟨addr, _, List.mem_singleton.mp inside, fun h => by cases h⟩))))))
      · rw [one] at inside
        exact Or.inr (Or.inr (Or.inr (Or.inr (Or.inr (Or.inr (Or.inr
          ⟨addr, _, List.mem_singleton.mp inside, fun h => by cases h⟩))))))
  | finish addr =>
      rcases e.finish_cases addr with ⟨_, _, none⟩ | ⟨x, _, _, one⟩
      · rw [none] at inside
        cases inside
      · rw [one] at inside
        exact Or.inr (Or.inr (Or.inr (Or.inr (Or.inr (Or.inr (Or.inr
          ⟨addr, _, List.mem_singleton.mp inside, fun h => by cases h⟩))))))

theorem sound_run {e : Executor α} (sound : ThreadPool.Sound e.executorThreads)
    (acts : List (Action α)) : ThreadPool.Sound (run step e acts).executorThreads := by
  refine run_invariant (P := fun e : Executor α => ThreadPool.Sound e.executorThreads)
    (fun e a sound => ?_) sound acts
  rw [threads_step]
  exact sound.run (e.poolMoves a)

/-! ### The queue and its servers -/

/-- The instance that a thread has popped and not yet handled. -/
def holds (worker : Worker (Work α)) : Option α :=
  match worker.thread with
  | .working (.handling rpcInstance) => some rpcInstance
  | _ => none

/-- The instances that threads have popped and not yet handled, by thread. -/
def held (pool : ThreadPool (Work α)) : OrdMap Nat α := pool.workers.collect holds

def inHand (e : Executor α) : List α := (held e.executorThreads).values

/-- The executor as a queue with its servers. -/
def serving (e : Executor α) : Serving Nat α where
  waiting := e.rpcQueue
  held := (held e.executorThreads).entries
  arrived := e.dispatched
  taken := e.popped
  finished := e.handled

def servingMoves (e : Executor α) : Action α → List (Serving.Move Nat α)
  | .handleRPC rpcInstance => [.arrive rpcInstance]
  | .pop addr =>
      match e.workAt addr, e.rpcQueue with
      | some .popping, _ :: _ => [.take addr]
      | _, _ => []
  | .finish addr =>
      match e.workAt addr with
      | some (.handling rpcInstance) => [.finish addr rpcInstance]
      | _ => []
  | _ => []

theorem workAt_eq_some {e : Executor α} {addr : Nat} {work : Work α} :
    e.workAt addr = some work ↔ ∃ worker, e.executorThreads.workers.find? addr = some worker ∧
      worker.thread = .working work := by
  unfold workAt
  constructor
  · intro here
    split at here
    · next status work' present =>
        obtain rfl := Option.some.inj here
        exact ⟨_, present, rfl⟩
    · cases here
  · rintro ⟨⟨status, thread⟩, present, rfl⟩
    rw [present]

theorem find?_held (pool : ThreadPool (Work α)) (addr : Nat) :
    (held pool).find? addr = (pool.workers.find? addr).bind holds :=
  OrdMap.find?_collect _ _ _

theorem holds_of_finished {worker : Worker (Work α)} (ended : worker.thread = .finished) :
    holds worker = none := by
  rw [holds, ended]

/-- A step of the pool does not touch an instance, unless it is a thread's move that
does. -/
theorem held_next {pool after : ThreadPool (Work α)} {a : ThreadPool.Action (Work α)}
    (next : ThreadPool.Next pool a after) (sound : ThreadPool.Sound pool)
    (quiet : ∀ addr move worker, a = .thread addr move →
      pool.workers.find? addr = some worker → holds (worker.move move) = holds worker) :
    held after = held pool := by
  refine OrdMap.ext_find? fun key => ?_
  rw [find?_held, find?_held]
  have inserted {addr : Nat} {worker : Worker (Work α)}
      (present : pool.workers.find? addr = some worker) {other : Worker (Work α)}
      (same : holds other = holds worker) :
      ((pool.workers.insert addr other).find? key).bind holds =
        (pool.workers.find? key).bind holds := by
    rw [OrdMap.find?_insert]
    split
    · next here =>
        rw [here, present]
        exact same
    · rfl
  have created {addr : Nat} (absent : pool.workers.find? addr = none) (status : ThreadStatus) :
      ((pool.workers.insert addr ⟨status, .waiting⟩).find? key).bind holds =
        (pool.workers.find? key).bind holds := by
    rw [OrdMap.find?_insert]
    split
    · next here =>
        rw [here, absent]
        rfl
    · rfl
  have erased {addr : Nat} {worker : Worker (Work α)}
      (present : pool.workers.find? addr = some worker) (ended : worker.thread = .finished) :
      ((pool.workers.erase addr).find? key).bind holds =
        (pool.workers.find? key).bind holds := by
    rw [OrdMap.find?_erase]
    split
    · next here =>
        rw [here, present]
        exact (holds_of_finished ended).symm
    · rfl
  cases next with
  | same a => rfl
  | called c _ =>
      rcases (ThreadPool.call_cases pool c).2 with same | ⟨status, _, all⟩
      · rw [same]
      · rw [all, OrdMap.find?_mapVal]
        cases pool.workers.find? key with
        | none => rfl
        | some worker => rfl
  | initialized absent _ => exact created absent _
  | spawned absent _ => exact created absent _
  | emptied _ _ => rfl
  | stopping _ first => exact inserted (ThreadPool.find?_of_entries first) rfl
  | failed _ _ _ _ => rfl
  | removed _ present dead =>
      rw [ThreadPool.workers_afterStop]
      exact erased present (sound.dead present dead)
  | restored _ present =>
      rw [ThreadPool.workers_afterStop]
      exact inserted present rfl
  | missed _ _ => rw [ThreadPool.workers_afterStop]
  | returned _ _ => rfl
  | joined _ first ended => exact erased (ThreadPool.find?_of_entries first) ended
  | moved move present => exact inserted present (quiet _ move _ rfl present)

theorem holds_look (worker : Worker (Work α)) :
    holds (worker.move (.look .popping)) = holds worker := by
  obtain ⟨status, thread⟩ := worker
  cases thread with
  | waiting => cases status <;> rfl
  | looping => cases status <;> rfl
  | _ => rfl

/-- The threads hold the same after an operation of the pool. -/
theorem held_operation {e : Executor α} (sound : ThreadPool.Sound e.executorThreads)
    {a : ThreadPool.Action (Work α)}
    (quiet : ∀ addr move, a = .thread addr move → move = .look .popping) :
    held (e.executorThreads.step a) = held e.executorThreads := by
  refine held_next (ThreadPool.step_next _ a) sound fun addr move worker same _ => ?_
  rw [quiet addr move same]
  exact holds_look worker

/-- A thread at work moves to what it does next. -/
theorem held_move {e : Executor α} {addr : Nat} {worker : Worker (Work α)}
    (present : e.executorThreads.workers.find? addr = some worker)
    (move : Worker.Move (Work α)) (key : Nat) :
    (held (e.executorThreads.step (.thread addr move))).find? key =
      if key = addr then holds (worker.move move) else (held e.executorThreads).find? key := by
  simp only [ThreadPool.step, ThreadPool.moveThread, present, find?_held, OrdMap.find?_insert]
  split
  · rfl
  · rfl

/-- A thread in its `POP` takes an instance. -/
theorem held_take {e : Executor α} {addr : Nat} (popping : e.workAt addr = some .popping)
    (x : α) :
    (held e.executorThreads).find? addr = none ∧
      held (e.executorThreads.step (.thread addr (.body (.handling x)))) =
        (held e.executorThreads).insert addr x := by
  obtain ⟨worker, present, working⟩ := workAt_eq_some.mp popping
  constructor
  · rw [find?_held, present]
    simp only [Option.bind_some, holds, working]
  · refine OrdMap.ext_find? fun key => ?_
    rw [held_move present, OrdMap.find?_insert]
    simp only [Worker.move, Worker.fromBody, working, holds]

/-- A thread goes back to the head of its loop, and holds nothing. -/
theorem held_back {e : Executor α} {addr : Nat} {work : Work α}
    (working : e.workAt addr = some work) :
    held (e.executorThreads.step (.thread addr .back)) = (held e.executorThreads).erase addr := by
  obtain ⟨worker, present, working⟩ := workAt_eq_some.mp working
  refine OrdMap.ext_find? fun key => ?_
  rw [held_move present, OrdMap.find?_erase]
  simp only [Worker.move, Worker.fromBody, working, holds]

theorem find?_held_of_workAt {e : Executor α} {addr : Nat} {x : α}
    (handling : e.workAt addr = some (.handling x)) :
    (held e.executorThreads).find? addr = some x := by
  obtain ⟨worker, present, working⟩ := workAt_eq_some.mp handling
  rw [find?_held, present]
  simp only [Option.bind_some, holds, working]

/-- A `POP` that times out leaves what is held. -/
theorem held_timeout {e : Executor α} {addr : Nat} (popping : e.workAt addr = some .popping) :
    held (e.executorThreads.step (.thread addr .back)) = held e.executorThreads := by
  obtain ⟨worker, present, working⟩ := workAt_eq_some.mp popping
  rw [held_back popping, OrdMap.erase_of_none]
  rw [find?_held, present]
  simp only [Option.bind_some, holds, working]

/-- A step of the pool alone, or of the configuration, does not show. -/
theorem serving_onPool {e : Executor α} {a : ThreadPool.Action (Work α)}
    (same : held (e.executorThreads.step a) = held e.executorThreads) :
    serving (e.onPool a) = serving e := by
  simp only [serving, onPool, same]

/-- Every step shows as an admitted move of the servers. -/
theorem refines_serving :
    Refines (step (α := α)) Serving.step serving servingMoves
      (fun e => ThreadPool.Sound e.executorThreads) (fun _ _ => True) Serving.Admitted where
  keep := fun {e a} sound _ => by
    have all := sound_run sound [a]
    exact all
  shows := by
    intro e a sound _
    have quiet {b : ThreadPool.Action (Work α)}
        (looks : ∀ addr move, b = .thread addr move → move = .look .popping) :
        serving (e.onPool b) = serving e := serving_onPool (held_operation sound looks)
    cases a with
    | handleRPC x => rfl
    | adjust =>
        simp only [step, servingMoves, executorThreadsAdjust]
        split
        · split
          · rfl
          · exact quiet fun _ _ h => by cases h
        · rfl
    | start => exact quiet fun _ _ h => by cases h
    | stopGraceful => exact quiet fun _ _ h => by cases h
    | join => exact quiet fun _ _ h => by cases h
    | create addr => exact quiet fun _ _ h => by cases h
    | advance => exact quiet fun _ _ h => by cases h
    | timeout => exact quiet fun _ _ h => by cases h
    | look addr =>
        refine quiet fun _ _ h => ?_
        cases h
        rfl
    | moduleRuntime conf rpcServices =>
        simp only [step, moduleRuntime, servingMoves]
        split
        · rfl
        · rfl
    | pop addr =>
        rcases e.pop_cases addr with ⟨other, same, _⟩ | ⟨popping, none, back, _⟩ |
          ⟨x, rest, popping, queued, took, _⟩
        · rw [step, same, servingMoves]
          split
          · next here _ => exact absurd here other
          · rfl
        · rw [step, back, servingMoves, popping, none]
          exact serving_onPool (held_timeout popping)
        · obtain ⟨free, inserted⟩ := held_take popping x
          have cons := OrdMap.entries_insert_perm (held e.executorThreads) addr x
          rw [OrdMap.erase_of_none free] at cons
          rw [step, took, servingMoves, popping, queued]
          simp only [serving, onPool, inserted, run_cons, run_nil, Serving.step, queued]
          rw [Multiset.coe_eq_coe.mpr cons, ← Multiset.cons_coe]
    | finish addr =>
        rcases e.finish_cases addr with ⟨other, same, _⟩ | ⟨x, handling, done, _⟩
        · rw [step, same, servingMoves]
          split
          · next here => exact absurd here (other _)
          · rfl
        · have cons := OrdMap.entries_perm_erase (find?_held_of_workAt handling)
          have holds : (serving e).held =
              (addr, x) ::ₘ (((held e.executorThreads).erase addr).entries : Multiset _) := by
            rw [Multiset.cons_coe]
            exact Multiset.coe_eq_coe.mpr cons
          rw [step, done, servingMoves, handling]
          simp only [run_cons, run_nil, Serving.step_finish holds]
          simp only [serving, onPool, held_back handling]
  admits := by
    intro e a sound _
    cases a with
    | handleRPC x => exact ⟨trivial, trivial⟩
    | pop addr =>
        rw [servingMoves]
        split
        · next popping _ =>
            refine ⟨fun p holds same => ?_, trivial⟩
            have present := OrdMap.mem_entries_iff.mp (Multiset.mem_coe.mp holds)
            rw [same, (held_take popping p.2).1] at present
            cases present
        · trivial
    | finish addr =>
        rw [servingMoves]
        split
        · next handling =>
            exact ⟨OrdMap.mem_entries_iff.mpr (find?_held_of_workAt handling), trivial⟩
        · trivial
    | _ => trivial

/-! ### Where every instance is -/

theorem sound_of_init {service : MonitorTaskService} {e : Executor α}
    (initial : init service = some e) : ThreadPool.Sound e.executorThreads := by
  obtain ⟨conf, _, rfl⟩ := Option.map_eq_some_iff.mp initial
  exact (ThreadPool.Sound.new 1).next (ThreadPool.step_next _ (.call (.initThreads _)))

theorem accounted_run {service : MonitorTaskService} {e : Executor α}
    (initial : init service = some e) (acts : List (Action α)) :
    Serving.Accounted (serving (run step e acts)) := by
  refine refines_serving.invariant (fun t b accounted admitted => accounted.step admitted)
    (sound_of_init initial) ?_ (along_of_forall (fun _ _ => trivial) e)
  obtain ⟨conf, _, rfl⟩ := Option.map_eq_some_iff.mp initial
  exact Serving.Accounted.empty

theorem popped_perm {e : Executor α} (accounted : Serving.Accounted (serving e)) :
    e.popped.Perm (e.handled ++ e.inHand) :=
  Multiset.coe_eq_coe.mp accounted.once

/-- The instances that are not handled yet. -/
def pending (e : Executor α) : List α := e.inHand ++ e.rpcQueue

theorem coe_pending (e : Executor α) : (e.pending : Multiset α) = (serving e).pending := by
  rw [pending, ← Multiset.coe_add]
  rfl

/-- A step that neither queues nor finishes an instance leaves what is pending. -/
theorem pending_step {e : Executor α} (sound : ThreadPool.Sound e.executorThreads) {a : Action α}
    (queues : ∀ x, a ≠ .handleRPC x) (finishes : ∀ addr, a ≠ .finish addr) :
    (e.step a).pending.Perm e.pending := by
  rw [← Multiset.coe_eq_coe, coe_pending, coe_pending, refines_serving.shows sound trivial]
  cases a with
  | handleRPC x => exact absurd rfl (queues x)
  | finish addr => exact absurd rfl (finishes addr)
  | pop addr =>
      rw [servingMoves]
      split
      · exact Serving.pending_take _ _
      · rfl
  | _ => rfl

theorem pending_handleRPC (e : Executor α) (x : α) :
    (e.step (.handleRPC x)).pending = e.pending ++ [x] :=
  (List.append_assoc _ _ _).symm

theorem pending_finish {e : Executor α} (sound : ThreadPool.Sound e.executorThreads) {addr : Nat}
    {x : α} (handling : e.workAt addr = some (.handling x)) :
    e.pending.Perm (x :: (e.step (.finish addr)).pending) := by
  have holds : (addr, x) ∈ (serving e).held :=
    OrdMap.mem_entries_iff.mpr (find?_held_of_workAt handling)
  rw [← Multiset.coe_eq_coe, ← Multiset.cons_coe, coe_pending, coe_pending,
    refines_serving.shows sound trivial, servingMoves, handling]
  exact Serving.pending_finish holds

/-- Whatever is dispatched, adjusted, reconfigured, stopped and joined, and whichever
thread moves when: the instances that were dispatched have been popped in order or are
still queued, each popped one is handled, once, or in the hands of one thread, and when
the pool is empty all of them are handled. -/
theorem exactly_once {service : MonitorTaskService} {e : Executor α}
    (initial : init service = some e) (acts : List (Action α)) :
    let e := run step e acts
    e.popped ++ e.rpcQueue = e.dispatched ∧ e.popped.Perm (e.handled ++ e.inHand) ∧
      (e.executorThreads.workers.entries = [] → e.popped.Perm e.handled) := by
  intro e
  have accounted := accounted_run initial acts
  refine ⟨accounted.order, popped_perm accounted, fun empty => ?_⟩
  have none : e.inHand = [] := by
    simp only [inHand, held, OrdMap.values, OrdMap.collect, empty, List.filterMap_nil,
      List.map_nil]
  have perm := popped_perm accounted
  rwa [none, List.append_nil] at perm

/-- A service whose executor has one thread. -/
private def oneThread : MonitorTaskService := ⟨bytes "MonitorTaskService", some ⟨1, 1, 0⟩⟩

private def fresh : Executor Nat where
  service := oneThread
  conf := ⟨1, 1, 0⟩
  rpcQueue := []
  executorThreads := (ThreadPool.new 1).initThreads 1
  adjusts := false
  dispatched := []
  popped := []
  handled := []

/-- Two instances come, one is handled, and the other one is popped. -/
private def twoInstances : List (Action Nat) :=
  [.create 1, .start, .handleRPC 7, .handleRPC 8, .look 1, .look 1, .pop 1, .finish 1, .look 1,
    .pop 1]

theorem exactly_once_two : (run step fresh twoInstances).popped.Perm [7, 8] :=
  (exactly_once (rfl : init oneThread = some fresh) twoInstances).2.1

/-! ### One thread -/

/-- In a pool of one thread the thread in its `POP` is the only one. -/
theorem held_of_small {e : Executor α} (small : e.executorThreads.size ≤ 1) {addr : Nat}
    (popping : e.workAt addr = some .popping) : (serving e).held = 0 := by
  obtain ⟨worker, present, working⟩ := workAt_eq_some.mp popping
  have alone (key : Nat) (apart : key ≠ addr) :
      e.executorThreads.workers.find? key = none := by
    by_contra other
    obtain ⟨other, present'⟩ := Option.ne_none_iff_exists'.mp other
    have one := OrdMap.length_erase present
    have two := OrdMap.length_erase
      ((OrdMap.find?_erase _ addr key).trans ((if_neg apart).trans present'))
    rw [ThreadPool.size] at small
    omega
  have none : held e.executorThreads = .empty := by
    refine OrdMap.ext_find? fun key => ?_
    rw [find?_held]
    by_cases here : key = addr
    · rw [here, present]
      simp only [Option.bind_some, holds, working, OrdMap.find?_empty]
    · rw [alone key here]
      rfl
  rw [serving, none]
  rfl

theorem bounded_of_init {service : MonitorTaskService} {e : Executor α}
    (initial : init service = some e) {limit : Nat} (positive : 1 ≤ limit)
    (enough : e.conf.execThreadNumber.toUInt32.toNat ≤ limit) :
    ThreadPool.Bounded limit e.executorThreads := by
  obtain ⟨conf, _, rfl⟩ := Option.map_eq_some_iff.mp initial
  obtain ⟨left, one, _, most, here⟩ := ThreadPool.initThreads_size
    (ThreadPool.new 1 : ThreadPool (Work α)) conf.execThreadNumber.toUInt32
  refine ⟨Nat.zero_le _, fun left' here' => ?_⟩
  dsimp only at enough here'
  rw [here] at here'
  cases here'
  refine ⟨one, ?_⟩
  change 0 + left ≤ limit
  omega

/-- A step that does not adjust the pool asks for no threads. -/
theorem grows_of_fixed {e : Executor α} (fixed : e.adjusts = false) (a : Action α) (limit : Nat) :
    Along ThreadPool.step (fun _ => ThreadPool.GrowsWithin limit) e.executorThreads
      (e.poolMoves a) := by
  refine along_of_forall (fun move inside => ?_) _
  rcases mem_poolMoves inside with ⟨_, adjusts, _⟩ | ⟨_, rfl⟩ | ⟨_, rfl⟩ | ⟨_, rfl⟩ |
    ⟨addr, rfl⟩ | rfl | ⟨_, rfl⟩ | ⟨addr, move, rfl, _⟩
  · rw [fixed] at adjusts
    cases adjusts
  all_goals trivial

theorem adjusts_step (e : Executor α) (a : Action α) : (e.step a).adjusts = e.adjusts := by
  cases a with
  | adjust =>
      simp only [step, executorThreadsAdjust]
      split
      · split
        · rfl
        · rfl
      · rfl
  | moduleRuntime conf rpcServices =>
      simp only [step, moduleRuntime]
      split
      · rfl
      · rfl
  | pop addr =>
      rcases e.pop_cases addr with ⟨_, same, _⟩ | ⟨_, _, back, _⟩ | ⟨x, rest, _, _, took, _⟩
      · rw [step, same]
      · rw [step, back]
        rfl
      · rw [step, took]
        rfl
  | finish addr =>
      rcases e.finish_cases addr with ⟨_, same, _⟩ | ⟨x, _, done, _⟩
      · rw [step, same]
      · rw [step, done]
        rfl
  | _ => rfl

/-- An executor whose pool is not adjusted and has one thread. -/
structure Single (e : Executor α) : Prop where
  sound : ThreadPool.Sound e.executorThreads
  bounded : ThreadPool.Bounded 1 e.executorThreads
  fixed : e.adjusts = false

theorem Single.step {e : Executor α} (single : Single e) (a : Action α) : Single (e.step a) where
  sound := sound_run single.sound [a]
  bounded := by
    rw [threads_step]
    exact Along.invariant
      (fun pool move bounded grows => bounded.next (ThreadPool.step_next pool move) (by omega) grows)
      single.bounded (grows_of_fixed single.fixed a 1)
  fixed := (adjusts_step e a).trans single.fixed

/-- One thread takes one instance at a time. -/
theorem refines_one_by_one :
    Refines (step (α := α)) Serving.step serving servingMoves Single (fun _ _ => True)
      Serving.OneByOne where
  keep := fun single _ => single.step _
  shows := fun single _ => refines_serving.shows single.sound trivial
  admits := by
    intro e a single _
    cases a with
    | handleRPC x => exact ⟨trivial, trivial⟩
    | pop addr =>
        rw [servingMoves]
        split
        · next popping _ => exact ⟨held_of_small single.bounded.within popping, trivial⟩
        · trivial
    | finish addr =>
        rw [servingMoves]
        split
        · next handling =>
            exact ⟨OrdMap.mem_entries_iff.mpr (find?_held_of_workAt handling), trivial⟩
        · trivial
    | _ => trivial

theorem handled_inHand {e : Executor α} (order : Serving.InOrder (serving e)) :
    e.handled ++ e.inHand = e.popped := by
  rcases order with ⟨free, same⟩ | ⟨p, one, same⟩
  · have none : (held e.executorThreads).entries = [] := (Multiset.coe_eq_zero _).mp free
    rw [inHand, OrdMap.values, none, List.map_nil, List.append_nil]
    exact same
  · have single : (held e.executorThreads).entries = [p] := Multiset.coe_eq_singleton.mp one
    rw [inHand, OrdMap.values, single]
    exact same

/-- An executor that begins with one thread and a hard limit of one handles the instances
in the order in which they were dispatched, whatever configuration it gets later. -/
theorem in_order {service : MonitorTaskService} {e : Executor α}
    (initial : init service = some e) (one : e.conf.execThreadNumber = 1)
    (hard : e.conf.execThreadNumberHard ≤ 1) (acts : List (Action α)) :
    let e := run step e acts
    e.handled ++ e.inHand ++ e.rpcQueue = e.dispatched := by
  have fixed : e.adjusts = false := by
    obtain ⟨conf, _, rfl⟩ := Option.map_eq_some_iff.mp initial
    dsimp only at one hard
    refine decide_eq_false fun both => ?_
    rw [one] at both
    exact absurd hard (not_le.mpr both.1)
  have start : ThreadPool.Bounded 1 e.executorThreads :=
    bounded_of_init initial le_rfl (by rw [one]; decide)
  intro e'
  have order : Serving.InOrder (serving e') := by
    refine refines_one_by_one.invariant (fun t b order admitted => order.step admitted)
      ⟨sound_of_init initial, start, fixed⟩ ?_ (along_of_forall (fun _ _ => trivial) e)
    obtain ⟨conf, _, rfl⟩ := Option.map_eq_some_iff.mp initial
    exact Or.inl ⟨rfl, rfl⟩
  rw [handled_inHand order]
  exact (accounted_run initial acts).order

theorem in_order_two : (run step fresh twoInstances).dispatched = [7, 8] :=
  (in_order (rfl : init oneThread = some fresh) rfl (by decide) twoInstances).symm

end Executor

end Heracles.Rpc
