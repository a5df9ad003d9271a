import Heracles.Rpc.Executor

/-!
The threads of an executor.

The configuration in force is valid, so an adjustment asks for at least one thread and
at most the hard limit; with what is known about pools, the pool keeps within the limits
that have been in force (`within_limits`) and never stops serving (`always_served`).
-/

namespace Heracles.Rpc

open Heracles.Base
open Heracles.Utils

/-! ### Valid configurations -/

/-- A section that is accepted gives a valid configuration. -/
theorem RpcServiceBase.valid_of_handleRpcServiceConf {setting : ServiceSetting}
    {conf : ExecutorConf} (accepted : (handleRpcServiceConf setting conf).1 = 0) :
    (handleRpcServiceConf setting conf).2.Valid := by
  simp only [handleRpcServiceConf] at accepted ⊢
  generalize (if setting.execThreadPoolSizeHard.getD conf.execThreadNumberHard <
      setting.execThreadPoolSize.getD conf.execThreadNumber then
    ExecutorConf.mk (setting.execThreadPoolSize.getD conf.execThreadNumber)
      (setting.execThreadPoolSize.getD conf.execThreadNumber)
      (setting.execThreadPoolStepSize.getD conf.execThreadStepSize)
    else
    ExecutorConf.mk (setting.execThreadPoolSize.getD conf.execThreadNumber)
      (setting.execThreadPoolSizeHard.getD conf.execThreadNumberHard)
      (setting.execThreadPoolStepSize.getD conf.execThreadStepSize)) = loaded at accepted ⊢
  split at accepted
  · cases accepted
  · next numbers =>
      split at accepted
      · cases accepted
      · next step =>
          rw [if_neg numbers, if_neg step]
          simp only [not_or, not_le, not_lt] at numbers step
          refine ⟨?_, numbers.2.2.2, numbers.2.2.1, step⟩
          have positive := numbers.1
          rw [Int32.lt_iff_toInt_lt, Int32.toInt_zero] at positive
          rw [Int32.le_iff_toInt_le, Int32.toInt_one]
          exact positive

/-- A runtime update stores a valid configuration and succeeds, or fails and stores
nothing. -/
theorem MonitorTaskService.moduleRuntime_cases (s : MonitorTaskService) (conf : ExecutorConf)
    (rpcServices : Option (List ServiceSetting)) :
    (∃ given, given.Valid ∧ s.moduleRuntime conf rpcServices =
      (0, { s with confPtr := s.confPtr.map fun _ => given })) ∨
    ∃ ret, ret ≠ 0 ∧ s.moduleRuntime conf rpcServices = (ret, s) := by
  cases rpcServices with
  | none => exact Or.inr ⟨-1, by decide, rfl⟩
  | some sections =>
      simp only [moduleRuntime]
      cases sections.find? fun service => service.instanceName.getD [] = s.instanceName with
      | none => exact Or.inr ⟨-1, by decide, rfl⟩
      | some service =>
          simp only [handleRpcServiceRuntimeConf]
          split
          · exact Or.inr ⟨1, by decide, rfl⟩
          · next accepted =>
              exact Or.inl ⟨_, RpcServiceBase.valid_of_handleRpcServiceConf (not_not.mp accepted),
                rfl⟩

namespace Executor

variable {α : Type}

/-- The executor has the configuration of its service, which is valid. -/
structure Configured (e : Executor α) : Prop where
  served : e.service.getExecutorConf = some e.conf
  valid : e.conf.Valid

theorem Configured.moduleRuntime {e : Executor α} (configured : Configured e)
    (conf : ExecutorConf) (rpcServices : Option (List ServiceSetting)) :
    Configured (e.moduleRuntime conf rpcServices).2 := by
  have served : e.service.confPtr = some e.conf := configured.served
  rcases e.service.moduleRuntime_cases conf rpcServices with ⟨given, valid, same⟩ | ⟨ret, bad, same⟩
  · simp only [Executor.moduleRuntime, same, served, Option.map_some, if_true]
    exact ⟨rfl, valid⟩
  · simp only [Executor.moduleRuntime, same, if_neg bad]
    exact configured

/-- Other steps leave the configuration alone. -/
theorem conf_step (e : Executor α) {a : Action α}
    (other : ∀ conf rpcServices, a ≠ .moduleRuntime conf rpcServices) :
    (e.step a).conf = e.conf ∧ (e.step a).service = e.service := by
  cases a with
  | adjust =>
      simp only [step, executorThreadsAdjust]
      split
      · split
        · exact ⟨rfl, rfl⟩
        · exact ⟨rfl, rfl⟩
      · exact ⟨rfl, rfl⟩
  | moduleRuntime conf rpcServices => exact absurd rfl (other conf rpcServices)
  | pop addr =>
      rcases e.pop_cases addr with ⟨_, same, _⟩ | ⟨_, _, back, _⟩ | ⟨x, rest, _, _, took, _⟩
      · rw [step, same]
        exact ⟨rfl, rfl⟩
      · rw [step, back]
        exact ⟨rfl, rfl⟩
      · rw [step, took]
        exact ⟨rfl, rfl⟩
  | finish addr =>
      rcases e.finish_cases addr with ⟨_, same, _⟩ | ⟨x, _, done, _⟩
      · rw [step, same]
        exact ⟨rfl, rfl⟩
      · rw [step, done]
        exact ⟨rfl, rfl⟩
  | _ => exact ⟨rfl, rfl⟩

theorem Configured.step {e : Executor α} (configured : Configured e) (a : Action α) :
    Configured (e.step a) := by
  by_cases other : ∀ conf rpcServices, a ≠ .moduleRuntime conf rpcServices
  · obtain ⟨conf, service⟩ := conf_step e other
    exact ⟨by rw [conf, service]; exact configured.served, conf ▸ configured.valid⟩
  · simp only [not_forall, not_not] at other
    obtain ⟨conf, rpcServices, rfl⟩ := other
    exact configured.moduleRuntime conf rpcServices

/-! ### The size asked for -/

/-- An adjustment asks for one more thread for every step size of queued instances, up to
the hard limit. -/
theorem toInt_expectThread {conf : ExecutorConf} (valid : conf.Valid) {size : Nat}
    (short : size + 100 < 2 ^ 31) :
    (expectThread conf size).toInt = min conf.execThreadNumberHard.toInt
      (conf.execThreadNumber.toInt + if conf.execThreadStepSize.toInt < size then
        size / conf.execThreadStepSize.toInt else 0) := by
  obtain ⟨number, hard, limit, step⟩ := valid
  rw [Int32.le_iff_toInt_le] at number hard limit step
  rw [Int32.toInt_zero] at step
  have hundred : (100 : Int32).toInt = 100 := rfl
  rw [hundred] at limit
  rw [Int32.toInt_one] at number
  have queue : (Int32.ofNat size).toInt = size := Int32.toInt_ofNat_of_lt (by omega)
  have capped (expect : Int32) :
      (if expect > conf.execThreadNumberHard then conf.execThreadNumberHard else expect).toInt =
        min conf.execThreadNumberHard.toInt expect.toInt := by
    split
    · next more =>
        have above := Int32.lt_iff_toInt_lt.mp more
        omega
    · next fewer =>
        have below := Int32.le_iff_toInt_le.mp (not_lt.mp fewer)
        omega
  simp only [expectThread, capped]
  congr 1
  by_cases many : conf.execThreadStepSize.toInt < size
  · have quotient : (Int32.ofNat size / conf.execThreadStepSize).toInt =
        size / conf.execThreadStepSize.toInt := by
      rw [Int32.toInt_div_of_ne_left _ _ ?_, queue, Int.tdiv_eq_ediv_of_nonneg (by omega)]
      intro least
      have low := congrArg Int32.toInt least
      rw [queue] at low
      have negative : Int32.minValue.toInt = -2147483648 := rfl
      omega
    have nonneg : 0 ≤ (size : Int) / conf.execThreadStepSize.toInt := Int.ediv_nonneg (by omega) step
    have most : (size : Int) / conf.execThreadStepSize.toInt ≤ size :=
      Int.ediv_le_self _ (by omega)
    rw [if_pos many, if_pos (Int32.lt_iff_toInt_lt.mpr (by rw [queue]; exact many)),
      Int32.toInt_add, quotient]
    exact Int.bmod_eq_of_le (by omega) (by omega)
  · rw [if_neg many, if_neg (fun more => many (by
      have more' := Int32.lt_iff_toInt_lt.mp more
      rwa [queue] at more')), add_zero]

/-- An adjustment asks for a number from the base number to the hard limit. -/
theorem expectThread_bounds {conf : ExecutorConf} (valid : conf.Valid) {size : Nat}
    (short : size + 100 < 2 ^ 31) :
    1 ≤ (expectThread conf size).toUInt32.toNat ∧
      ((expectThread conf size).toUInt32.toNat : Int) ≤ conf.execThreadNumberHard.toInt := by
  have expect := toInt_expectThread valid short
  obtain ⟨number, hard, _, step⟩ := valid
  rw [Int32.le_iff_toInt_le] at number hard step
  rw [Int32.toInt_zero] at step
  rw [Int32.toInt_one] at number
  have quotient : 0 ≤ if conf.execThreadStepSize.toInt < (size : Int) then
      (size : Int) / conf.execThreadStepSize.toInt else 0 := by
    split
    · exact Int.ediv_nonneg (by omega) step
    · exact le_rfl
  have one : 1 ≤ (expectThread conf size).toInt := by omega
  have word : ((expectThread conf size).toUInt32.toNat : Int) = (expectThread conf size).toInt := by
    rw [Int32.toNat_toUInt32_of_le (by rw [Int32.le_iff_toInt_le, Int32.toInt_zero]; omega)]
    exact Int.toNat_of_nonneg (by omega)
  omega

/-! ### The limits of the pool -/

/-- The queue has a length that fits into an `int`, with room for the base number, and
the hard limit that is in force after the step is within `limit`. -/
def Within (limit : Nat) (e : Executor α) (a : Action α) : Prop :=
  e.rpcQueue.length + 100 < 2 ^ 31 ∧ (e.step a).conf.execThreadNumberHard.toInt ≤ limit

theorem grows_of_configured {e : Executor α} (configured : Configured e)
    (short : e.rpcQueue.length + 100 < 2 ^ 31) {limit : Nat}
    (hard : e.conf.execThreadNumberHard.toInt ≤ limit) (a : Action α) :
    Along ThreadPool.step (fun _ => ThreadPool.GrowsWithin limit) e.executorThreads
      (e.poolMoves a) := by
  refine along_of_forall (fun move inside => ?_) _
  rcases mem_poolMoves inside with ⟨_, _, _, rfl⟩ | ⟨_, rfl⟩ | ⟨_, rfl⟩ | ⟨_, rfl⟩ |
    ⟨addr, rfl⟩ | rfl | ⟨_, rfl⟩ | ⟨addr, move, rfl, _⟩
  · have most := (expectThread_bounds configured.valid short).2
    change (expectThread e.conf e.rpcQueue.length).toUInt32.toNat ≤ limit
    omega
  all_goals trivial

theorem configured_of_init {service : MonitorTaskService} {e : Executor α}
    (initial : init service = some e) (valid : e.conf.Valid) : Configured e := by
  obtain ⟨conf, given, rfl⟩ := Option.map_eq_some_iff.mp initial
  exact ⟨given, valid⟩

/-- Whatever is reconfigured, adjusted, stopped and joined: the configuration in force is
valid, and the pool never has more threads than the largest hard limit that has been in
force, which is at most 100. -/
theorem within_limits {service : MonitorTaskService} {e : Executor α}
    (initial : init service = some e) (valid : e.conf.Valid) {limit : Nat}
    (first : e.conf.execThreadNumberHard.toInt ≤ limit) {acts : List (Action α)}
    (along : Along step (Within limit) e acts) :
    let e := run step e acts
    e.conf.Valid ∧ e.executorThreads.size ≤ min limit 100 := by
  have hundred {conf : ExecutorConf} (valid : conf.Valid) :
      conf.execThreadNumberHard.toInt ≤ 100 := by
    have most := valid.limit
    rwa [Int32.le_iff_toInt_le] at most
  have ordered {conf : ExecutorConf} (valid : conf.Valid) :
      conf.execThreadNumber.toUInt32.toNat ≤ conf.execThreadNumberHard.toInt ∧
        1 ≤ conf.execThreadNumberHard.toInt := by
    obtain ⟨number, hard, _, _⟩ := valid
    rw [Int32.le_iff_toInt_le] at number hard
    rw [Int32.toInt_one] at number
    have word : (conf.execThreadNumber.toUInt32.toNat : Int) = conf.execThreadNumber.toInt := by
      rw [Int32.toNat_toUInt32_of_le (by rw [Int32.le_iff_toInt_le, Int32.toInt_zero]; omega)]
      exact Int.toNat_of_nonneg (by omega)
    omega
  have start : Configured e ∧ e.conf.execThreadNumberHard.toInt ≤ limit ∧
      ThreadPool.Bounded (min limit 100) e.executorThreads := by
    have most := hundred valid
    have base := ordered valid
    exact ⟨configured_of_init initial valid, first,
      bounded_of_init initial (by omega) (by omega)⟩
  have kept := Along.invariant (P := fun e : Executor α => Configured e ∧
    e.conf.execThreadNumberHard.toInt ≤ limit ∧
    ThreadPool.Bounded (min limit 100) e.executorThreads) ?_ start along
  · exact ⟨kept.1.valid, kept.2.2.within⟩
  · rintro now a ⟨configured, hard, bounded⟩ ⟨short, after⟩
    refine ⟨configured.step a, after, ?_⟩
    have most := hundred configured.valid
    rw [threads_step]
    exact Along.invariant
      (fun pool move bounded grows =>
        bounded.next (ThreadPool.step_next pool move) (by omega) grows)
      bounded (grows_of_configured configured short (by omega) a)

/-- A service whose executor may have two threads. -/
private def twoThreads : MonitorTaskService := ⟨bytes "MonitorTaskService", some ⟨1, 2, 1⟩⟩

private def untouched : Executor Nat where
  service := twoThreads
  conf := ⟨1, 2, 1⟩
  rpcQueue := []
  executorThreads := (ThreadPool.new 1).initThreads 1
  adjusts := true
  dispatched := []
  popped := []
  handled := []

/-- Two instances come, and a thread is added. -/
private def adjusted : List (Action Nat) := [.handleRPC 7, .handleRPC 8, .adjust, .create 2]

theorem within_limits_adjusted :
    (run step untouched (.create 1 :: .start :: adjusted)).executorThreads.size ≤ 2 := by
  refine (@within_limits Nat _ _ (rfl : init twoThreads = some untouched) ?_ 2 (by decide) _ ?_).2
  · exact ⟨by decide, by decide, by decide, by decide⟩
  · exact ⟨⟨by decide, by decide⟩, ⟨by decide, by decide⟩, ⟨by decide, by decide⟩,
      ⟨by decide, by decide⟩, ⟨by decide, by decide⟩, ⟨by decide, by decide⟩, trivial⟩

/-! ### The threads can always finish -/

/-- The step stops or joins no thread, and the queue has a length that an `int` holds. -/
def Serves (e : Executor α) (a : Action α) : Prop :=
  e.rpcQueue.length + 100 < 2 ^ 31 ∧ a ≠ .stopGraceful ∧ a ≠ .join

theorem resizes_of_configured {e : Executor α} (configured : Configured e) {a : Action α}
    (serves : Serves e a) :
    Along ThreadPool.step (fun _ => ThreadPool.Resizes) e.executorThreads (e.poolMoves a) := by
  refine along_of_forall (fun move inside => ?_) _
  rcases mem_poolMoves inside with ⟨_, _, _, rfl⟩ | ⟨_, rfl⟩ | ⟨stop, rfl⟩ | ⟨join, rfl⟩ |
    ⟨addr, rfl⟩ | rfl | ⟨_, rfl⟩ | ⟨addr, move, rfl, stays⟩
  · obtain ⟨one, most⟩ := expectThread_bounds configured.valid serves.1
    have limit := configured.valid.limit
    rw [Int32.le_iff_toInt_le] at limit
    have hundred : (100 : Int32).toInt = 100 := rfl
    rw [hundred] at limit
    exact ⟨one, by omega⟩
  · trivial
  · exact serves.2.1 stop
  · exact serves.2.2 join
  · trivial
  · trivial
  · trivial
  · exact stays

/-- An executor whose threads have been started and are only ever resized. -/
structure Running (e : Executor α) : Prop where
  configured : Configured e
  kept : ThreadPool.Kept e.executorThreads
  started : ThreadPool.Started e.executorThreads

theorem kept_step {e : Executor α} (configured : Configured e)
    (kept : ThreadPool.Kept e.executorThreads) {a : Action α} (serves : Serves e a) :
    ThreadPool.Kept (e.step a).executorThreads := by
  rw [threads_step]
  exact Along.invariant
    (fun pool move kept resizes => kept.next (ThreadPool.step_next pool move) resizes)
    kept (resizes_of_configured configured serves)

theorem started_step {e : Executor α} (configured : Configured e)
    (started : ThreadPool.Started e.executorThreads) {a : Action α} (serves : Serves e a) :
    ThreadPool.Started (e.step a).executorThreads := by
  rw [threads_step]
  exact Along.invariant
    (fun pool move started resizes => started.next (ThreadPool.step_next pool move) resizes)
    started (resizes_of_configured configured serves)

/-- All threads are started when no operation of the pool is running. -/
theorem started_start {e : Executor α} {ret : Option Int32}
    (ready : e.executorThreads.control = .idle ret) :
    ThreadPool.Started (e.step .start).executorThreads := by
  change ThreadPool.Started (e.executorThreads.step (.call .startThreads))
  rw [ThreadPool.step, ready]
  exact ThreadPool.Started.call _

theorem kept_of_init {service : MonitorTaskService} {e : Executor α}
    (initial : init service = some e) : ThreadPool.Kept e.executorThreads := by
  obtain ⟨conf, _, rfl⟩ := Option.map_eq_some_iff.mp initial
  exact ThreadPool.Kept.init 1 _

theorem Running.step {e : Executor α} (running : Running e) {a : Action α}
    (serves : Serves e a) : Running (e.step a) where
  configured := running.configured.step a
  kept := kept_step running.configured running.kept serves
  started := started_step running.configured running.started serves

/-- A thread that has been started and goes round its loop. -/
structure Live (e : Executor α) (addr : Nat) : Prop where
  runs : ∃ thread, e.executorThreads.workers.find? addr = some ⟨.kRunning, thread⟩ ∧
    thread ≠ .leaving ∧ thread ≠ .finished

theorem Running.live {e : Executor α} (running : Running e) : ∃ addr, Live e addr := by
  rcases running.kept.last with ⟨_, left, here⟩ | ⟨addr, worker, last⟩
  · exact absurd here (running.started.ready left)
  · obtain ⟨status, thread⟩ := worker
    refine ⟨addr, thread, ?_, last.serves.leaving, last.serves.finished⟩
    rcases last.serves.status with init | run
    · exact absurd init (running.started.status last.present)
    · obtain rfl : status = .kRunning := run
      exact last.present

/-- A thread at work. -/
def Action.OfThread : Action α → Prop
  | .look _ => True
  | .pop _ => True
  | .finish _ => True
  | _ => False

/-- The thread is replaced. -/
def setWorker (e : Executor α) (addr : Nat) (worker : Worker (Work α)) : Executor α :=
  { e with executorThreads :=
      { e.executorThreads with workers := e.executorThreads.workers.insert addr worker } }

theorem onPool_thread {e : Executor α} {addr : Nat} {worker : Worker (Work α)}
    (present : e.executorThreads.workers.find? addr = some worker)
    (move : Worker.Move (Work α)) :
    e.onPool (.thread addr move) = e.setWorker addr (worker.move move) := by
  simp only [onPool, ThreadPool.step, ThreadPool.moveThread, present, setWorker]

theorem setWorker_self {e : Executor α} {addr : Nat} {worker : Worker (Work α)}
    (present : e.executorThreads.workers.find? addr = some worker) :
    e.setWorker addr worker = e := by
  rw [setWorker, OrdMap.insert_self present]

theorem setWorker_setWorker (e : Executor α) (addr : Nat) (worker worker' : Worker (Work α)) :
    (e.setWorker addr worker).setWorker addr worker' = e.setWorker addr worker' := by
  simp only [setWorker, OrdMap.insert_insert]

theorem find?_setWorker (e : Executor α) (addr : Nat) (worker : Worker (Work α)) (key : Nat) :
    (e.setWorker addr worker).executorThreads.workers.find? key =
      if key = addr then some worker else e.executorThreads.workers.find? key :=
  OrdMap.find?_insert _ _ _ _

/-- A thread that finishes its instance stays alive, and so do the others. -/
theorem Live.finish {e : Executor α} {addr : Nat} (live : Live e addr) (key : Nat) :
    Live (e.finish key) addr := by
  rcases e.finish_cases key with ⟨_, same, _⟩ | ⟨x, handling, done, _⟩
  · rw [same]
    exact live
  · obtain ⟨thread, present, leaving, finished⟩ := live
    obtain ⟨worker, held, working⟩ := workAt_eq_some.mp handling
    refine ⟨?_⟩
    rw [done, onPool_thread held, Worker.move, Worker.fromBody, working]
    change ∃ thread, (e.setWorker key _).executorThreads.workers.find? addr = _ ∧ _
    rw [find?_setWorker]
    split
    · next here =>
        rw [← here, present] at held
        obtain rfl := Option.some.inj held
        exact ⟨.looping, rfl, (fun h => by cases h), (fun h => by cases h)⟩
    · exact ⟨thread, present, leaving, finished⟩

theorem inHand_eq_nil_iff {e : Executor α} :
    e.inHand = [] ↔ ∀ addr x, e.workAt addr ≠ some (.handling x) := by
  constructor
  · intro free addr x handling
    have inside := OrdMap.mem_entries_iff.mpr (find?_held_of_workAt handling)
    rw [List.map_eq_nil_iff.mp free] at inside
    cases inside
  · intro none
    refine List.map_eq_nil_iff.mpr (List.eq_nil_iff_forall_not_mem.mpr fun p inside => ?_)
    have holding := OrdMap.mem_entries_iff.mp inside
    rw [find?_held, Option.bind_eq_some_iff] at holding
    obtain ⟨⟨status, thread⟩, present, holds'⟩ := holding
    simp only [holds] at holds'
    split at holds'
    · exact none _ _ (workAt_eq_some.mpr ⟨_, present, rfl⟩)
    · cases holds'

/-- The threads that have an instance in hand can finish it. -/
theorem hand_in (e : Executor α) :
    ∃ keys : List Nat,
      let after := run step e (keys.map .finish)
      after.inHand = [] ∧ after.rpcQueue = e.rpcQueue ∧ after.dispatched = e.dispatched ∧
        ∀ addr, Live e addr → Live after addr := by
  -- The induction is on the number of instances in hand.
  induction many : (held e.executorThreads).entries.length generalizing e with
  | zero =>
      refine ⟨[], ?_, rfl, rfl, fun addr live => live⟩
      change (held e.executorThreads).values = []
      rw [OrdMap.values, List.length_eq_zero_iff.mp many, List.map_nil]
  | succ n ih =>
      have busy : ¬ ∀ addr x, e.workAt addr ≠ some (.handling x) := by
        intro none
        rw [List.map_eq_nil_iff.mp (inHand_eq_nil_iff.mpr none)] at many
        cases many
      simp only [not_forall, not_not] at busy
      obtain ⟨key, x, handling⟩ := busy
      rcases e.finish_cases key with ⟨other, _⟩ | ⟨y, _, done, _⟩
      · exact absurd handling (other x)
      · have fewer : (held (e.finish key).executorThreads).entries.length = n := by
          have one := OrdMap.length_erase (find?_held_of_workAt handling)
          rw [done]
          change (held (e.executorThreads.step (.thread key .back))).entries.length = n
          rw [held_back handling]
          omega
        obtain ⟨keys, free, queue, dispatched, alive⟩ := ih (e.finish key) fewer
        refine ⟨key :: keys, free, queue.trans ?_, dispatched.trans ?_,
          fun addr live => alive addr (live.finish key)⟩
        · rw [done]
          rfl
        · rw [done]
          rfl

/-- A thread that goes round its loop gets to its `POP`. -/
theorem Live.pops {e : Executor α} {addr : Nat} (live : Live e addr) (free : e.inHand = []) :
    ∃ looks : Nat, run step e (List.replicate looks (.look addr)) =
      e.setWorker addr ⟨.kRunning, .working .popping⟩ := by
  obtain ⟨thread, present, leaving, finished⟩ := live
  have looked {now : Executor α} {worker : Worker (Work α)}
      (here : now.executorThreads.workers.find? addr = some worker) :
      now.step (.look addr) = now.setWorker addr (worker.look .popping) := onPool_thread here _
  cases thread with
  | waiting =>
      refine ⟨2, ?_⟩
      change (e.step (.look addr)).step (.look addr) = _
      rw [looked present, looked ((find?_setWorker e addr _ addr).trans (if_pos rfl)),
        setWorker_setWorker]
      rfl
  | looping =>
      refine ⟨1, ?_⟩
      change e.step (.look addr) = _
      rw [looked present]
      rfl
  | leaving => exact absurd rfl leaving
  | finished => exact absurd rfl finished
  | working work =>
      cases work with
      | popping =>
          refine ⟨0, ?_⟩
          exact (setWorker_self present).symm
      | handling x =>
          exact absurd (workAt_eq_some.mpr ⟨_, present, rfl⟩) (inHand_eq_nil_iff.mp free addr x)

/-- One round of a thread: it pops an instance, handles it and is back at its `POP`. -/
def lap (addr : Nat) : List (Action α) := [.pop addr, .finish addr, .look addr]

theorem run_lap {e : Executor α} {addr : Nat}
    (present : e.executorThreads.workers.find? addr = some ⟨.kRunning, .working .popping⟩)
    {x : α} {rest : List α} (queued : e.rpcQueue = x :: rest) :
    run step e (lap addr) =
      { e with rpcQueue := rest, popped := e.popped ++ [x], handled := e.handled ++ [x] } := by
  have popping : e.workAt addr = some .popping := workAt_eq_some.mpr ⟨_, present, rfl⟩
  set popped : Executor α := { e with rpcQueue := rest, popped := e.popped ++ [x] }
  set done : Executor α := { popped with handled := e.handled ++ [x] }
  have taken : e.step (.pop addr) = popped.setWorker addr ⟨.kRunning, .working (.handling x)⟩ := by
    simp only [step, pop, popping, queued, EQueue.pop, moveThread, ThreadPool.step,
      ThreadPool.moveThread, present]
    rfl
  have handling : (popped.setWorker addr ⟨.kRunning, .working (.handling x)⟩).workAt addr =
      some (.handling x) :=
    workAt_eq_some.mpr ⟨_, OrdMap.find?_insert_self _ _ _, rfl⟩
  have finished : (popped.setWorker addr ⟨.kRunning, .working (.handling x)⟩).step (.finish addr) =
      done.setWorker addr ⟨.kRunning, .looping⟩ := by
    simp only [step, finish, handling]
    simp only [moveThread, ThreadPool.step, ThreadPool.moveThread, setWorker,
      OrdMap.find?_insert_self, OrdMap.insert_insert]
    rfl
  have back : (done.setWorker addr ⟨.kRunning, .looping⟩).step (.look addr) = done := by
    rw [step, onPool_thread (OrdMap.find?_insert_self _ _ _), setWorker_setWorker]
    exact setWorker_self present
  change ((e.step (.pop addr)).step (.finish addr)).step (.look addr) = _
  rw [taken, finished, back]

/-- A thread at its `POP` can serve all that is queued. -/
theorem serve_all {e : Executor α} {addr : Nat}
    (present : e.executorThreads.workers.find? addr = some ⟨.kRunning, .working .popping⟩)
    (queue : List α) (queued : e.rpcQueue = queue) :
    run step e (queue.flatMap fun _ => lap addr) =
      { e with
        rpcQueue := []
        popped := e.popped ++ queue
        handled := e.handled ++ queue } := by
  induction queue generalizing e with
  | nil =>
      rw [List.flatMap_nil, run_nil, List.append_nil, List.append_nil, ← queued]
  | cons x rest ih =>
      have inOne (all : List α) : all ++ [x] ++ rest = all ++ x :: rest :=
        List.append_assoc all [x] rest
      have next := ih (e := { e with
        rpcQueue := rest, popped := e.popped ++ [x], handled := e.handled ++ [x] }) present rfl
      rw [List.flatMap_cons, run_append, run_lap present queued, next]
      simp only [inOne]

/-- With one live thread, the threads can bring everything to its end. -/
theorem Live.serves {e : Executor α} {addr : Nat} (live : Live e addr) :
    ∃ more : List (Action α), (∀ a ∈ more, a.OfThread) ∧
      let done := run step e more
      done.rpcQueue = [] ∧ done.inHand = [] ∧ done.dispatched = e.dispatched := by
  obtain ⟨keys, free, _, dispatched, alive⟩ := hand_in e
  set handed := run step e (keys.map .finish)
  obtain ⟨looks, pops⟩ := (alive addr live).pops free
  set popping := handed.setWorker addr ⟨.kRunning, .working .popping⟩
  have present : popping.executorThreads.workers.find? addr =
      some ⟨.kRunning, .working .popping⟩ := OrdMap.find?_insert_self _ _ _
  refine ⟨keys.map .finish ++ (List.replicate looks (.look addr) ++
    popping.rpcQueue.flatMap fun _ => lap addr), ?_, ?_⟩
  · intro a inside
    rcases List.mem_append.mp inside with finishes | inside
    · obtain ⟨key, _, rfl⟩ := List.mem_map.mp finishes
      trivial
    · rcases List.mem_append.mp inside with looks | laps
      · rw [List.eq_of_mem_replicate looks]
        trivial
      · obtain ⟨x, _, round⟩ := List.mem_flatMap.mp laps
        simp only [lap, List.mem_cons, List.not_mem_nil, or_false] at round
        rcases round with rfl | rfl | rfl <;> trivial
  · rw [run_append, run_append]
    change let done := run step (run step handed _) _
      done.rpcQueue = [] ∧ done.inHand = [] ∧ done.dispatched = e.dispatched
    rw [pops, serve_all present _ rfl]
    refine ⟨rfl, ?_, dispatched⟩
    refine inHand_eq_nil_iff.mpr fun key x handling => ?_
    obtain ⟨worker, held, working⟩ := workAt_eq_some.mp handling
    have here : popping.executorThreads.workers.find? key = some worker := held
    rw [find?_setWorker] at here
    split at here
    · cases here
      cases working
    · exact inHand_eq_nil_iff.mp free key x (workAt_eq_some.mpr ⟨worker, here, working⟩)

/-- At any time after the start, while threads are only adjusted, the threads that are
there can bring everything that was dispatched to its end, without the operation of the
pool that is running going on. -/
theorem always_served {service : MonitorTaskService} {e : Executor α}
    (initial : init service = some e) (valid : e.conf.Valid) {before after : List (Action α)}
    {ret : Option Int32} (ready : (run step e before).executorThreads.control = .idle ret)
    (serves : Along step Serves e (before ++ .start :: after)) :
    let now := run step e (before ++ .start :: after)
    ∃ more, (∀ a ∈ more, a.OfThread) ∧
      let done := run step now more
      done.rpcQueue = [] ∧ done.inHand = [] ∧ done.handled.Perm now.dispatched := by
  intro now
  obtain ⟨early, starts, late⟩ := along_append.mp serves
  have ⟨configured, kept⟩ := Along.invariant
    (P := fun e : Executor α => Configured e ∧ ThreadPool.Kept e.executorThreads)
    (fun e a both serves => ⟨both.1.step a, kept_step both.1 both.2 serves⟩)
    ⟨configured_of_init initial valid, kept_of_init initial⟩ early
  have started : Running ((run step e before).step .start) :=
    ⟨configured.step .start, kept_step configured kept starts, started_start ready⟩
  have running : Running now := by
    have all := Along.invariant (P := Running) (fun e a running serves => running.step serves)
      started late
    rwa [← run_cons, ← run_append] at all
  obtain ⟨addr, live⟩ := running.live
  obtain ⟨more, ofThread, queue, free, dispatched⟩ := live.serves
  refine ⟨more, ofThread, queue, free, ?_⟩
  have accounted := accounted_run initial ((before ++ .start :: after) ++ more)
  rw [run_append] at accounted
  rw [← dispatched]
  refine accounted.drained queue ?_
  exact (Multiset.coe_eq_zero _).mpr (List.map_eq_nil_iff.mp free)

theorem always_served_adjusted :
    ∃ more, (run step (run step untouched (.create 1 :: .start :: adjusted)) more).handled.Perm
      [7, 8] := by
  have serves : Along step Serves untouched ([.create 1] ++ .start :: adjusted) := by
    refine ⟨⟨by decide, ?_⟩, ⟨by decide, ?_⟩, ⟨by decide, ?_⟩, ⟨by decide, ?_⟩,
      ⟨by decide, ?_⟩, ⟨by decide, ?_⟩, trivial⟩
    all_goals exact ⟨(fun stop => by cases stop), (fun join => by cases join)⟩
  obtain ⟨more, _, _, _, perm⟩ := @always_served Nat _ _ (rfl : init twoThreads = some untouched)
    ⟨by decide, by decide, by decide, by decide⟩ _ _ none rfl serves
  exact ⟨more, perm⟩

end Executor

end Heracles.Rpc
