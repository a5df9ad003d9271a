import Heracles.Base.OrdMap
import Heracles.Base.Runs

/-!
Thread pools.

A pool keeps its threads by the address of the thread object, each with a status that
the pool writes and the thread reads; a thread that sees `kTerminating` leaves its
loop, writes `kDead` and returns. The operations of the pool are called one at a
time, but the threads run between any two of their moves: `Control` says where the
operation is. A graceful stop of one thread waits for ten seconds, so its wait ends
with the thread or with a time-out, whichever the run has.

What the thread's loop does is a parameter: `ω` is the work in progress in its body.
-/

namespace Heracles.Utils

open Heracles.Base

inductive ThreadStatus where
  | kInit
  | kRunning
  | kSuspend
  | kTerminating
  | kDead
  deriving DecidableEq, Repr

/-- How far a thread is. -/
inductive Thread (ω : Type) where
  /-- In `callable_wrapper`, before the runnable. -/
  | waiting
  /-- Before the tests at the head of the runnable's loop. -/
  | looping
  /-- In the body of the loop. -/
  | working (w : ω)
  /-- Behind the loop. -/
  | leaving
  /-- The runnable has returned. -/
  | finished
  deriving DecidableEq

/-- A thread with its `ThreadObj`. -/
structure Worker (ω : Type) where
  status : ThreadStatus
  thread : Thread ω
  deriving DecidableEq

namespace Worker

variable {ω : Type}

/-- The moves of a thread: to read or write its status, to go on with the body of its
loop, to come to its end, or to break out of it. -/
inductive Move (ω : Type) where
  | look (first : ω)
  | body (next : ω)
  | back
  | quit

/-- The tests of `callable_wrapper` and of the head of the loop, and what is behind it;
`first` is what the body begins with. -/
def look (worker : Worker ω) (first : ω) : Worker ω :=
  match worker.thread with
  | .waiting => if worker.status = .kInit then worker else { worker with thread := .looping }
  | .looping =>
      if worker.status = .kTerminating then { worker with thread := .leaving }
      else if worker.status = .kSuspend then worker
      else { worker with thread := .working first }
  | .leaving => ⟨.kDead, .finished⟩
  | .working _ => worker
  | .finished => worker

/-- A move within the body or out of it. -/
def fromBody (worker : Worker ω) (after : Thread ω) : Worker ω :=
  match worker.thread with
  | .working _ => { worker with thread := after }
  | _ => worker

def move (worker : Worker ω) : Move ω → Worker ω
  | .look first => worker.look first
  | .body next => worker.fromBody (.working next)
  | .back => worker.fromBody .looping
  | .quit => worker.fromBody .leaving

/-- A move changes nothing, or ends a thread that is behind its loop, or leaves the
status alone; it gets behind the loop only by `kTerminating` or by breaking out. -/
theorem move_cases (worker : Worker ω) (move : Move ω) :
    worker.move move = worker ∨
      (worker.thread = .leaving ∧ worker.move move = ⟨.kDead, .finished⟩) ∨
      ((worker.move move).status = worker.status ∧ (worker.move move).thread ≠ .finished ∧
        worker.thread ≠ .finished ∧
        ((worker.move move).thread = .leaving → worker.status = .kTerminating ∨ move = .quit)) := by
  obtain ⟨status, thread⟩ := worker
  cases move with
  | look first =>
      cases thread with
      | waiting => cases status <;> simp [Worker.move, look]
      | looping => cases status <;> simp [Worker.move, look]
      | leaving => exact Or.inr (Or.inl ⟨rfl, rfl⟩)
      | working w => exact Or.inl rfl
      | finished => exact Or.inl rfl
  | body next => cases thread <;> simp [Worker.move, fromBody]
  | back => cases thread <;> simp [Worker.move, fromBody]
  | quit => cases thread <;> simp [Worker.move, fromBody]

theorem move_finished {worker : Worker ω} (ended : worker.thread = .finished) (move : Move ω) :
    worker.move move = worker := by
  rcases worker.move_cases move with same | ⟨leaving, _⟩ | ⟨_, _, running, _⟩
  · exact same
  · rw [ended] at leaving
    cases leaving
  · exact absurd ended running

end Worker

/-- The loop of `reduce_task`: how many threads are to go, the tries left, and the size
it began with. -/
structure Reduce where
  num : Nat
  maxTry : Nat
  currsize : Nat
  deriving DecidableEq, Repr

/-- Where the operation of the pool is. -/
inductive Control where
  /-- None is running; the last one returned this, if it returns an `int`. -/
  | idle (ret : Option Int32)
  /-- `init` with this many threads still to create. -/
  | initializing (left : Nat)
  /-- `spawn_task`, likewise. -/
  | spawning (left : Nat)
  /-- At the head of the inner loop of `reduce_task`. -/
  | reducing (r : Reduce)
  /-- In `try_join_for` of `graceful_stop`. -/
  | joining (r : Reduce) (worker : Nat) (oldStatus : ThreadStatus)
  /-- Behind the test of `graceful_stop`, which has failed. -/
  | restoring (r : Reduce) (worker : Nat) (oldStatus : ThreadStatus)
  /-- At the head of the loop of `graceful_stop_tasks`. -/
  | draining
  /-- At the head of the loop of `join_tasks`. -/
  | joiningAll
  deriving DecidableEq

/-- The thread that `graceful_stop` is at, and its status before. -/
def Control.target : Control → Option (Nat × ThreadStatus)
  | .joining _ worker oldStatus => some (worker, oldStatus)
  | .restoring _ worker oldStatus => some (worker, oldStatus)
  | _ => none

structure ThreadPool (ω : Type) where
  poolSize : UInt32
  workers : OrdMap Nat (Worker ω)
  control : Control

namespace ThreadPool

variable {ω : Type}

def kMaxiumThreadPoolSize : UInt32 := 65535

/-- The constructor. -/
def new (poolSize : UInt32) : ThreadPool ω := ⟨poolSize, .empty, .idle none⟩

/-- `workers_.size()`. -/
def size (pool : ThreadPool ω) : Nat := pool.workers.entries.length

def getPoolSize (pool : ThreadPool ω) : UInt32 := UInt32.ofNat pool.size

/-! ### The operations -/

inductive Call where
  | initThreads (poolSize : UInt32)
  | startThreads
  | suspendThreads
  | immediateStopThreads
  | resizeThreads (poolSize : UInt32)
  | gracefulStopThreads
  | joinThreads
  deriving DecidableEq, Repr

/-- Begins `init`, behind the check of `init_threads`. -/
def initThreads (pool : ThreadPool ω) (poolSize : UInt32) : ThreadPool ω :=
  let poolSize := if poolSize = 0 ∨ kMaxiumThreadPoolSize < poolSize then 1 else poolSize
  { pool with poolSize := poolSize, control := .initializing poolSize.toNat }

/-- The loops that write one status to all threads. -/
def setAll (pool : ThreadPool ω) (status : ThreadStatus) : ThreadPool ω :=
  { pool with workers := pool.workers.mapVal fun worker => { worker with status := status } }

/-- An operation returns. -/
def returns (pool : ThreadPool ω) (ret : Option Int32) : ThreadPool ω :=
  { pool with control := .idle ret }

def startTasks (pool : ThreadPool ω) : ThreadPool ω := (pool.setAll .kRunning).returns none

def suspendTasks (pool : ThreadPool ω) : ThreadPool ω := (pool.setAll .kSuspend).returns none

def immediateStopTasks (pool : ThreadPool ω) : ThreadPool ω :=
  { (pool.setAll .kTerminating).returns none with poolSize := 0 }

/-- Begins `resize_thread_pool`. The difference of an unsigned number and a size is
taken as an `int`. -/
def resizeThreadPool (pool : ThreadPool ω) (num : UInt32) : ThreadPool ω :=
  let diff := Int32.ofInt (num.toNat - pool.size)
  if diff = 0 then pool.returns (some 0)
  else if 0 < diff then { pool with control := .spawning diff.toInt.toNat }
  else { pool with control := .reducing ⟨diff.toInt.natAbs, 50, pool.size⟩ }

/-- Begins `graceful_stop_tasks`. -/
def gracefulStopTasks (pool : ThreadPool ω) : ThreadPool ω :=
  { pool.setAll .kTerminating with control := .draining }

/-- Begins `join_tasks`. -/
def joinTasks (pool : ThreadPool ω) : ThreadPool ω := { pool with control := .joiningAll }

def call (pool : ThreadPool ω) : Call → ThreadPool ω
  | .initThreads poolSize => pool.initThreads poolSize
  | .startThreads => pool.startTasks
  | .suspendThreads => pool.suspendTasks
  | .immediateStopThreads => pool.immediateStopTasks
  | .resizeThreads poolSize => pool.resizeThreadPool poolSize
  | .gracefulStopThreads => pool.gracefulStopTasks
  | .joinThreads => pool.joinTasks

/-- A thread is created, with its object at an address that is not in use. `spawn_task`
starts it at once. -/
def create (pool : ThreadPool ω) (addr : Nat) : ThreadPool ω :=
  if (pool.workers.find? addr).isSome then pool
  else
    match pool.control with
    | .initializing left =>
        { pool with
          workers := pool.workers.insert addr ⟨.kInit, .waiting⟩
          control := if left ≤ 1 then .idle none else .initializing (left - 1) }
    | .spawning left =>
        { poolSize := pool.poolSize + 1
          workers := pool.workers.insert addr ⟨.kRunning, .waiting⟩
          control := if left ≤ 1 then .idle (some 0) else .spawning (left - 1) }
    | _ => pool

/-- The number of threads that are gone. -/
def gone (pool : ThreadPool ω) (r : Reduce) : Nat := r.currsize - pool.size

/-- `reduce_task` returns. -/
def reduced (pool : ThreadPool ω) (r : Reduce) : ThreadPool ω :=
  pool.returns (some (if r.num ≤ pool.gone r then 0 else -1))

/-- The tests behind `graceful_stop` in the loop of `reduce_task`. -/
def afterStop (pool : ThreadPool ω) (r : Reduce) : ThreadPool ω :=
  if r.maxTry - 1 = 0 then pool.reduced r
  else if r.num ≤ pool.gone r then pool.reduced r
  else { pool with control := .reducing { r with maxTry := r.maxTry - 1 } }

/-- The status of one thread is written. -/
def setStatus (pool : ThreadPool ω) (addr : Nat) (worker : Worker ω) (status : ThreadStatus) :
    ThreadPool ω :=
  { pool with workers := pool.workers.insert addr { worker with status := status } }

/-- `graceful_stop` up to its join. -/
def gracefulStop (pool : ThreadPool ω) (r : Reduce) (addr : Nat) : ThreadPool ω :=
  match pool.workers.find? addr with
  | none => pool.afterStop r
  | some worker =>
      { pool.setStatus addr worker .kTerminating with control := .joining r addr worker.status }

/-- The test of `graceful_stop`, when the join has ended. -/
def joined (pool : ThreadPool ω) (r : Reduce) (addr : Nat) (oldStatus : ThreadStatus) :
    ThreadPool ω :=
  match pool.workers.find? addr with
  | none => pool.afterStop r
  | some worker =>
      if worker.status ≠ .kDead then { pool with control := .restoring r addr oldStatus }
      else
        ThreadPool.afterStop
          { pool with poolSize := pool.poolSize - 1, workers := pool.workers.erase addr } r

/-- `graceful_stop` gives up. -/
def restored (pool : ThreadPool ω) (r : Reduce) (addr : Nat) (oldStatus : ThreadStatus) :
    ThreadPool ω :=
  match pool.workers.find? addr with
  | none => pool.afterStop r
  | some worker => (pool.setStatus addr worker oldStatus).afterStop r

/-- The thread at an address has returned. -/
def isFinished (pool : ThreadPool ω) (addr : Nat) : Bool :=
  match pool.workers.find? addr with
  | none => true
  | some worker =>
      match worker.thread with
      | .finished => true
      | _ => false

/-- The next move of the operation, unless it is to create a thread. It waits where it
joins a thread that has not finished. -/
def advance (pool : ThreadPool ω) : ThreadPool ω :=
  match pool.control with
  | .reducing r =>
      match pool.workers.entries with
      | [] => pool.reduced r
      | (addr, _) :: _ => pool.gracefulStop r addr
  | .joining r addr oldStatus =>
      if pool.isFinished addr then pool.joined r addr oldStatus else pool
  | .restoring r addr oldStatus => pool.restored r addr oldStatus
  | .draining =>
      match pool.workers.entries with
      | [] => pool.returns none
      | (addr, _) :: _ =>
          if pool.isFinished addr then
            { pool with poolSize := pool.poolSize - 1, workers := pool.workers.erase addr }
          else pool
  | .joiningAll =>
      match pool.workers.entries with
      | [] => pool.returns none
      | (addr, _) :: _ =>
          if pool.isFinished addr then { pool with workers := pool.workers.erase addr } else pool
  | _ => pool

/-- `try_join_for` has waited for its ten seconds. -/
def timeout (pool : ThreadPool ω) : ThreadPool ω :=
  match pool.control with
  | .joining r addr oldStatus => pool.joined r addr oldStatus
  | _ => pool

/-- A thread moves. -/
def moveThread (pool : ThreadPool ω) (addr : Nat) (move : Worker.Move ω) : ThreadPool ω :=
  match pool.workers.find? addr with
  | none => pool
  | some worker => { pool with workers := pool.workers.insert addr (worker.move move) }

inductive Action (ω : Type) where
  | call (c : Call)
  | create (addr : Nat)
  | advance
  | timeout
  | thread (addr : Nat) (move : Worker.Move ω)

/-- One step. An operation is called when no other is running. -/
def step (pool : ThreadPool ω) : Action ω → ThreadPool ω
  | .call c =>
      match pool.control with
      | .idle _ => pool.call c
      | _ => pool
  | .create addr => pool.create addr
  | .advance => pool.advance
  | .timeout => pool.timeout
  | .thread addr move => pool.moveThread addr move

/-! ### What an operation leaves alone -/

@[simp] theorem workers_return (pool : ThreadPool ω) (ret : Option Int32) :
    (pool.returns ret).workers = pool.workers := rfl

@[simp] theorem workers_resize (pool : ThreadPool ω) (num : UInt32) :
    (pool.resizeThreadPool num).workers = pool.workers := by
  unfold resizeThreadPool
  dsimp only
  split
  · rfl
  · split
    · rfl
    · rfl

@[simp] theorem workers_reduced (pool : ThreadPool ω) (r : Reduce) :
    (pool.reduced r).workers = pool.workers := rfl

@[simp] theorem workers_afterStop (pool : ThreadPool ω) (r : Reduce) :
    (pool.afterStop r).workers = pool.workers := by
  unfold afterStop
  split
  · rfl
  · split
    · rfl
    · rfl

@[simp] theorem target_afterStop (pool : ThreadPool ω) (r : Reduce) :
    (pool.afterStop r).control.target = none := by
  unfold afterStop
  split
  · rfl
  · split
    · rfl
    · rfl

/-- Behind a stop the loop of `reduce_task` returns or begins again. -/
theorem control_afterStop (pool : ThreadPool ω) (r : Reduce) :
    (∃ ret, (pool.afterStop r).control = .idle ret) ∨
      (r.maxTry - 1 ≠ 0 ∧ pool.gone r < r.num ∧
        (pool.afterStop r).control = .reducing { r with maxTry := r.maxTry - 1 }) := by
  unfold afterStop
  split
  · exact Or.inl ⟨_, rfl⟩
  · next left =>
      split
      · exact Or.inl ⟨_, rfl⟩
      · next more => exact Or.inr ⟨left, Nat.lt_of_not_le more, rfl⟩

theorem find?_of_entries {pool : ThreadPool ω} {addr : Nat} {worker : Worker ω}
    {rest : List (Nat × Worker ω)} (first : pool.workers.entries = (addr, worker) :: rest) :
    pool.workers.find? addr = some worker :=
  OrdMap.mem_entries_iff.mp (first ▸ List.mem_cons_self)

theorem isFinished_iff {pool : ThreadPool ω} {addr : Nat} {worker : Worker ω}
    (present : pool.workers.find? addr = some worker) :
    pool.isFinished addr = true ↔ worker.thread = .finished := by
  simp only [isFinished, present]
  cases worker.thread with
  | finished => exact iff_of_true rfl rfl
  | _ => exact iff_of_false Bool.false_ne_true (fun h => by cases h)

/-! ### What a step can do -/

/-- The steps one by one, each with the place of the operation at which it is made. -/
inductive Next (pool : ThreadPool ω) : Action ω → ThreadPool ω → Prop where
  | same (a : Action ω) : Next pool a pool
  | called (c : Call) {ret : Option Int32} (idle : pool.control = .idle ret) :
      Next pool (.call c) (pool.call c)
  | initialized {addr left : Nat} (fresh : pool.workers.find? addr = none)
      (here : pool.control = .initializing left) :
      Next pool (.create addr) { pool with
        workers := pool.workers.insert addr ⟨.kInit, .waiting⟩
        control := if left ≤ 1 then .idle none else .initializing (left - 1) }
  | spawned {addr left : Nat} (fresh : pool.workers.find? addr = none)
      (here : pool.control = .spawning left) :
      Next pool (.create addr)
        { poolSize := pool.poolSize + 1
          workers := pool.workers.insert addr ⟨.kRunning, .waiting⟩
          control := if left ≤ 1 then .idle (some 0) else .spawning (left - 1) }
  | emptied {r : Reduce} (here : pool.control = .reducing r) (none : pool.workers.entries = []) :
      Next pool .advance (pool.reduced r)
  | stopping {r : Reduce} {addr : Nat} {worker : Worker ω} {rest : List (Nat × Worker ω)}
      (here : pool.control = .reducing r) (first : pool.workers.entries = (addr, worker) :: rest) :
      Next pool .advance
        { pool.setStatus addr worker .kTerminating with control := .joining r addr worker.status }
  | failed {a : Action ω} {r : Reduce} {addr : Nat} {old : ThreadStatus} {worker : Worker ω}
      (here : pool.control = .joining r addr old)
      (present : pool.workers.find? addr = some worker) (alive : worker.status ≠ .kDead)
      (ended : worker.thread = .finished ∨ a = .timeout) :
      Next pool a { pool with control := .restoring r addr old }
  | removed {a : Action ω} {r : Reduce} {addr : Nat} {old : ThreadStatus} {worker : Worker ω}
      (here : pool.control = .joining r addr old)
      (present : pool.workers.find? addr = some worker) (dead : worker.status = .kDead) :
      Next pool a (ThreadPool.afterStop
        { pool with poolSize := pool.poolSize - 1, workers := pool.workers.erase addr } r)
  | restored {r : Reduce} {addr : Nat} {old : ThreadStatus} {worker : Worker ω}
      (here : pool.control = .restoring r addr old)
      (present : pool.workers.find? addr = some worker) :
      Next pool .advance ((pool.setStatus addr worker old).afterStop r)
  | missed {a : Action ω} {r : Reduce} {addr : Nat} {old : ThreadStatus}
      (here : pool.control = .joining r addr old ∨ pool.control = .restoring r addr old)
      (absent : pool.workers.find? addr = none) : Next pool a (pool.afterStop r)
  | returned (here : pool.control = .draining ∨ pool.control = .joiningAll)
      (none : pool.workers.entries = []) : Next pool .advance (pool.returns Option.none)
  | joined {addr : Nat} {worker : Worker ω} {rest : List (Nat × Worker ω)} {poolSize : UInt32}
      (here : pool.control = .draining ∨ pool.control = .joiningAll)
      (first : pool.workers.entries = (addr, worker) :: rest) (ended : worker.thread = .finished) :
      Next pool .advance { pool with poolSize := poolSize, workers := pool.workers.erase addr }
  | moved {addr : Nat} {worker : Worker ω} (move : Worker.Move ω)
      (present : pool.workers.find? addr = some worker) :
      Next pool (.thread addr move)
        { pool with workers := pool.workers.insert addr (worker.move move) }

theorem joined_next {pool : ThreadPool ω} {a : Action ω} {r : Reduce} {addr : Nat}
    {old : ThreadStatus} (here : pool.control = .joining r addr old)
    (ended : pool.isFinished addr = true ∨ a = .timeout) :
    Next pool a (pool.joined r addr old) := by
  unfold ThreadPool.joined
  split
  · next absent => exact .missed (Or.inl here) absent
  · next worker present =>
      rw [isFinished_iff present] at ended
      split
      · next alive => exact .failed here present alive ended
      · next dead => exact .removed here present (not_not.mp dead)

theorem create_next (pool : ThreadPool ω) (addr : Nat) :
    Next pool (.create addr) (pool.create addr) := by
  unfold create
  split
  · exact .same _
  · next fresh =>
      have absent := Option.not_isSome_iff_eq_none.mp fresh
      split
      · next here => exact .initialized absent here
      · next here => exact .spawned absent here
      · exact .same _

theorem advance_next (pool : ThreadPool ω) : Next pool .advance pool.advance := by
  unfold advance
  split
  · next here =>
      split
      · next none => exact .emptied here none
      · next first =>
          rw [gracefulStop, find?_of_entries first]
          exact .stopping here first
  · next here =>
      split
      · next ended => exact joined_next here (Or.inl ended)
      · exact .same _
  · next here =>
      unfold ThreadPool.restored
      split
      · next absent => exact .missed (Or.inr here) absent
      · next present => exact .restored here present
  · next here =>
      split
      · next none => exact .returned (Or.inl here) none
      · next first =>
          split
          · next ended =>
              exact .joined (Or.inl here) first ((isFinished_iff (find?_of_entries first)).mp ended)
          · exact .same _
  · next here =>
      split
      · next none => exact .returned (Or.inr here) none
      · next first =>
          split
          · next ended =>
              exact .joined (Or.inr here) first ((isFinished_iff (find?_of_entries first)).mp ended)
          · exact .same _
  · exact .same _

theorem step_next (pool : ThreadPool ω) (a : Action ω) : Next pool a (pool.step a) := by
  cases a with
  | call c =>
      simp only [step]
      split
      · next idle => exact .called c idle
      · exact .same _
  | create addr => exact create_next pool addr
  | advance => exact advance_next pool
  | timeout =>
      simp only [step, timeout]
      split
      · next here => exact joined_next here (Or.inr rfl)
      · exact .same _
  | thread addr move =>
      simp only [step, moveThread]
      split
      · exact .same _
      · next worker present => exact .moved move present

end ThreadPool

end Heracles.Utils
