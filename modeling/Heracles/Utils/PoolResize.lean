import Heracles.Utils.PoolStops

/-!
Resizing a pool.

A resize takes the first thread, by its address, asks it to leave and waits, at most
fifty times. Three things are said of a pool that is only started and resized: without
time-outs every thread goes round its loop but the one that is waited for
(`none_left_behind`); whichever waits time out, the thread at the last address is never
asked to leave (`last_thread_serves`); and the size and the answer of one resize
(`resize_result`).
-/

namespace Heracles.Utils

open Heracles.Base

variable {ω : Type}

/-- The thread goes round its loop and has not been told to leave it. -/
structure Worker.Runs (worker : Worker ω) : Prop where
  told : worker.status ≠ .kTerminating
  dead : worker.status ≠ .kDead
  leaving : worker.thread ≠ .leaving
  finished : worker.thread ≠ .finished

/-- The thread takes on work, when it has been started. -/
structure Worker.Serves (worker : Worker ω) : Prop where
  status : worker.status = .kInit ∨ worker.status = .kRunning
  leaving : worker.thread ≠ .leaving
  finished : worker.thread ≠ .finished

theorem Worker.Serves.move {worker : Worker ω} (serves : worker.Serves) {move : Move ω}
    (stays : move ≠ .quit) : (worker.move move).Serves := by
  rcases worker.move_cases move with same | ⟨leaving, _⟩ | ⟨status, ended, _, left⟩
  · rw [same]
    exact serves
  · exact absurd leaving serves.leaving
  · refine ⟨status ▸ serves.status, fun leaving => ?_, ended⟩
    rcases left leaving with told | quit
    · rcases serves.status with here | here
      · rw [here] at told
        cases told
      · rw [here] at told
        cases told
    · exact stays quit

theorem Worker.Runs.move {worker : Worker ω} (runs : worker.Runs) {move : Move ω}
    (stays : move ≠ .quit) : (worker.move move).Runs := by
  rcases worker.move_cases move with same | ⟨leaving, _⟩ | ⟨status, ended, _, left⟩
  · rw [same]
    exact runs
  · exact absurd leaving runs.leaving
  · refine ⟨status ▸ runs.told, status ▸ runs.dead, fun leaving => ?_, ended⟩
    rcases left leaving with told | quit
    · exact runs.told told
    · exact stays quit

namespace ThreadPool

/-- What the pool of an executor is used for once it is initialised: it is started and
resized, to at least one thread, and no thread breaks out of its loop. -/
def Resizes : Action ω → Prop
  | .call .startThreads => True
  | .call (.resizeThreads num) => 1 ≤ num.toNat ∧ num.toNat < 2 ^ 31
  | .call _ => False
  | .thread _ move => move ≠ .quit
  | _ => True

theorem KeepsThreads.of_resizes {a : Action ω} (resizes : Resizes a) : KeepsThreads a := by
  cases a with
  | call c => cases c <;> trivial
  | _ => trivial

/-! ### Without time-outs -/

/-- All threads go round their loops, but the one that is being stopped, which has not
yet returned or has become `kDead`. -/
structure Intact (pool : ThreadPool ω) : Prop where
  calm : Control.stopsAll pool.control = false
  waits : ∀ r addr old, pool.control ≠ .restoring r addr old
  others : ∀ {addr : Nat} {worker : Worker ω}, pool.workers.find? addr = some worker →
    (∀ r old, pool.control ≠ .joining r addr old) → worker.Runs
  stopped : ∀ {r : Reduce} {addr : Nat} {old : ThreadStatus} {worker : Worker ω},
    pool.control = .joining r addr old → pool.workers.find? addr = some worker →
    (worker.thread ≠ .finished ∧ worker.status = .kTerminating) ∨
      (worker.thread = .finished ∧ worker.status = .kDead)

/-- Outside `graceful_stop` it is enough that all threads go round their loops. -/
theorem Intact.of_runs {pool : ThreadPool ω} (calm : Control.stopsAll pool.control = false)
    (free : pool.control.target = none)
    (runs : ∀ {addr : Nat} {worker : Worker ω}, pool.workers.find? addr = some worker →
      worker.Runs) : Intact pool where
  calm := calm
  waits := fun r addr old here => by
    rw [here] at free
    cases free
  others := fun present _ => runs present
  stopped := fun here => by
    rw [here] at free
    cases free

/-- Outside `graceful_stop` all threads go round their loops. -/
theorem Intact.runs {pool : ThreadPool ω} (intact : Intact pool)
    (free : pool.control.target = none) {addr : Nat} {worker : Worker ω}
    (present : pool.workers.find? addr = some worker) : worker.Runs :=
  intact.others present fun r old here => by
    rw [here] at free
    cases free

theorem Intact.next {pool after : ThreadPool ω} {a : Action ω} (intact : Intact pool)
    (next : Next pool a after) (resizes : Resizes a) (patient : a ≠ .timeout) :
    Intact after := by
  have calm := next.stopsAll (.of_resizes resizes) intact.calm
  have fresh (status : ThreadStatus) (told : status ≠ .kTerminating) (dead : status ≠ .kDead) :
      (⟨status, .waiting⟩ : Worker ω).Runs :=
    ⟨told, dead, (fun h => by cases h), (fun h => by cases h)⟩
  cases next with
  | same a => exact intact
  | @called c ret idle =>
      have free : pool.control.target = none := by
        rw [idle]
        rfl
      refine .of_runs calm (call_cases pool c).1 fun {addr worker} present => ?_
      cases c with
      | startThreads =>
          change (OrdMap.mapVal _ pool.workers).find? addr = some worker at present
          rw [OrdMap.find?_mapVal] at present
          obtain ⟨before, held, rfl⟩ := Option.map_eq_some_iff.mp present
          have runs := intact.runs free held
          exact ⟨(fun h => by cases h), (fun h => by cases h), runs.leaving, runs.finished⟩
      | resizeThreads num =>
          exact intact.runs free (workers_resize pool num ▸ present)
      | initThreads num => cases resizes
      | suspendThreads => cases resizes
      | immediateStopThreads => cases resizes
      | gracefulStopThreads => cases resizes
      | joinThreads => cases resizes
  | initialized absent here =>
      refine .of_runs calm ?_ fun present => ?_
      · dsimp only
        split <;> rfl
      · rcases OrdMap.of_find?_insert present with ⟨_, rfl⟩ | ⟨_, held⟩
        · exact fresh _ (fun h => by cases h) (fun h => by cases h)
        · exact intact.runs (by rw [here]; rfl) held
  | spawned absent here =>
      refine .of_runs calm ?_ fun present => ?_
      · dsimp only
        split <;> rfl
      · rcases OrdMap.of_find?_insert present with ⟨_, rfl⟩ | ⟨_, held⟩
        · exact fresh _ (fun h => by cases h) (fun h => by cases h)
        · exact intact.runs (by rw [here]; rfl) held
  | emptied here none =>
      exact .of_runs calm rfl fun present => intact.runs (by rw [here]; rfl) present
  | @stopping r key other rest here first =>
      have free : pool.control.target = none := by
        rw [here]
        rfl
      refine ⟨calm, (fun _ _ _ h => by cases h), fun present apart => ?_, fun at' present => ?_⟩
      · rcases OrdMap.of_find?_insert present with ⟨rfl, _⟩ | ⟨_, held⟩
        · exact absurd rfl (apart r other.status)
        · exact intact.runs free held
      · cases at'
        rcases OrdMap.of_find?_insert present with ⟨_, rfl⟩ | ⟨apart, _⟩
        · exact Or.inl ⟨(intact.runs free (find?_of_entries first)).finished, rfl⟩
        · exact absurd rfl apart
  | failed here held alive ended =>
      rcases intact.stopped here held with ⟨running, _⟩ | ⟨_, dead⟩
      · rcases ended with ended | late
        · exact absurd ended running
        · exact absurd late patient
      · exact absurd dead alive
  | removed here held dead =>
      refine .of_runs calm (target_afterStop _ _) fun present => ?_
      rw [workers_afterStop] at present
      obtain ⟨apart, held'⟩ := OrdMap.of_find?_erase present
      refine intact.others held' fun r old at' => apart ?_
      rw [here] at at'
      cases at'
      rfl
  | restored here held => exact absurd here (intact.waits _ _ _)
  | missed here absent =>
      refine .of_runs calm (target_afterStop _ _) fun present => ?_
      rw [workers_afterStop] at present
      refine intact.others present fun r old at' => ?_
      rcases here with here | here
      · rw [here] at at'
        cases at'
        rw [absent] at present
        cases present
      · exact absurd here (intact.waits _ _ _)
  | returned here none =>
      have all := intact.calm
      rcases here with here | here <;> rw [here] at all <;> cases all
  | joined here first _ =>
      have all := intact.calm
      rcases here with here | here <;> rw [here] at all <;> cases all
  | @moved key other move held =>
      refine ⟨calm, intact.waits, fun present apart => ?_, fun at' present => ?_⟩
      · rcases OrdMap.of_find?_insert present with ⟨rfl, rfl⟩ | ⟨_, held'⟩
        · exact (intact.others held apart).move resizes
        · exact intact.others held' apart
      · rcases OrdMap.of_find?_insert present with ⟨rfl, rfl⟩ | ⟨_, held'⟩
        · rcases intact.stopped at' held with ⟨running, told⟩ | ⟨ended, dead⟩
          · rcases other.move_cases move with same | ⟨_, ended⟩ | ⟨status, ended, _, _⟩
            · rw [same]
              exact Or.inl ⟨running, told⟩
            · rw [ended]
              exact Or.inr ⟨rfl, rfl⟩
            · exact Or.inl ⟨ended, status.trans told⟩
          · rw [Worker.move_finished ended]
            exact Or.inr ⟨ended, dead⟩
        · exact intact.stopped at' held'

/-! ### How large a pool gets -/

/-- A resize compares the sizes as they are. -/
theorem resize_cases {pool : ThreadPool ω} {num : UInt32} (num31 : num.toNat < 2 ^ 31)
    (size31 : pool.size < 2 ^ 31) :
    (pool.size = num.toNat ∧ pool.resizeThreadPool num = pool.returns (some 0)) ∨
      (pool.size < num.toNat ∧ pool.resizeThreadPool num =
        { pool with control := .spawning (num.toNat - pool.size) }) ∨
      (num.toNat < pool.size ∧ pool.resizeThreadPool num =
        { pool with control := .reducing ⟨pool.size - num.toNat, 50, pool.size⟩ }) := by
  have diff : (Int32.ofInt (num.toNat - pool.size)).toInt = num.toNat - pool.size := by
    have word : Int32.size = 4294967296 := rfl
    rw [Int32.toInt_ofInt]
    exact Int.bmod_eq_of_le (by omega) (by omega)
  simp only [resizeThreadPool, ← Int32.toInt_inj, Int32.lt_iff_toInt_lt, diff, Int32.toInt_zero]
  split
  · next same => exact Or.inl ⟨by omega, rfl⟩
  · split
    · next more =>
        refine Or.inr (Or.inl ⟨by omega, ?_⟩)
        rw [show ((num.toNat : Int) - pool.size).toNat = num.toNat - pool.size by omega]
    · next less =>
        refine Or.inr (Or.inr ⟨by omega, ?_⟩)
        rw [show ((num.toNat : Int) - pool.size).natAbs = pool.size - num.toNat by omega]

/-- The number of threads that are still to be created, where threads are created. -/
def Control.creating : Control → Option Nat
  | .initializing left => some left
  | .spawning left => some left
  | _ => none

/-- The pool is at most this large, also when the threads to be created are counted. -/
structure Bounded (limit : Nat) (pool : ThreadPool ω) : Prop where
  within : pool.size ≤ limit
  room : ∀ left, Control.creating pool.control = some left → 1 ≤ left ∧ pool.size + left ≤ limit

@[simp] theorem creating_afterStop (pool : ThreadPool ω) (r : Reduce) :
    Control.creating (pool.afterStop r).control = none := by
  rcases control_afterStop pool r with ⟨ret, here⟩ | ⟨_, _, here⟩
  · rw [here]
    rfl
  · rw [here]
    rfl

/-- Where no threads are created, the bound is one on the size. -/
theorem Bounded.of_size {limit : Nat} {pool : ThreadPool ω} (small : pool.size ≤ limit)
    (away : Control.creating pool.control = none) : Bounded limit pool where
  within := small
  room := fun left here => by
    rw [away] at here
    cases here

/-- A thread is created where there is room for it. -/
theorem Bounded.create {limit : Nat} {pool after : ThreadPool ω} (bounded : Bounded limit pool)
    {left : Nat} (here : Control.creating pool.control = some left)
    (more : after.size = pool.size + 1)
    (rest : Control.creating after.control = if left ≤ 1 then none else some (left - 1)) :
    Bounded limit after := by
  obtain ⟨positive, room⟩ := bounded.room left here
  refine ⟨by omega, fun left' here' => ?_⟩
  rw [rest] at here'
  split at here'
  · cases here'
  · cases here'
    omega

/-- The action asks for no more threads than this. -/
def GrowsWithin (limit : Nat) : Action ω → Prop
  | .call (.initThreads _) => False
  | .call (.resizeThreads num) => num.toNat ≤ limit
  | _ => True

theorem GrowsWithin.of_resizes {a : Action ω} (resizes : Resizes a) :
    GrowsWithin (2 ^ 31 - 1) a := by
  cases a with
  | call c =>
      cases c with
      | resizeThreads num => exact Nat.le_sub_one_of_lt resizes.2
      | initThreads num => cases resizes
      | _ => trivial
  | _ => trivial

theorem Bounded.next {limit : Nat} {pool after : ThreadPool ω} {a : Action ω}
    (bounded : Bounded limit pool) (next : Next pool a after) (small : limit < 2 ^ 31)
    (grows : GrowsWithin limit a) : Bounded limit after := by
  have size := bounded.within
  cases next with
  | same a => exact bounded
  | @called c ret idle =>
      cases c with
      | initThreads num => cases grows
      | resizeThreads num =>
          rcases @resize_cases _ pool num (Nat.lt_of_le_of_lt grows small)
            (Nat.lt_of_le_of_lt size small) with ⟨_, same⟩ | ⟨less, spawns⟩ | ⟨_, reduces⟩
          · rw [call, same]
            exact .of_size size rfl
          · rw [call, spawns]
            refine ⟨size, fun left here => ?_⟩
            cases here
            change num.toNat ≤ limit at grows
            change 1 ≤ num.toNat - pool.size ∧ pool.size + (num.toNat - pool.size) ≤ limit
            omega
          · rw [call, reduces]
            exact .of_size size rfl
      | joinThreads => exact .of_size size rfl
      | startThreads => exact .of_size ((OrdMap.length_mapVal _ _).trans_le size) rfl
      | suspendThreads => exact .of_size ((OrdMap.length_mapVal _ _).trans_le size) rfl
      | immediateStopThreads => exact .of_size ((OrdMap.length_mapVal _ _).trans_le size) rfl
      | gracefulStopThreads => exact .of_size ((OrdMap.length_mapVal _ _).trans_le size) rfl
  | @initialized key left absent here =>
      refine bounded.create (congrArg Control.creating here)
        (OrdMap.length_insert_of_none absent _) ?_
      dsimp only
      split <;> rfl
  | @spawned key left absent here =>
      refine bounded.create (congrArg Control.creating here)
        (OrdMap.length_insert_of_none absent _) ?_
      dsimp only
      split <;> rfl
  | emptied here none => exact .of_size size rfl
  | stopping here first =>
      exact .of_size ((OrdMap.length_insert_of_some (find?_of_entries first) _).trans_le size) rfl
  | failed here held alive _ => exact .of_size size rfl
  | removed here held dead =>
      refine .of_size ?_ (creating_afterStop _ _)
      have less := OrdMap.length_erase held
      rw [ThreadPool.size, workers_afterStop]
      rw [ThreadPool.size] at size
      dsimp only
      omega
  | restored here held =>
      refine .of_size ?_ (creating_afterStop _ _)
      rw [ThreadPool.size, workers_afterStop]
      exact (OrdMap.length_insert_of_some held _).trans_le size
  | missed here absent =>
      refine .of_size ?_ (creating_afterStop _ _)
      rw [ThreadPool.size, workers_afterStop]
      exact size
  | returned here none => exact .of_size size rfl
  | joined here first _ =>
      have less := OrdMap.length_erase (find?_of_entries first)
      refine .of_size (Nat.le_of_succ_le (less.trans_le size)) ?_
      rcases here with here | here <;> rw [here] <;> rfl
  | @moved key worker move held =>
      have same := OrdMap.length_insert_of_some held (worker.move move)
      exact ⟨same.trans_le size, fun left here => by
        rw [ThreadPool.size, same]
        exact bounded.room left here⟩

/-! ### The last thread -/

/-- The loop of `reduce_task` that is running. -/
def Control.reduce : Control → Option Reduce
  | .reducing r => some r
  | .joining r _ _ => some r
  | .restoring r _ _ => some r
  | _ => none

/-- The thread at the last address serves, and no operation is at it. -/
structure LastServes (pool : ThreadPool ω) (addr : Nat) (worker : Worker ω) : Prop where
  present : pool.workers.find? addr = some worker
  serves : worker.Serves
  last : ∀ key, pool.workers.find? key ≠ none → key ≤ addr
  free : ∀ old, pool.control.target ≠ some (addr, old)

/-- A loop of `reduce_task` leaves a thread over. -/
def Leaves (pool : ThreadPool ω) : Prop :=
  ∀ r, Control.reduce pool.control = some r → r.num < r.currsize ∧ pool.gone r < r.num

theorem Leaves.two {pool : ThreadPool ω} (leaves : Leaves pool) {r : Reduce}
    (here : Control.reduce pool.control = some r) : 2 ≤ pool.size := by
  obtain ⟨fewer, more⟩ := leaves r here
  rw [gone] at more
  omega

theorem Leaves.of_none {pool : ThreadPool ω} (none : Control.reduce pool.control = none) :
    Leaves pool := fun r here => by
  rw [none] at here
  cases here

/-- The loop goes on only with threads to go. -/
theorem Leaves.afterStop {pool : ThreadPool ω} {r : Reduce} (fewer : r.num < r.currsize) :
    Leaves (pool.afterStop r) := by
  rcases control_afterStop pool r with ⟨ret, here⟩ | ⟨_, more, here⟩
  · exact .of_none (by rw [here]; rfl)
  · intro r' at'
    rw [here] at at'
    cases at'
    refine ⟨fewer, ?_⟩
    rw [gone, size, workers_afterStop]
    exact more

theorem Leaves.next {pool after : ThreadPool ω} {a : Action ω} (leaves : Leaves pool)
    (next : Next pool a after) (resizes : Resizes a) (small : pool.size < 2 ^ 31) :
    Leaves after := by
  have keeps {pool' : ThreadPool ω} (same : pool'.size = pool.size)
      (at' : Control.reduce pool'.control = Control.reduce pool.control) : Leaves pool' := by
    intro r here
    rw [gone, same]
    exact leaves r (at' ▸ here)
  cases next with
  | same a => exact leaves
  | @called c ret idle =>
      cases c with
      | startThreads => exact .of_none rfl
      | resizeThreads num =>
          rcases @resize_cases _ pool _ resizes.2 small with
            ⟨_, same⟩ | ⟨_, spawns⟩ | ⟨less, reduces⟩
          · rw [call, same]
            exact .of_none rfl
          · rw [call, spawns]
            exact .of_none rfl
          · rw [call, reduces]
            intro r here
            cases here
            have one := resizes.1
            change pool.size - num.toNat < pool.size ∧
              pool.size - pool.size < pool.size - num.toNat
            omega
      | initThreads num => cases resizes
      | suspendThreads => cases resizes
      | immediateStopThreads => cases resizes
      | gracefulStopThreads => cases resizes
      | joinThreads => cases resizes
  | initialized absent here =>
      refine .of_none ?_
      dsimp only
      split <;> rfl
  | spawned absent here =>
      refine .of_none ?_
      dsimp only
      split <;> rfl
  | emptied here none => exact .of_none rfl
  | stopping here first =>
      exact keeps (OrdMap.length_insert_of_some (find?_of_entries first) _)
        (congrArg Control.reduce here).symm
  | failed here held alive _ => exact keeps rfl (congrArg Control.reduce here).symm
  | removed here held dead => exact .afterStop (leaves _ (congrArg Control.reduce here)).1
  | restored here held => exact .afterStop (leaves _ (congrArg Control.reduce here)).1
  | missed here absent =>
      refine .afterStop (leaves _ ?_).1
      rcases here with here | here
      · exact congrArg Control.reduce here
      · exact congrArg Control.reduce here
  | returned here none => exact .of_none rfl
  | joined here first _ =>
      refine .of_none ?_
      rcases here with here | here <;> rw [here] <;> rfl
  | @moved key worker move held =>
      exact keeps (OrdMap.length_insert_of_some held (worker.move move)) rfl

/-- A new thread is the last one or leaves the last one where it is. -/
theorem LastServes.create {pool after : ThreadPool ω} {addr : Nat} {worker : Worker ω}
    (last : LastServes pool addr worker) {key : Nat} {status : ThreadStatus}
    (started : status = .kInit ∨ status = .kRunning) (absent : pool.workers.find? key = none)
    (inserted : after.workers = pool.workers.insert key ⟨status, .waiting⟩)
    (away : after.control.target = none) : ∃ addr worker, LastServes after addr worker := by
  have free (addr : Nat) (old : ThreadStatus) : after.control.target ≠ some (addr, old) := by
    rw [away]
    exact fun h => by cases h
  by_cases below : key ≤ addr
  · have apart : addr ≠ key := by
      rintro rfl
      rw [last.present] at absent
      cases absent
    refine ⟨addr, worker, ?_, last.serves, fun other present => ?_, free addr⟩
    · rw [inserted, OrdMap.find?_insert_of_ne _ _ apart]
      exact last.present
    · rw [inserted, OrdMap.find?_insert] at present
      split at present
      · next here => exact here ▸ below
      · exact last.last other present
  · refine ⟨key, _, inserted ▸ OrdMap.find?_insert_self _ _ _,
      ⟨started, (fun h => by cases h), (fun h => by cases h)⟩, fun other present => ?_, free key⟩
    rw [inserted, OrdMap.find?_insert] at present
    split at present
    · next here => exact here.le
    · exact (last.last other present).trans (Nat.le_of_not_le below)

theorem LastServes.next {pool after : ThreadPool ω} {a : Action ω} {addr : Nat}
    {worker : Worker ω} (last : LastServes pool addr worker) (next : Next pool a after)
    (resizes : Resizes a) (leaves : Leaves pool)
    (calm : Control.stopsAll pool.control = false) :
    ∃ addr worker, LastServes after addr worker := by
  have away {control : Control} (none : control.target = none) (addr : Nat) (old : ThreadStatus) :
      control.target ≠ some (addr, old) := by
    rw [none]
    exact fun h => by cases h
  -- An operation at another thread leaves the last one alone.
  have elsewhere {key : Nat} {other : Worker ω} (held : pool.workers.find? key = some other)
      (apart : addr ≠ key) (other' : Worker ω) :
      (pool.workers.insert key other').find? addr = some worker ∧
        ∀ k, (pool.workers.insert key other').find? k ≠ none → k ≤ addr := by
    refine ⟨(OrdMap.find?_insert_of_ne _ _ apart).trans last.present, fun k present => ?_⟩
    rw [OrdMap.find?_insert] at present
    split at present
    · next here =>
        refine last.last k ?_
        rw [here, held]
        exact Option.some_ne_none other
    · exact last.last k present
  cases next with
  | same a => exact ⟨addr, worker, last⟩
  | @called c ret idle =>
      have free := away (call_cases pool c).1 addr
      cases c with
      | startThreads =>
          refine ⟨addr, { worker with status := .kRunning }, ?_,
            ⟨Or.inr rfl, last.serves.leaving, last.serves.finished⟩, fun key present => ?_, free⟩
          · exact (OrdMap.find?_mapVal _ _ _).trans (by rw [last.present]; rfl)
          · have all : (pool.call .startThreads).workers = pool.workers.mapVal
                fun worker => { worker with status := .kRunning } := rfl
            rw [all, OrdMap.find?_mapVal, ne_eq, Option.map_eq_none_iff] at present
            exact last.last key present
      | resizeThreads num =>
          have same : (pool.call (.resizeThreads num)).workers = pool.workers :=
            workers_resize pool num
          refine ⟨addr, worker, same ▸ last.present, last.serves, ?_, free⟩
          rw [same]
          exact last.last
      | initThreads num => cases resizes
      | suspendThreads => cases resizes
      | immediateStopThreads => cases resizes
      | gracefulStopThreads => cases resizes
      | joinThreads => cases resizes
  | initialized absent here =>
      refine last.create (Or.inl rfl) absent rfl ?_
      dsimp only
      split <;> rfl
  | spawned absent here =>
      refine last.create (Or.inr rfl) absent rfl ?_
      dsimp only
      split <;> rfl
  | emptied here none => exact ⟨addr, worker, last.present, last.serves, last.last, away rfl addr⟩
  | @stopping r key other rest here first =>
      have apart : addr ≠ key := by
        rintro rfl
        have many := leaves.two (congrArg Control.reduce here)
        obtain ⟨key, v, apart, present⟩ := OrdMap.exists_other_key many addr
        have below := last.last key (by rw [present]; exact Option.some_ne_none v)
        exact apart (Nat.le_antisymm below (OrdMap.least_of_entries first present))
      obtain ⟨present, bound⟩ := elsewhere (find?_of_entries first) apart
        { other with status := .kTerminating }
      refine ⟨addr, worker, present, last.serves, bound, fun old at' => ?_⟩
      cases at'
      exact apart rfl
  | failed here held alive _ =>
      refine ⟨addr, worker, last.present, last.serves, last.last, fun old at' => ?_⟩
      exact last.free old ((congrArg Control.target here).trans at')
  | @removed a r key old other here held dead =>
      have apart : addr ≠ key := by
        rintro rfl
        exact last.free old (congrArg Control.target here)
      refine ⟨addr, worker, ?_, last.serves, fun k present => ?_,
        away (target_afterStop _ _) addr⟩
      · rw [workers_afterStop, OrdMap.find?_erase, if_neg apart]
        exact last.present
      · rw [workers_afterStop, OrdMap.find?_erase] at present
        split at present
        · exact absurd rfl present
        · exact last.last k present
  | @restored r key old other here held =>
      have apart : addr ≠ key := by
        rintro rfl
        exact last.free old (congrArg Control.target here)
      obtain ⟨present, bound⟩ := elsewhere held apart { other with status := old }
      refine ⟨addr, worker, ?_, last.serves, ?_, away (target_afterStop _ _) addr⟩
      · rw [workers_afterStop]
        exact present
      · rw [workers_afterStop]
        exact bound
  | missed here absent =>
      refine ⟨addr, worker, ?_, last.serves, ?_, away (target_afterStop _ _) addr⟩
      · rw [workers_afterStop]
        exact last.present
      · rw [workers_afterStop]
        exact last.last
  | returned here none => rcases here with here | here <;> rw [here] at calm <;> cases calm
  | joined here first _ => rcases here with here | here <;> rw [here] at calm <;> cases calm
  | @moved key other move held =>
      by_cases same : addr = key
      · rw [← same, last.present] at held
        obtain rfl := Option.some.inj held
        refine ⟨addr, worker.move move, same ▸ OrdMap.find?_insert_self _ _ _,
          last.serves.move resizes, fun k present => ?_, last.free⟩
        rw [OrdMap.find?_insert] at present
        split at present
        · next here => exact (here.trans same.symm).le
        · exact last.last k present
      · obtain ⟨present, bound⟩ := elsewhere held same (other.move move)
        exact ⟨addr, worker, present, last.serves, bound, last.free⟩

/-- The pool has a last thread that serves, or has no thread yet. -/
structure Kept (pool : ThreadPool ω) : Prop where
  calm : Control.stopsAll pool.control = false
  bounded : Bounded (2 ^ 31 - 1) pool
  leaves : Leaves pool
  last : (pool.workers.entries = [] ∧ ∃ left, pool.control = .initializing left) ∨
    ∃ addr worker, LastServes pool addr worker

/-- The first thread of an empty pool is its last one. -/
theorem last_of_initializing {pool after : ThreadPool ω} {a : Action ω}
    (empty : ∀ addr, pool.workers.find? addr = none) {left : Nat}
    (here : pool.control = .initializing left) (next : Next pool a after) :
    after = pool ∨ ∃ addr worker, LastServes after addr worker := by
  cases next with
  | same a => exact Or.inl rfl
  | @initialized key left absent at' =>
      refine Or.inr ⟨key, _, OrdMap.find?_insert_self _ _ _,
        ⟨Or.inl rfl, (fun h => by cases h), (fun h => by cases h)⟩, fun other present => ?_,
        fun old at'' => ?_⟩
      · rw [OrdMap.find?_insert] at present
        split at present
        · next same => exact same.le
        · exact absurd (empty other) present
      · dsimp only at at''
        split at at'' <;> cases at''
  | moved move held =>
      rw [empty] at held
      cases held
  | missed at' absent => rcases at' with at' | at' <;> rw [here] at at' <;> cases at'
  | returned at' none => rcases at' with at' | at' <;> rw [here] at at' <;> cases at'
  | joined at' first _ => rcases at' with at' | at' <;> rw [here] at at' <;> cases at'
  | called c at' =>
      rw [here] at at'
      cases at'
  | spawned absent at' =>
      rw [here] at at'
      cases at'
  | emptied at' none =>
      rw [here] at at'
      cases at'
  | stopping at' first =>
      rw [here] at at'
      cases at'
  | failed at' held alive _ =>
      rw [here] at at'
      cases at'
  | removed at' held dead =>
      rw [here] at at'
      cases at'
  | restored at' held =>
      rw [here] at at'
      cases at'

theorem Kept.next {pool after : ThreadPool ω} {a : Action ω} (kept : Kept pool)
    (next : Next pool a after) (resizes : Resizes a) : Kept after where
  calm := next.stopsAll (.of_resizes resizes) kept.calm
  bounded := kept.bounded.next next (by omega) (.of_resizes resizes)
  leaves := kept.leaves.next next resizes (Nat.lt_of_le_of_lt kept.bounded.within (by omega))
  last := by
    rcases kept.last with ⟨empty, left, here⟩ | ⟨addr, worker, last⟩
    · have absent (addr : Nat) : pool.workers.find? addr = none := by
        rw [OrdMap.find?_eq_none_iff, OrdMap.keys, empty]
        exact List.not_mem_nil
      rcases last_of_initializing absent here next with rfl | last
      · exact Or.inl ⟨empty, left, here⟩
      · exact Or.inr last
    · exact Or.inr (last.next next resizes kept.leaves kept.calm)

/-- The size that `init_threads` asks for is one that a pool may have. -/
theorem initThreads_size (pool : ThreadPool ω) (poolSize : UInt32) :
    ∃ left, 1 ≤ left ∧ left ≤ 65535 ∧ left ≤ max 1 poolSize.toNat ∧
      (pool.initThreads poolSize).control = .initializing left := by
  refine ⟨_, ?_, ?_, ?_, rfl⟩
  · split
    · exact le_rfl
    · next valid =>
        refine Nat.one_le_iff_ne_zero.mpr fun zero => valid (Or.inl ?_)
        exact UInt32.toNat_inj.mp zero
  · split
    · exact Nat.one_le_ofNat
    · next valid => exact Nat.le_of_not_lt fun more => valid (Or.inr more)
  · split
    · exact Nat.le_max_left 1 _
    · exact Nat.le_max_right 1 _

theorem Kept.init (poolSize num : UInt32) :
    Kept ((new poolSize : ThreadPool ω).initThreads num) := by
  obtain ⟨left, positive, most, _, here⟩ := initThreads_size (new poolSize : ThreadPool ω) num
  refine ⟨?_, ⟨Nat.zero_le _, fun left' at' => ?_⟩, .of_none ?_, Or.inl ⟨rfl, left, here⟩⟩
  · rw [here]
    rfl
  · rw [here] at at'
    cases at'
    refine ⟨positive, ?_⟩
    change 0 + left ≤ _
    omega
  · rw [here]
    rfl

theorem Kept.run {pool : ThreadPool ω} (kept : Kept pool) {acts : List (Action ω)}
    (resizes : ∀ a ∈ acts, Resizes a) : Kept (Base.run step pool acts) :=
  Along.invariant (fun pool a kept resizes => Kept.next kept (step_next pool a) resizes) kept
    (along_of_forall resizes pool)

/-- However a pool is resized, to at least one thread, and whichever waits time out, its
last thread goes on serving. -/
theorem last_thread_serves (poolSize num : UInt32) (acts : List (Action ω))
    (resizes : ∀ a ∈ acts, Resizes a) :
    let pool := Base.run step ((new poolSize).initThreads num) acts
    (∃ left, pool.control = .initializing left) ∨
      ∃ addr worker, pool.workers.find? addr = some worker ∧ worker.Serves ∧
        ∀ key, pool.workers.find? key ≠ none → key ≤ addr := by
  rcases (Kept.run (Kept.init poolSize num) resizes).last with
    ⟨_, left, here⟩ | ⟨addr, worker, last⟩
  · exact Or.inl ⟨left, here⟩
  · exact Or.inr ⟨addr, worker, last.present, last.serves, last.last⟩

/-- Two threads are started, and the pool is asked for one while neither runs. -/
private def impatient : List (Action Unit) :=
  [.create 1, .create 2, .call .startThreads, .call (.resizeThreads 1), .advance, .timeout,
    .advance]

theorem last_thread_serves_impatient :
    ∃ addr worker, (Base.run step ((new 1).initThreads 2) impatient).workers.find? addr =
      some worker ∧ worker.Serves := by
  rcases last_thread_serves 1 2 impatient (by
      intro a inside
      simp only [impatient, List.mem_cons, List.not_mem_nil, or_false] at inside
      rcases inside with rfl | rfl | rfl | rfl | rfl | rfl | rfl
      all_goals trivial) with
    ⟨left, here⟩ | ⟨addr, worker, present, serves, _⟩
  · cases here
  · exact ⟨addr, worker, present, serves⟩

/-- Without time-outs no thread is left behind: outside `graceful_stop` every thread of
the pool goes round its loop. -/
theorem none_left_behind (poolSize num : UInt32) (acts : List (Action ω))
    (resizes : ∀ a ∈ acts, Resizes a) (patient : .timeout ∉ acts) :
    let pool := Base.run step ((new poolSize).initThreads num) acts
    ∀ addr worker, pool.workers.find? addr = some worker →
      (∀ r old, pool.control ≠ .joining r addr old) → worker.Runs := by
  intro pool addr worker present apart
  have start : Intact ((new poolSize : ThreadPool ω).initThreads num) :=
    .of_runs rfl rfl fun present => by cases present
  have along : Along step (fun _ a => Resizes a ∧ a ≠ .timeout)
      ((new poolSize : ThreadPool ω).initThreads num) acts :=
    along_of_forall (fun a inside => ⟨resizes a inside, fun late => patient (late ▸ inside)⟩) _
  have intact : Intact pool := Along.invariant
    (fun pool a intact ok => Intact.next intact (step_next pool a) ok.1 ok.2) start along
  exact intact.others present apart

/-- Two threads are started, and one of them is stopped. -/
private def patient : List (Action Unit) :=
  [.create 1, .create 2, .call .startThreads, .call (.resizeThreads 1), .advance,
    .thread 1 (.look ()), .thread 1 (.look ()), .thread 1 (.look ()), .advance]

theorem none_left_behind_patient :
    (⟨.kRunning, .waiting⟩ : Worker Unit).Runs := by
  refine none_left_behind 1 2 patient ?_ ?_ 2 ⟨.kRunning, .waiting⟩ rfl fun r old here => ?_
  · intro a inside
    simp only [patient, List.mem_cons, List.not_mem_nil, or_false] at inside
    rcases inside with rfl | rfl | rfl | rfl | rfl | rfl | rfl | rfl | rfl
    all_goals first | trivial | exact fun quit => by cases quit
  · simp only [patient, List.mem_cons, List.not_mem_nil, or_false, reduceCtorEq, not_false_eq_true]
  · cases here

/-! ### After the start -/

/-- The threads have been started, and none is going to be set back. -/
structure Started (pool : ThreadPool ω) : Prop where
  ready : ∀ left, pool.control ≠ .initializing left
  status : ∀ {addr : Nat} {worker : Worker ω}, pool.workers.find? addr = some worker →
    worker.status ≠ .kInit
  old : ∀ addr, pool.control.target ≠ some (addr, .kInit)

/-- Outside `graceful_stop` the statuses count. -/
theorem Started.of_status {pool : ThreadPool ω} (ready : ∀ left, pool.control ≠ .initializing left)
    (away : pool.control.target = none)
    (status : ∀ {addr : Nat} {worker : Worker ω}, pool.workers.find? addr = some worker →
      worker.status ≠ .kInit) : Started pool where
  ready := ready
  status := status
  old := fun addr at' => by
    rw [away] at at'
    cases at'

theorem Started.call (pool : ThreadPool ω) : Started (pool.call .startThreads) := by
  refine .of_status (fun left here => by cases here) rfl fun {addr worker} present => ?_
  change (OrdMap.mapVal _ pool.workers).find? addr = some worker at present
  rw [OrdMap.find?_mapVal] at present
  obtain ⟨before, _, rfl⟩ := Option.map_eq_some_iff.mp present
  exact fun h => by cases h

theorem ready_afterStop (pool : ThreadPool ω) (r : Reduce) (left : Nat) :
    (pool.afterStop r).control ≠ .initializing left := by
  intro here
  have none := creating_afterStop pool r
  rw [here] at none
  cases none

theorem Started.next {pool after : ThreadPool ω} {a : Action ω} (started : Started pool)
    (next : Next pool a after) (resizes : Resizes a) : Started after := by
  cases next with
  | same a => exact started
  | @called c ret idle =>
      cases c with
      | startThreads => exact .call pool
      | resizeThreads num =>
          refine .of_status (fun left here => ?_) (call_cases pool (.resizeThreads num)).1
            fun present => started.status (workers_resize pool num ▸ present)
          simp only [ThreadPool.call, resizeThreadPool] at here
          split at here
          · cases here
          · split at here <;> cases here
      | initThreads num => cases resizes
      | suspendThreads => cases resizes
      | immediateStopThreads => cases resizes
      | gracefulStopThreads => cases resizes
      | joinThreads => cases resizes
  | initialized absent here => exact absurd here (started.ready _)
  | spawned absent here =>
      refine .of_status (fun left at' => ?_) ?_ fun present => ?_
      · dsimp only at at'
        split at at' <;> cases at'
      · dsimp only
        split <;> rfl
      · rcases OrdMap.of_find?_insert present with ⟨_, rfl⟩ | ⟨_, held⟩
        · exact fun h => by cases h
        · exact started.status held
  | emptied here none =>
      exact .of_status (fun left at' => by cases at') rfl fun present => started.status present
  | stopping here first =>
      refine ⟨(fun left at' => by cases at'), fun present => ?_, fun addr at' => ?_⟩
      · rcases OrdMap.of_find?_insert present with ⟨_, rfl⟩ | ⟨_, held⟩
        · exact fun h => by cases h
        · exact started.status held
      · exact started.status (find?_of_entries first) (Prod.mk.inj (Option.some.inj at')).2
  | failed here held alive _ =>
      refine ⟨(fun left at' => by cases at'), started.status, fun addr at' => ?_⟩
      exact started.old addr ((congrArg Control.target here).trans at')
  | removed here held dead =>
      refine .of_status (ready_afterStop _ _) (target_afterStop _ _) fun present => ?_
      rw [workers_afterStop] at present
      exact started.status (OrdMap.of_find?_erase present).2
  | @restored r key old other here held =>
      refine .of_status (ready_afterStop _ _) (target_afterStop _ _) fun present => ?_
      rw [workers_afterStop] at present
      rcases OrdMap.of_find?_insert present with ⟨_, rfl⟩ | ⟨_, held'⟩
      · intro init
        refine started.old key ((congrArg Control.target here).trans ?_)
        exact congrArg (fun status => some (key, status)) init
      · exact started.status held'
  | missed here absent =>
      refine .of_status (ready_afterStop _ _) (target_afterStop _ _) fun present => ?_
      rw [workers_afterStop] at present
      exact started.status present
  | returned here none =>
      exact .of_status (fun left at' => by cases at') rfl fun present => started.status present
  | joined here first _ =>
      refine .of_status started.ready ?_ fun present =>
        started.status (OrdMap.of_find?_erase present).2
      rcases here with here | here <;> rw [here] <;> rfl
  | @moved key other move held =>
      refine ⟨started.ready, fun present => ?_, started.old⟩
      rcases OrdMap.of_find?_insert present with ⟨_, rfl⟩ | ⟨_, held'⟩
      · rcases other.move_cases move with same | ⟨_, ended⟩ | ⟨status, _⟩
        · rw [same]
          exact started.status held
        · rw [ended]
          exact fun h => by cases h
        · rw [status]
          exact started.status held
      · exact started.status held'

/-! ### What a resize comes to -/

/-- Shrinking from `size` to `num` threads: the loop has gone round for at most the tries
that are used up and has removed that many threads if nothing timed out; or it has
returned, and says whether all are gone that were to go. -/
inductive Shrinking (size num : Nat) (patient : Prop) (pool : ThreadPool ω) : Prop where
  | running {r : Reduce} (here : Control.reduce pool.control = some r)
      (num' : r.num = size - num) (currsize : r.currsize = size) (left : 1 ≤ r.maxTry)
      (more : num < pool.size) (within : size + r.maxTry ≤ pool.size + 50)
      (fewer : pool.size ≤ size) (exact' : patient → size + r.maxTry = pool.size + 50)
  | returned {ret : Int32} (here : pool.control = .idle (some ret)) (low : num ≤ pool.size)
      (within : size ≤ pool.size + 50) (fewer : pool.size ≤ size)
      (all : ret = 0 ↔ pool.size = num) (exact' : patient → pool.size = max num (size - 50))

/-- Behind a stop, which has removed a thread or none. -/
theorem Shrinking.afterStop {size num : Nat} {patient : Prop} {pool : ThreadPool ω} {r : Reduce}
    (less : num < size) (num' : r.num = size - num) (currsize : r.currsize = size)
    (left : 1 ≤ r.maxTry) (low : num ≤ pool.size) (within : size + r.maxTry ≤ pool.size + 51)
    (fewer : pool.size ≤ size) (exact' : patient → size + r.maxTry = pool.size + 51) :
    Shrinking size num patient (pool.afterStop r) := by
  have same : (pool.afterStop r).size = pool.size := by
    rw [ThreadPool.size, workers_afterStop, ← ThreadPool.size]
  have gone : pool.gone r = size - pool.size := by rw [ThreadPool.gone, currsize]
  have all : (if r.num ≤ pool.gone r then (0 : Int32) else -1) = 0 ↔ pool.size = num := by
    rw [gone, num']
    split
    · exact iff_of_true rfl (by omega)
    · exact iff_of_false (by decide) (by omega)
  by_cases last : r.maxTry - 1 = 0
  · have here : (pool.afterStop r).control = .idle (some (if r.num ≤ pool.gone r then 0 else -1)) := by
      rw [ThreadPool.afterStop, if_pos last]
      rfl
    refine .returned here (by omega) (by omega) (by omega) (by rw [same]; exact all) fun p => ?_
    have exact'' := exact' p
    omega
  · by_cases done : r.num ≤ pool.gone r
    · have here : (pool.afterStop r).control =
          .idle (some (if r.num ≤ pool.gone r then 0 else -1)) := by
        rw [ThreadPool.afterStop, if_neg last, if_pos done]
        rfl
      rw [gone, num'] at done
      exact .returned here (by omega) (by omega) (by omega) (by rw [same]; exact all)
        fun _ => by omega
    · have here : Control.reduce (pool.afterStop r).control =
          some { r with maxTry := r.maxTry - 1 } := by
        rw [ThreadPool.afterStop, if_neg last, if_neg done]
        rfl
      rw [gone, num'] at done
      refine .running here num' currsize ?_ ?_ ?_ ?_ fun p => ?_
      · exact Nat.one_le_iff_ne_zero.mpr last
      · omega
      · dsimp only
        omega
      · omega
      · have exact'' := exact' p
        dsimp only
        omega

/-- A step that keeps the size and the loop. -/
theorem Shrinking.keep {size num : Nat} {patient : Prop} {pool after : ThreadPool ω} {r : Reduce}
    (here : Control.reduce pool.control = some r) (shrinking : Shrinking size num patient pool)
    (same : after.size = pool.size) (at' : Control.reduce after.control = some r) :
    Shrinking size num patient after := by
  cases shrinking with
  | @running r' here' num' currsize left more within fewer exact' =>
      obtain rfl := Option.some.inj (here.symm.trans here')
      exact .running at' num' currsize left (same ▸ more) (same ▸ within) (same ▸ fewer)
        (same ▸ exact')
  | returned here' _ _ _ _ _ =>
      rw [here'] at here
      cases here

/-- A step that keeps the size and the place of the operation. -/
theorem Shrinking.moved {size num : Nat} {patient : Prop} {pool after : ThreadPool ω}
    (shrinking : Shrinking size num patient pool) (same : after.size = pool.size)
    (at' : after.control = pool.control) : Shrinking size num patient after := by
  cases shrinking with
  | running here num' currsize left more within fewer exact' =>
      exact .running (at' ▸ here) num' currsize left (same ▸ more) (same ▸ within) (same ▸ fewer)
        (same ▸ exact')
  | returned here low within fewer all exact' =>
      exact .returned (at' ▸ here) (same ▸ low) (same ▸ within) (same ▸ fewer) (same ▸ all)
        (same ▸ exact')

theorem Shrinking.next {size num : Nat} {patient : Prop} {pool after : ThreadPool ω}
    {a : Action ω} (less : num < size) (shrinking : Shrinking size num patient pool)
    (sound : Sound pool) (next : Next pool a after) (noCall : ∀ c, a ≠ .call c)
    (intact : patient → Intact pool) : Shrinking size num patient after := by
  have inLoop {r : Reduce} (here : Control.reduce pool.control = some r) :
      num < pool.size ∧ size + r.maxTry ≤ pool.size + 50 ∧ pool.size ≤ size ∧
        r.num = size - num ∧ r.currsize = size ∧ 1 ≤ r.maxTry ∧
        (patient → size + r.maxTry = pool.size + 50) := by
    cases shrinking with
    | @running r' here' num' currsize left more within fewer exact' =>
        obtain rfl := Option.some.inj (here.symm.trans here')
        exact ⟨more, within, fewer, num', currsize, left, exact'⟩
    | returned here' _ _ _ _ _ =>
        rw [here'] at here
        cases here
  cases next with
  | same a => exact shrinking
  | called c _ => exact absurd rfl (noCall c)
  | initialized absent here =>
      cases shrinking with
      | running here' _ _ _ _ _ _ _ =>
          rw [here] at here'
          cases here'
      | returned here' _ _ _ _ _ =>
          rw [here] at here'
          cases here'
  | spawned absent here =>
      cases shrinking with
      | running here' _ _ _ _ _ _ _ =>
          rw [here] at here'
          cases here'
      | returned here' _ _ _ _ _ =>
          rw [here] at here'
          cases here'
  | emptied here none =>
      obtain ⟨more, _⟩ := inLoop (congrArg Control.reduce here)
      rw [ThreadPool.size, none] at more
      exact absurd more (Nat.not_lt_zero num)
  | stopping here first =>
      exact shrinking.keep (congrArg Control.reduce here)
        (OrdMap.length_insert_of_some (find?_of_entries first) _) rfl
  | failed here held alive _ => exact shrinking.keep (congrArg Control.reduce here) rfl rfl
  | removed here held dead =>
      obtain ⟨more, within, fewer, num', currsize, left, exact'⟩ :=
        inLoop (congrArg Control.reduce here)
      have one := OrdMap.length_erase held
      simp only [ThreadPool.size] at more within fewer exact'
      refine .afterStop less num' currsize left ?_ ?_ ?_ fun p => ?_
      · simp only [ThreadPool.size]
        omega
      · simp only [ThreadPool.size]
        omega
      · simp only [ThreadPool.size]
        omega
      · have exact'' := exact' p
        simp only [ThreadPool.size]
        omega
  | restored here held =>
      obtain ⟨more, within, fewer, num', currsize, left, _⟩ := inLoop (congrArg Control.reduce here)
      have same := OrdMap.length_insert_of_some held
      simp only [ThreadPool.size] at more within fewer
      refine .afterStop less num' currsize left ?_ ?_ ?_ fun p => ?_
      · simp only [ThreadPool.size, setStatus, same]
        omega
      · simp only [ThreadPool.size, setStatus, same]
        omega
      · simp only [ThreadPool.size, setStatus, same]
        omega
      · exact absurd here ((intact p).waits _ _ _)
  | missed here absent =>
      have at' : ∃ addr old, pool.control.target = some (addr, old) ∧
          pool.workers.find? addr = none := by
        rcases here with here | here
        · exact ⟨_, _, congrArg Control.target here, absent⟩
        · exact ⟨_, _, congrArg Control.target here, absent⟩
      obtain ⟨addr, old, at', absent⟩ := at'
      obtain ⟨worker, present, _⟩ := sound.target at'
      rw [absent] at present
      cases present
  | returned here none =>
      cases shrinking with
      | running here' _ _ _ _ _ _ _ =>
          rcases here with here | here <;> rw [here] at here' <;> cases here'
      | returned here' _ _ _ _ _ =>
          rcases here with here | here <;> rw [here] at here' <;> cases here'
  | joined here first _ =>
      cases shrinking with
      | running here' _ _ _ _ _ _ _ =>
          rcases here with here | here <;> rw [here] at here' <;> cases here'
      | returned here' _ _ _ _ _ =>
          rcases here with here | here <;> rw [here] at here' <;> cases here'
  | @moved key worker move held =>
      exact shrinking.moved (OrdMap.length_insert_of_some held (worker.move move)) rfl

/-- Growing to `num` threads. -/
inductive Growing (num : Nat) (pool : ThreadPool ω) : Prop where
  | running {left : Nat} (here : pool.control = .spawning left) (positive : 1 ≤ left)
      (rest : pool.size + left = num)
  | returned (here : pool.control = .idle (some 0)) (all : pool.size = num)

theorem Growing.next {num : Nat} {pool after : ThreadPool ω} {a : Action ω}
    (growing : Growing num pool) (next : Next pool a after) (noCall : ∀ c, a ≠ .call c) :
    Growing num after := by
  have moved {after : ThreadPool ω} (same : after.size = pool.size)
      (at' : after.control = pool.control) : Growing num after := by
    cases growing with
    | running here positive rest => exact .running (at' ▸ here) positive (same ▸ rest)
    | returned here all => exact .returned (at' ▸ here) (same ▸ all)
  have away {P : Prop} (reduce : Control.reduce pool.control ≠ none ∨
      Control.stopsAll pool.control = true ∨ ∃ left, pool.control = .initializing left) : P := by
    cases growing with
    | running here _ _ => simp [here, Control.reduce, Control.stopsAll] at reduce
    | returned here _ => simp [here, Control.reduce, Control.stopsAll] at reduce
  cases next with
  | same a => exact growing
  | called c _ => exact absurd rfl (noCall c)
  | initialized absent here => exact away (Or.inr (Or.inr ⟨_, here⟩))
  | @spawned key left absent here =>
      have size := OrdMap.length_insert_of_none absent (⟨.kRunning, .waiting⟩ : Worker ω)
      cases growing with
      | running here' positive rest =>
          rw [here] at here'
          cases here'
          rw [ThreadPool.size] at rest
          by_cases last : left ≤ 1
          · refine .returned (if_pos last) ?_
            rw [ThreadPool.size, size]
            omega
          · refine .running (if_neg last) (by omega) ?_
            rw [ThreadPool.size, size]
            omega
      | returned here' _ =>
          rw [here] at here'
          cases here'
  | emptied here none => exact away (Or.inl (by rw [here]; exact Option.some_ne_none _))
  | stopping here first => exact away (Or.inl (by rw [here]; exact Option.some_ne_none _))
  | failed here held alive _ => exact away (Or.inl (by rw [here]; exact Option.some_ne_none _))
  | removed here held dead => exact away (Or.inl (by rw [here]; exact Option.some_ne_none _))
  | restored here held => exact away (Or.inl (by rw [here]; exact Option.some_ne_none _))
  | missed here absent =>
      rcases here with here | here
      · exact away (Or.inl (by rw [here]; exact Option.some_ne_none _))
      · exact away (Or.inl (by rw [here]; exact Option.some_ne_none _))
  | returned here none =>
      rcases here with here | here
      · exact away (Or.inr (Or.inl (congrArg Control.stopsAll here)))
      · exact away (Or.inr (Or.inl (congrArg Control.stopsAll here)))
  | joined here first _ =>
      rcases here with here | here
      · exact away (Or.inr (Or.inl (congrArg Control.stopsAll here)))
      · exact away (Or.inr (Or.inl (congrArg Control.stopsAll here)))
  | @moved key worker move held =>
      exact moved (OrdMap.length_insert_of_some held (worker.move move)) rfl

/-- All threads go round their loops. -/
def AllRun (pool : ThreadPool ω) : Prop :=
  ∀ addr worker, pool.workers.find? addr = some worker → worker.Runs

/-- What a resize comes to, whatever the threads do meanwhile. A pool that is to grow
gets the size asked for. One that is to shrink gets no smaller than that and loses at
most 50 threads; the answer is 0 exactly if it has the size asked for, and it has unless
there were more than 50 to go, when all threads went round their loops at the start and
no wait timed out. -/
theorem resize_result {pool : ThreadPool ω} (sound : Sound pool) {before : Option Int32}
    (idle : pool.control = .idle before) {num : UInt32} (num31 : num.toNat < 2 ^ 31)
    (size31 : pool.size < 2 ^ 31) {acts : List (Action ω)} (alone : ∀ c, .call c ∉ acts)
    (stays : ∀ addr, .thread addr .quit ∉ acts) {ret : Option Int32}
    (returned : (Base.run step pool (.call (.resizeThreads num) :: acts)).control = .idle ret) :
    let after := Base.run step pool (.call (.resizeThreads num) :: acts)
    (pool.size ≤ num.toNat → after.size = num.toNat ∧ ret = some 0) ∧
      (num.toNat ≤ pool.size →
        num.toNat ≤ after.size ∧ pool.size ≤ after.size + 50 ∧ after.size ≤ pool.size ∧
        (ret = some 0 ↔ after.size = num.toNat) ∧
        (pool.AllRun → .timeout ∉ acts → after.size = max num.toNat (pool.size - 50))) := by
  intro after
  have along : Along step
      (fun _ a => (∀ c, a ≠ .call c) ∧ (∀ addr, a ≠ .thread addr .quit) ∧
        (.timeout ∉ acts → a ≠ .timeout)) (pool.call (.resizeThreads num)) acts := by
    refine along_of_forall (fun a inside => ⟨fun c same => ?_, fun addr same => ?_,
      fun patient same => ?_⟩) _
    · exact alone c (same ▸ inside)
    · exact stays addr (same ▸ inside)
    · exact patient (same ▸ inside)
  have first : pool.step (.call (.resizeThreads num)) = pool.call (.resizeThreads num) := by
    simp only [step, idle]
  have same : after = Base.run step (pool.call (.resizeThreads num)) acts := by
    rw [← first]
    rfl
  have grows (start : Growing num.toNat (pool.call (.resizeThreads num))) :
      after.size = num.toNat ∧ ret = some 0 := by
    have growing : Growing num.toNat after := same ▸ Along.invariant
      (fun pool a growing ok => Growing.next growing (step_next pool a) ok.1) start along
    cases growing with
    | running here _ _ =>
        rw [returned] at here
        cases here
    | returned here all =>
        rw [returned] at here
        exact ⟨all, Control.idle.inj here⟩
  rcases resize_cases num31 size31 with ⟨equal, here⟩ | ⟨less, here⟩ | ⟨less, here⟩
  · obtain ⟨size, zero⟩ := grows (.returned (congrArg control here) (by
      rw [call, here]
      exact equal))
    exact ⟨fun _ => ⟨size, zero⟩, fun _ => ⟨by omega, by omega, by omega,
      iff_of_true zero size, fun _ _ => by omega⟩⟩
  · have result := grows (.running (congrArg control here) (by omega) (by
      rw [call, here]
      change pool.size + (num.toNat - pool.size) = num.toNat
      omega))
    exact ⟨fun _ => result, fun more => absurd less (Nat.not_lt.mpr more)⟩
  · refine ⟨fun fewer => absurd less (Nat.not_lt.mpr fewer), fun _ => ?_⟩
    have runs : Shrinking pool.size num.toNat (pool.AllRun ∧ .timeout ∉ acts) after := by
      rw [same]
      refine (Along.invariant (P := fun now => Sound now ∧
        Shrinking pool.size num.toNat (pool.AllRun ∧ .timeout ∉ acts) now ∧
        (pool.AllRun ∧ .timeout ∉ acts → Intact now)) ?_ ⟨?_, ?_, ?_⟩ along).2.1
      · rintro now a ⟨sound, shrinking, intact⟩ ⟨noCall, stays, patient⟩
        have next := step_next now a
        have resizes : Resizes a := by
          cases a with
          | call c => exact absurd rfl (noCall c)
          | thread addr move => exact fun quit => stays addr (quit ▸ rfl)
          | _ => trivial
        exact ⟨sound.next next, shrinking.next less sound next noCall intact,
          fun calm => (intact calm).next next resizes (patient calm.2)⟩
      · exact first ▸ sound.next (step_next pool _)
      · rw [call, here]
        exact .running rfl rfl rfl Nat.one_le_ofNat less le_rfl le_rfl fun _ => rfl
      · intro calm
        rw [call, here]
        exact .of_runs rfl rfl fun present => calm.1 _ _ present
    cases runs with
    | running here' _ _ _ _ _ _ _ =>
        rw [returned] at here'
        cases here'
    | returned here' low within fewer all exact' =>
        rw [returned] at here'
        cases here'
        refine ⟨low, within, fewer, ?_, fun runs patient => exact' ⟨runs, patient⟩⟩
        rw [Option.some.injEq]
        exact all

/-- A pool of two threads that go round their loops. -/
private def pair : ThreadPool Unit :=
  Base.run step ((new 1).initThreads 2) [.create 1, .create 2, .call .startThreads]

theorem resize_result_pair :
    (Base.run step pair [.call (.resizeThreads 1), .advance, .thread 1 (.look ()),
      .thread 1 (.look ()), .thread 1 (.look ()), .advance]).size = 1 := by
  have sound : Sound pair :=
    ((Sound.new 1).next (step_next (new 1) (.call (.initThreads 2)))).run _
  have result := @resize_result Unit pair sound none rfl 1 (by decide) (by decide)
    [.advance, .thread 1 (.look ()), .thread 1 (.look ()), .thread 1 (.look ()), .advance]
    (by
      intro c
      simp only [List.mem_cons, List.not_mem_nil, or_false, reduceCtorEq, not_false_eq_true])
    (by
      intro addr inside
      simp only [List.mem_cons, List.not_mem_nil, or_false, reduceCtorEq, Action.thread.injEq,
        and_false] at inside)
    (some 0) rfl
  exact (result.2 (by decide)).2.2.2.1.mp rfl

end ThreadPool

end Heracles.Utils
