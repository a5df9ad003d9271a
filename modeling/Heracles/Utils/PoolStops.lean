import Heracles.Utils.ThreadPool

/-!
What stopping does to a pool.

`graceful_stop` removes the thread that it has joined only if its status is `kDead`, and
it has written `kTerminating` before: so the thread has to end while it is waited for.
A thread that ends otherwise, because the wait had timed out or because it broke out of
its loop, is found to have returned by every later stop, and its status is set back
(`Stuck.next`). Such a thread goes only when all threads are stopped or joined
(`stuck_for_good`).
-/

namespace Heracles.Utils.ThreadPool

open Heracles.Base

variable {ω : Type}

/-! ### The threads after a step -/

/-- A call writes at most one status, to all threads, and begins outside
`graceful_stop`. -/
theorem call_cases (pool : ThreadPool ω) (c : Call) :
    (pool.call c).control.target = none ∧
      ((pool.call c).workers = pool.workers ∨ ∃ status, status ≠ .kDead ∧
        (pool.call c).workers =
          pool.workers.mapVal fun worker => { worker with status := status }) := by
  cases c with
  | initThreads poolSize => exact ⟨rfl, Or.inl rfl⟩
  | joinThreads => exact ⟨rfl, Or.inl rfl⟩
  | startThreads => exact ⟨rfl, Or.inr ⟨.kRunning, (fun h => by cases h), rfl⟩⟩
  | suspendThreads => exact ⟨rfl, Or.inr ⟨.kSuspend, (fun h => by cases h), rfl⟩⟩
  | immediateStopThreads => exact ⟨rfl, Or.inr ⟨.kTerminating, (fun h => by cases h), rfl⟩⟩
  | gracefulStopThreads => exact ⟨rfl, Or.inr ⟨.kTerminating, (fun h => by cases h), rfl⟩⟩
  | resizeThreads poolSize =>
      refine ⟨?_, Or.inl (workers_resize pool poolSize)⟩
      simp only [call, resizeThreadPool]
      split
      · rfl
      · split
        · rfl
        · rfl

/-- A thread that has returned is either removed or keeps its place. -/
theorem Next.finished {pool after : ThreadPool ω} {a : Action ω} (next : Next pool a after)
    {addr : Nat} {worker : Worker ω} (present : pool.workers.find? addr = some worker)
    (ended : worker.thread = .finished) :
    after.workers.find? addr = none ∨
      ∃ worker', after.workers.find? addr = some worker' ∧ worker'.thread = .finished := by
  have written {key : Nat} {other : Worker ω} (status : ThreadStatus)
      (held : pool.workers.find? key = some other) :
      ∃ worker', (pool.workers.insert key { other with status := status }).find? addr =
        some worker' ∧ worker'.thread = .finished := by
    rw [OrdMap.find?_insert]
    split
    · next here =>
        rw [here, held] at present
        obtain rfl := Option.some.inj present
        exact ⟨_, rfl, ended⟩
    · exact ⟨worker, present, ended⟩
  have stays : ∃ worker', pool.workers.find? addr = some worker' ∧ worker'.thread = .finished :=
    ⟨worker, present, ended⟩
  have fresh {key : Nat} (absent : pool.workers.find? key = none) (created : Worker ω) :
      ∃ worker', (pool.workers.insert key created).find? addr = some worker' ∧
        worker'.thread = .finished := by
    have apart : addr ≠ key := by
      rintro rfl
      rw [absent] at present
      cases present
    rw [OrdMap.find?_insert_of_ne _ _ apart]
    exact stays
  have erased (key : Nat) : (pool.workers.erase key).find? addr = none ∨
      ∃ worker', (pool.workers.erase key).find? addr = some worker' ∧
        worker'.thread = .finished := by
    rw [OrdMap.find?_erase]
    split
    · exact Or.inl rfl
    · exact Or.inr stays
  cases next with
  | same a => exact Or.inr stays
  | called c idle =>
      rcases (call_cases pool c).2 with same | ⟨status, _, all⟩
      · rw [same]
        exact Or.inr stays
      · rw [all, OrdMap.find?_mapVal, present]
        exact Or.inr ⟨_, rfl, ended⟩
  | initialized absent here => exact Or.inr (fresh absent _)
  | spawned absent here => exact Or.inr (fresh absent _)
  | emptied here none => exact Or.inr stays
  | stopping here first => exact Or.inr (written _ (find?_of_entries first))
  | failed here held alive _ => exact Or.inr stays
  | removed here held dead =>
      rw [workers_afterStop]
      exact erased _
  | restored here held =>
      rw [workers_afterStop]
      exact Or.inr (written _ held)
  | missed here absent =>
      rw [workers_afterStop]
      exact Or.inr stays
  | returned here none => exact Or.inr stays
  | joined here first _ => exact erased _
  | @moved key other move held =>
      refine Or.inr ?_
      by_cases here : addr = key
      · rw [← here, present] at held
        obtain rfl := Option.some.inj held
        rw [Worker.move_finished ended, OrdMap.insert_self (here ▸ present)]
        exact stays
      · rw [OrdMap.find?_insert_of_ne _ _ here]
        exact stays

/-! ### Statuses -/

/-- Only a thread that has returned is `kDead`, or will be when `graceful_stop` restores
its status; and `graceful_stop` is at the first thread. -/
structure Sound (pool : ThreadPool ω) : Prop where
  dead : ∀ {addr : Nat} {worker : Worker ω}, pool.workers.find? addr = some worker →
    worker.status = .kDead → worker.thread = .finished
  target : ∀ {addr : Nat} {old : ThreadStatus}, pool.control.target = some (addr, old) →
    ∃ worker, pool.workers.find? addr = some worker ∧ (old = .kDead → worker.thread = .finished)
  first : ∀ {addr : Nat} {old : ThreadStatus}, pool.control.target = some (addr, old) →
    ∀ {key : Nat} {worker : Worker ω}, pool.workers.find? key = some worker → addr ≤ key

/-- While `graceful_stop` is at a thread, threads move but none goes; it gets there at the
head of the loop, where the thread is the first. -/
theorem Next.target {pool after : ThreadPool ω} {a : Action ω} (next : Next pool a after)
    {addr : Nat} {old : ThreadStatus} (at' : after.control.target = some (addr, old)) :
    (pool.control.target = some (addr, old) ∧
      (after.workers = pool.workers ∨ ∃ key worker move,
        pool.workers.find? key = some worker ∧
        after.workers = pool.workers.insert key (worker.move move))) ∨
    ∃ worker rest, pool.workers.entries = (addr, worker) :: rest ∧ old = worker.status ∧
      after.workers = pool.workers.insert addr { worker with status := .kTerminating } := by
  cases next with
  | same a => exact Or.inl ⟨at', Or.inl rfl⟩
  | called c idle =>
      rw [(call_cases pool c).1] at at'
      cases at'
  | initialized absent here =>
      dsimp only at at'
      split at at'
      · cases at'
      · cases at'
  | spawned absent here =>
      dsimp only at at'
      split at at'
      · cases at'
      · cases at'
  | emptied here none => cases at'
  | stopping here first =>
      obtain ⟨rfl, rfl⟩ := Prod.mk.inj (Option.some.inj at')
      exact Or.inr ⟨_, _, first, rfl, rfl⟩
  | failed here held alive _ =>
      rw [here]
      exact Or.inl ⟨at', Or.inl rfl⟩
  | removed here held dead =>
      rw [target_afterStop] at at'
      cases at'
  | restored here held =>
      rw [target_afterStop] at at'
      cases at'
  | missed here absent =>
      rw [target_afterStop] at at'
      cases at'
  | returned here none => cases at'
  | joined here first _ =>
      rcases here with here | here
      · rw [here] at at'
        cases at'
      · rw [here] at at'
        cases at'
  | moved move held => exact Or.inl ⟨at', Or.inr ⟨_, _, _, held, rfl⟩⟩

theorem Sound.next {pool after : ThreadPool ω} {a : Action ω} (sound : Sound pool)
    (next : Next pool a after) : Sound after where
  dead := by
    intro addr worker present status
    cases next with
    | same a => exact sound.dead present status
    | called c idle =>
        rcases (call_cases pool c).2 with same | ⟨other, alive, all⟩
        · exact sound.dead (same ▸ present) status
        · rw [all, OrdMap.find?_mapVal] at present
          obtain ⟨before, _, rfl⟩ := Option.map_eq_some_iff.mp present
          exact absurd status alive
    | initialized absent here =>
        rcases OrdMap.of_find?_insert present with ⟨_, rfl⟩ | ⟨_, held⟩
        · cases status
        · exact sound.dead held status
    | spawned absent here =>
        rcases OrdMap.of_find?_insert present with ⟨_, rfl⟩ | ⟨_, held⟩
        · cases status
        · exact sound.dead held status
    | emptied here none => exact sound.dead present status
    | stopping here first =>
        rcases OrdMap.of_find?_insert present with ⟨_, rfl⟩ | ⟨_, held⟩
        · cases status
        · exact sound.dead held status
    | failed here held alive _ => exact sound.dead present status
    | removed here held dead =>
        rw [workers_afterStop] at present
        exact sound.dead (OrdMap.of_find?_erase present).2 status
    | restored here held =>
        rw [workers_afterStop] at present
        rcases OrdMap.of_find?_insert present with ⟨_, rfl⟩ | ⟨_, held'⟩
        · obtain ⟨before, held', known⟩ := sound.target (congrArg Control.target here)
          obtain rfl := Option.some.inj (held.symm.trans held')
          exact known status
        · exact sound.dead held' status
    | missed here absent =>
        rw [workers_afterStop] at present
        exact sound.dead present status
    | returned here none => exact sound.dead present status
    | joined here first _ => exact sound.dead (OrdMap.of_find?_erase present).2 status
    | moved move held =>
        rcases OrdMap.of_find?_insert present with ⟨_, rfl⟩ | ⟨_, held'⟩
        · rcases Worker.move_cases _ move with same | ⟨_, ended⟩ | ⟨same, _, running, _⟩
          · rw [same] at status ⊢
            exact sound.dead held status
          · rw [ended]
          · rw [same] at status
            exact absurd (sound.dead held status) running
        · exact sound.dead held' status
  target := by
    intro addr old at'
    rcases next.target at' with ⟨before, moves⟩ | ⟨worker, rest, first, rfl, stopped⟩
    · obtain ⟨worker, held, known⟩ := sound.target before
      rcases moves with same | ⟨key, other, move, held', moved⟩
      · exact ⟨worker, same ▸ held, known⟩
      · rw [moved]
        by_cases here : addr = key
        · rw [← here, held] at held'
          obtain rfl := Option.some.inj held'
          refine ⟨worker.move move, here ▸ OrdMap.find?_insert_self _ _ _, fun dead => ?_⟩
          rw [Worker.move_finished (known dead)]
          exact known dead
        · exact ⟨worker, (OrdMap.find?_insert_of_ne _ _ here).trans held, known⟩
    · have held := find?_of_entries first
      have known : worker.status = .kDead → worker.thread = .finished := sound.dead held
      rw [stopped]
      exact ⟨_, OrdMap.find?_insert_self _ _ _, known⟩
  first := by
    intro addr old at' key worker present
    rcases next.target at' with ⟨before, moves⟩ | ⟨worker', rest, first, rfl, stopped⟩
    · rcases moves with same | ⟨key', other, move, held', moved⟩
      · exact sound.first before (same ▸ present)
      · rw [moved] at present
        rcases OrdMap.of_find?_insert present with ⟨rfl, _⟩ | ⟨_, held⟩
        · exact sound.first before held'
        · exact sound.first before held
    · rw [stopped] at present
      rcases OrdMap.of_find?_insert present with ⟨rfl, _⟩ | ⟨_, held⟩
      · exact le_rfl
      · exact OrdMap.least_of_entries first held

/-- A pool stays sound. -/
theorem Sound.run {pool : ThreadPool ω} (sound : Sound pool) (acts : List (Action ω)) :
    Sound (Base.run step pool acts) :=
  run_invariant (fun pool a sound => Sound.next sound (step_next pool a)) sound acts

theorem Sound.new (poolSize : UInt32) : Sound (new poolSize : ThreadPool ω) where
  dead := fun present => by cases present
  target := fun at' => by cases at'
  first := fun at' => by cases at'

/-! ### Threads that are left behind -/

/-- An operation that ends with an empty pool. -/
def Control.stopsAll : Control → Bool
  | .draining => true
  | .joiningAll => true
  | _ => false

/-- The action does not stop or join all threads. -/
def KeepsThreads : Action ω → Prop
  | .call .gracefulStopThreads => False
  | .call .joinThreads => False
  | _ => True

/-- The thread has returned, and `graceful_stop` is not about to see it as `kDead`. -/
def Stuck (pool : ThreadPool ω) (addr : Nat) : Prop :=
  ∃ worker, pool.workers.find? addr = some worker ∧ worker.thread = .finished ∧
    ∀ r old, pool.control = .joining r addr old → worker.status ≠ .kDead

theorem stopsAll_afterStop (pool : ThreadPool ω) (r : Reduce) :
    Control.stopsAll (pool.afterStop r).control = false := by
  rcases control_afterStop pool r with ⟨ret, here⟩ | ⟨_, _, here⟩
  · rw [here]
    rfl
  · rw [here]
    rfl

theorem Next.stopsAll {pool after : ThreadPool ω} {a : Action ω} (next : Next pool a after)
    (keeps : KeepsThreads a) (before : Control.stopsAll pool.control = false) :
    Control.stopsAll after.control = false := by
  cases next with
  | same a => exact before
  | called c idle =>
      cases c with
      | gracefulStopThreads => cases keeps
      | joinThreads => cases keeps
      | resizeThreads poolSize =>
          simp only [call, resizeThreadPool]
          split
          · rfl
          · split
            · rfl
            · rfl
      | _ => rfl
  | initialized absent here => dsimp only; split <;> rfl
  | spawned absent here => dsimp only; split <;> rfl
  | emptied here none => rfl
  | stopping here first => rfl
  | failed here held alive _ => rfl
  | removed here held dead => exact stopsAll_afterStop _ _
  | restored here held => exact stopsAll_afterStop _ _
  | missed here absent => exact stopsAll_afterStop _ _
  | returned here none => rfl
  | joined here first _ => exact before
  | moved move held => exact before

theorem Stuck.next {pool after : ThreadPool ω} {a : Action ω} {addr : Nat}
    (stuck : Stuck pool addr) (next : Next pool a after)
    (calm : Control.stopsAll pool.control = false) : Stuck after addr := by
  obtain ⟨worker, present, ended, alive⟩ := stuck
  -- Away from `joining` it is enough that the thread is still there.
  have elsewhere (free : after.control.target = none)
      (kept : after.workers.find? addr ≠ none) : Stuck after addr := by
    rcases next.finished present ended with gone | ⟨other, held, ended'⟩
    · exact absurd gone kept
    · refine ⟨other, held, ended', fun r old here => ?_⟩
      rw [here] at free
      cases free
  have here : pool.workers.find? addr ≠ none := by
    rw [present]
    exact Option.some_ne_none worker
  have inserted (key : Nat) (other : Worker ω) :
      (pool.workers.insert key other).find? addr ≠ none := by
    rw [OrdMap.find?_insert]
    split
    · exact Option.some_ne_none other
    · exact here
  cases next with
  | same a => exact ⟨worker, present, ended, alive⟩
  | called c idle =>
      refine elsewhere (call_cases pool c).1 ?_
      rcases (call_cases pool c).2 with same | ⟨status, _, all⟩
      · rw [same]
        exact here
      · rw [all, OrdMap.find?_mapVal, present]
        exact Option.some_ne_none _
  | initialized absent at' =>
      refine elsewhere ?_ (inserted _ _)
      dsimp only
      split <;> rfl
  | spawned absent at' =>
      refine elsewhere ?_ (inserted _ _)
      dsimp only
      split <;> rfl
  | emptied at' none => exact elsewhere rfl here
  | @stopping r key other rest at' first =>
      by_cases same : addr = key
      · have held := find?_of_entries first
        rw [← same, present] at held
        obtain rfl := Option.some.inj held
        refine ⟨{ worker with status := .kTerminating }, same ▸ OrdMap.find?_insert_self _ _ _,
          ended, fun _ _ _ dead => ?_⟩
        cases dead
      · refine ⟨worker, (OrdMap.find?_insert_of_ne _ _ same).trans present, ended, ?_⟩
        intro r' old joining
        cases joining
        exact absurd rfl same
  | failed at' held alive' _ =>
      exact ⟨worker, present, ended, fun _ _ joining => by cases joining⟩
  | removed at' held dead =>
      refine elsewhere (target_afterStop _ _) ?_
      rw [workers_afterStop, OrdMap.find?_erase]
      split
      · next same =>
          rw [← same, present] at held
          obtain rfl := Option.some.inj held
          exact absurd dead (alive _ _ (same ▸ at'))
      · exact here
  | restored at' held =>
      refine elsewhere (target_afterStop _ _) ?_
      rw [workers_afterStop]
      exact inserted _ _
  | missed at' absent =>
      refine elsewhere (target_afterStop _ _) ?_
      rw [workers_afterStop]
      exact here
  | returned at' none => exact elsewhere rfl here
  | joined at' first _ =>
      rcases at' with at' | at'
      · rw [at'] at calm
        cases calm
      · rw [at'] at calm
        cases calm
  | @moved key other move held =>
      by_cases same : addr = key
      · rw [← same, present] at held
        obtain rfl := Option.some.inj held
        refine ⟨worker, ?_, ended, alive⟩
        rw [Worker.move_finished ended, OrdMap.insert_self (same ▸ present)]
        exact present
      · exact ⟨worker, (OrdMap.find?_insert_of_ne _ _ same).trans present, ended, alive⟩

/-- A step keeps the number of threads, adds one at an address not in use, or removes
one that is in the hands of an operation. -/
theorem Next.size_cases {pool after : ThreadPool ω} {a : Action ω} (next : Next pool a after) :
    (after.size = pool.size ∧ ∀ key, after.workers.find? key = none ↔
      pool.workers.find? key = none) ∨
    (after.size = pool.size + 1 ∧ ∃ addr worker, a = .create addr ∧
      pool.workers.find? addr = none ∧ after.workers = pool.workers.insert addr worker ∧
      (∃ left, pool.control = .initializing left ∨ pool.control = .spawning left)) ∨
    (after.size + 1 = pool.size ∧ ∃ addr worker, pool.workers.find? addr = some worker ∧
      after.workers = pool.workers.erase addr ∧
      ((worker.status = .kDead ∧ ∃ r old, pool.control = .joining r addr old) ∨
        Control.stopsAll pool.control = true)) := by
  have inserted {key : Nat} {worker : Worker ω} (held : pool.workers.find? key = some worker)
      (other : Worker ω) : (pool.workers.insert key other).entries.length = pool.size ∧
        ∀ addr, (pool.workers.insert key other).find? addr = none ↔
          pool.workers.find? addr = none := by
    refine ⟨OrdMap.length_insert_of_some held other, fun addr => ?_⟩
    rw [OrdMap.find?_insert]
    split
    · next here =>
        rw [here, held]
        exact iff_of_false (Option.some_ne_none _) (Option.some_ne_none _)
    · exact Iff.rfl
  cases next with
  | same a => exact Or.inl ⟨rfl, fun _ => Iff.rfl⟩
  | called c idle =>
      rcases (call_cases pool c).2 with same | ⟨status, _, all⟩
      · exact Or.inl ⟨by rw [size, same, ← size], fun _ => by rw [same]⟩
      · refine Or.inl ⟨?_, fun key => ?_⟩
        · rw [size, all, OrdMap.length_mapVal, ← size]
        · rw [all, OrdMap.find?_mapVal, Option.map_eq_none_iff]
  | initialized absent here =>
      exact Or.inr (Or.inl ⟨OrdMap.length_insert_of_none absent _, _, _, rfl, absent, rfl, _,
        Or.inl here⟩)
  | spawned absent here =>
      exact Or.inr (Or.inl ⟨OrdMap.length_insert_of_none absent _, _, _, rfl, absent, rfl, _,
        Or.inr here⟩)
  | emptied here none => exact Or.inl ⟨rfl, fun _ => Iff.rfl⟩
  | stopping here first => exact Or.inl (inserted (find?_of_entries first) _)
  | failed here held alive _ => exact Or.inl ⟨rfl, fun _ => Iff.rfl⟩
  | removed here held dead =>
      rw [size, workers_afterStop]
      exact Or.inr (Or.inr ⟨OrdMap.length_erase held, _, _, held, rfl,
        Or.inl ⟨dead, _, _, here⟩⟩)
  | restored here held =>
      rw [size, workers_afterStop]
      exact Or.inl (inserted held _)
  | missed here absent =>
      rw [size, workers_afterStop]
      exact Or.inl ⟨rfl, fun _ => Iff.rfl⟩
  | returned here none => exact Or.inl ⟨rfl, fun _ => Iff.rfl⟩
  | joined here first _ =>
      have held := find?_of_entries first
      refine Or.inr (Or.inr ⟨OrdMap.length_erase held, _, _, held, rfl, Or.inr ?_⟩)
      rcases here with here | here
      · rw [here]
        rfl
      · rw [here]
        rfl
  | moved move held => exact Or.inl (inserted held _)

/-- A thread that is left behind stays, whatever is called but the stop and the join of
all threads. -/
theorem Stuck.run {pool : ThreadPool ω} {addr : Nat} (stuck : Stuck pool addr)
    (calm : Control.stopsAll pool.control = false) {acts : List (Action ω)}
    (keeps : ∀ a ∈ acts, KeepsThreads a) : Stuck (Base.run step pool acts) addr := by
  have along : Along step (fun _ a => KeepsThreads a) pool acts := along_of_forall keeps pool
  exact (Along.invariant (P := fun pool => Stuck pool addr ∧ Control.stopsAll pool.control = false)
    (fun pool a ⟨stuck, calm⟩ keeps =>
      ⟨stuck.next (step_next pool a) calm, (step_next pool a).stopsAll keeps calm⟩)
    ⟨stuck, calm⟩ along).1

/-- A thread that is left behind blocks those after it: while no thread is created
before it, the pool does not get smaller. -/
theorem Stuck.blocks {pool : ThreadPool ω} {addr : Nat} (stuck : Stuck pool addr)
    (sound : Sound pool) (calm : Control.stopsAll pool.control = false)
    (first : ∀ key, pool.workers.find? key ≠ none → addr ≤ key) {acts : List (Action ω)}
    (keeps : ∀ a ∈ acts, KeepsThreads a) (behind : ∀ key, .create key ∈ acts → addr ≤ key) :
    pool.size ≤ (Base.run step pool acts).size := by
  have along : Along step
      (fun _ a => KeepsThreads a ∧ ∀ key, a = .create key → addr ≤ key) pool acts :=
    along_of_forall (fun a inside => ⟨keeps a inside, fun key same => behind key (same ▸ inside)⟩)
      pool
  have grows := Along.invariant
    (P := fun (now : ThreadPool ω) => pool.size ≤ now.size ∧ Stuck now addr ∧ Sound now ∧
      Control.stopsAll now.control = false ∧ ∀ key, now.workers.find? key ≠ none → addr ≤ key)
    ?_ ⟨le_rfl, stuck, sound, calm, first⟩ along
  · exact grows.1
  · rintro now a ⟨larger, stuck, sound, calm, first⟩ ⟨keeps, behind⟩
    have next := step_next now a
    have rest := And.intro (stuck.next next calm) (And.intro (sound.next next)
      (next.stopsAll keeps calm))
    rcases next.size_cases with ⟨same, keys⟩ | ⟨more, key, worker, create, _, inserted, _⟩ |
      ⟨less, key, worker, held, _, stopped⟩
    · refine ⟨same ▸ larger, rest.1, rest.2.1, rest.2.2, fun key present => first key ?_⟩
      exact fun absent => present ((keys key).mpr absent)
    · refine ⟨by omega, rest.1, rest.2.1, rest.2.2, fun other present => ?_⟩
      rw [inserted, OrdMap.find?_insert] at present
      split at present
      · next here => exact here ▸ behind key create
      · exact first other present
    · -- The thread to be removed is the first one, which is stuck.
      exfalso
      rcases stopped with ⟨dead, r, old, here⟩ | all
      · obtain ⟨worker', present, _, alive⟩ := stuck
        have low := first key (fun absent => by rw [absent] at held; cases held)
        have high := sound.first (congrArg Control.target here) present
        obtain rfl := Nat.le_antisymm low high
        rw [present] at held
        obtain rfl := Option.some.inj held
        exact alive _ _ here dead
      · rw [calm] at all
        cases all

/-- In every run of a pool, a thread that has returned when no stop was about to see it stays,
whatever is called but the stop and the join of all threads; and while it is the first one and
no thread is created before it, the pool does not get smaller. -/
theorem stuck_for_good (poolSize : UInt32) {before acts : List (Action ω)} {addr : Nat}
    (stuck : Stuck (Base.run step (new poolSize) before) addr)
    (calm : Control.stopsAll (Base.run step (new poolSize) before).control = false)
    (keeps : ∀ a ∈ acts, KeepsThreads a) :
    let pool := Base.run step (new poolSize) before
    let after := Base.run step pool acts
    (∃ worker, after.workers.find? addr = some worker ∧ worker.thread = .finished) ∧
      ((∀ key, pool.workers.find? key ≠ none → addr ≤ key) →
        (∀ key, .create key ∈ acts → addr ≤ key) → pool.size ≤ after.size) := by
  intro pool after
  constructor
  · obtain ⟨worker, present, ended, _⟩ := stuck.run calm keeps
    exact ⟨worker, present, ended⟩
  · intro first behind
    exact stuck.blocks ((Sound.new poolSize).run before) calm first keeps behind

/-- A thread that has broken out of its loop keeps a pool of two from shrinking. -/
theorem stuck_for_good_two :
    2 ≤ (Base.run step (Base.run step (new 2 : ThreadPool Unit)
      [.call (.initThreads 2), .create 1, .create 2, .call .startThreads, .thread 1 (.look ()),
        .thread 1 (.look ()), .thread 1 .quit, .thread 1 (.look ())])
      [.call (.resizeThreads 1), .advance, .advance, .advance]).size := by
  have result := @stuck_for_good Unit 2
    [.call (.initThreads 2), .create 1, .create 2, .call .startThreads, .thread 1 (.look ()),
      .thread 1 (.look ()), .thread 1 .quit, .thread 1 (.look ())]
    [.call (.resizeThreads 1), .advance, .advance, .advance] 1
    ⟨⟨.kDead, .finished⟩, rfl, rfl, fun r old at' => (by cases at')⟩ rfl
    (by
      intro a inside
      simp only [List.mem_cons, List.not_mem_nil, or_false] at inside
      rcases inside with rfl | rfl | rfl | rfl
      · trivial
      · trivial
      · trivial
      · trivial)
  apply result.2
  · intro key present
    by_contra low
    obtain rfl : key = 0 := by omega
    exact present rfl
  · intro key inside
    simp only [List.mem_cons, List.not_mem_nil, or_false, reduceCtorEq] at inside

end Heracles.Utils.ThreadPool
