import Heracles.Utils.Fifo

/-!
The helper tasks.

A thread of its own pops as many queued tasks as may be spawned, starts each in a
thread and joins them all. Starting waits while that many threads exist, and
nothing ends the wait; since a round starts with no threads, that matters only
where the limit is zero. The limit is an `int` in the configuration, a `uint8_t`
parameter and a `uint32_t` member, and `never_stuck_iff` says which of the sizes
that are accepted reach the end of this way as zero.
-/

namespace Heracles.Utils

open Heracles.Base

variable {τ : Type}

/-- The threads of the tasks of a round, in the order in which they were started. -/
structure ThreadMng (τ : Type) where
  maxSpawnTask : UInt32
  threads : List τ

/-- `add_task`; `none` while it waits. -/
def ThreadMng.addTask (m : ThreadMng τ) (run : τ) : Option (ThreadMng τ) :=
  if m.threads.length ≥ m.maxSpawnTask.toNat then none
  else some { m with threads := m.threads ++ [run] }

/-- `join_all`, when all tasks have come to their end. -/
def ThreadMng.joinAll (m : ThreadMng τ) : ThreadMng τ := { m with threads := [] }

/-- Where an iteration of `run` is: before `POP`, in the loop with these tasks still to
be started, before `join_all`. -/
inductive TinyTask.Phase (τ : Type) where
  | popping
  | starting (rest : List τ)
  | joining

/-- The helper. `added` and `started` are its history: the tasks that were queued and
those that got a thread, each in order. -/
structure TinyTask (τ : Type) where
  maxSpawnTask : UInt32
  threadMng : ThreadMng τ
  tasks : List τ
  phase : TinyTask.Phase τ
  added : List τ
  started : List τ

namespace TinyTask

/-- The constructor, with its thread running. -/
def new (maxSpawnTask : UInt8) : TinyTask τ where
  maxSpawnTask := maxSpawnTask.toUInt32
  threadMng := ⟨maxSpawnTask.toUInt32, []⟩
  tasks := []
  phase := .popping
  added := []
  started := []

/-- The helper that `EventRepos::init` makes. -/
def supportTaskHelper (supportProcessTaskSize : Int32) : Option (TinyTask τ) :=
  if supportProcessTaskSize ≤ 0 then none
  else some (new supportProcessTaskSize.toUInt32.toUInt8)

def addAdditionalTask (s : TinyTask τ) (func : τ) : TinyTask τ :=
  { s with tasks := s.tasks ++ [func], added := s.added ++ [func] }

/-- The next move of `run`. A `POP` that times out and an `add_task` that waits leave
everything as it is. -/
def advance (s : TinyTask τ) : TinyTask τ :=
  match s.phase with
  | .popping =>
      let (count, tasks, left) := EQueue.popInto [] s.maxSpawnTask.toNat s.tasks
      if count = 0 then s else { s with tasks := left, phase := .starting tasks }
  | .starting [] => { s with phase := .joining }
  | .starting (func :: rest) =>
      match s.threadMng.addTask func with
      | none => s
      | some threadMng =>
          { s with threadMng := threadMng, phase := .starting rest, started := s.started ++ [func] }
  | .joining => { s with threadMng := s.threadMng.joinAll, phase := .popping }

inductive Action (τ : Type) where
  | add (func : τ)
  | advance

def step (s : TinyTask τ) : Action τ → TinyTask τ
  | .add func => s.addAdditionalTask func
  | .advance => s.advance

/-! ### What is claimed -/

/-- `add_task` is called with no room for another thread. -/
def Waiting (s : TinyTask τ) : Prop :=
  ∃ func rest, s.phase = .starting (func :: rest) ∧
    ¬ s.threadMng.threads.length < s.threadMng.maxSpawnTask.toNat

/-- The tasks that are popped and not yet started. -/
def round (s : TinyTask τ) : List τ :=
  match s.phase with
  | .starting rest => rest
  | _ => []

/-- The tasks that were started, are popped and are queued are those that were added,
in order. -/
def InOrder (s : TinyTask τ) : Prop := s.started ++ s.round ++ s.tasks = s.added

/-- The thread gets on until it has started every task. -/
def Finishes (s : TinyTask τ) : Prop :=
  ∃ moves, (run step s (List.replicate moves .advance)).started = s.added

/-- In every state that a sequence of added tasks and moves leads to, `add_task` does
not wait, every task is started once and in order, and all of them are. -/
def NeverStuck (s : TinyTask τ) : Prop :=
  ∀ actions : List (Action τ), ¬ (run step s actions).Waiting ∧ (run step s actions).InOrder ∧
    (run step s actions).Finishes

/-! ### One move -/

/-- The threads of a round and the tasks it has still to start are within the limit,
which is positive; between rounds there are no threads. -/
structure Room (s : TinyTask τ) : Prop where
  positive : 1 ≤ s.maxSpawnTask.toNat
  same : s.threadMng.maxSpawnTask = s.maxSpawnTask
  between : s.phase = .popping → s.threadMng.threads = []
  within : s.threadMng.threads.length + s.round.length ≤ s.maxSpawnTask.toNat
  order : s.InOrder

theorem Room.not_waiting {s : TinyTask τ} (room : Room s) : ¬ s.Waiting := by
  rintro ⟨func, rest, starting, full⟩
  have within := room.within
  rw [round, starting] at within
  rw [room.same] at full
  simp only [List.length_cons] at within
  omega

theorem Room.add {s : TinyTask τ} (room : Room s) (func : τ) : Room (s.addAdditionalTask func) where
  positive := room.positive
  same := room.same
  between := room.between
  within := room.within
  order := by
    have order := room.order
    unfold InOrder at order ⊢
    simp only [addAdditionalTask, ← order]
    exact (List.append_assoc _ _ _).symm

/-- A `POP` that finds tasks starts a round. -/
theorem Room.pop {s : TinyTask τ} (room : Room s) (popping : s.phase = .popping)
    (queued : s.tasks ≠ []) :
    ∃ tasks left, tasks ≠ [] ∧ tasks ++ left = s.tasks ∧
      s.advance = { s with tasks := left, phase := .starting tasks } ∧ Room s.advance := by
  have many : 1 ≤ (EQueue.popMany s.maxSpawnTask.toNat s.tasks).1.length ∧
      (EQueue.popMany s.maxSpawnTask.toNat s.tasks).1.length ≤ s.maxSpawnTask.toNat := by
    rcases EQueue.pops_bulk [] room.positive s.tasks with ⟨none, _⟩ | ⟨_, _, _, low, high, popped⟩
    · exact absurd none queued
    · rw [EQueue.popInto] at popped
      obtain ⟨length, _⟩ := Prod.mk.inj popped
      exact ⟨by omega, by omega⟩
  have split := EQueue.popMany_append s.maxSpawnTask.toNat s.tasks
  have moved : s.advance = { s with
      tasks := (EQueue.popMany s.maxSpawnTask.toNat s.tasks).2
      phase := .starting (EQueue.popMany s.maxSpawnTask.toNat s.tasks).1 } := by
    simp only [advance, popping, EQueue.popInto, List.nil_append]
    exact if_neg (by omega)
  refine ⟨_, _, ?_, split, moved, ?_⟩
  · exact List.ne_nil_of_length_pos many.1
  · have order := room.order
    rw [InOrder, round, popping] at order
    rw [moved]
    refine ⟨room.positive, room.same, (fun popping => by cases popping), ?_, ?_⟩
    · simp only [round, room.between popping, List.length_nil, Nat.zero_add]
      exact many.2
    · simp only [InOrder, round, List.append_assoc, split]
      simpa only [List.append_nil] using order

/-- In a round there is room for the thread of its next task. -/
theorem Room.start {s : TinyTask τ} (room : Room s) {func : τ} {rest : List τ}
    (starting : s.phase = .starting (func :: rest)) :
    s.advance = { s with
        threadMng := { s.threadMng with threads := s.threadMng.threads ++ [func] }
        phase := .starting rest
        started := s.started ++ [func] } ∧
      Room s.advance := by
  have within := room.within
  rw [round, starting] at within
  simp only [List.length_cons] at within
  have moved : s.advance = { s with
      threadMng := { s.threadMng with threads := s.threadMng.threads ++ [func] }
      phase := .starting rest
      started := s.started ++ [func] } := by
    have notFull : ¬ s.threadMng.threads.length ≥ s.threadMng.maxSpawnTask.toNat := by
      rw [room.same]
      omega
    simp only [advance, starting, ThreadMng.addTask, if_neg notFull]
  refine ⟨moved, ?_⟩
  rw [moved]
  refine ⟨room.positive, room.same, nofun, ?_, ?_⟩
  · simp only [round, List.length_append, List.length_singleton]
    omega
  · have order := room.order
    rw [InOrder, round, starting] at order
    rw [InOrder, round, ← order]
    simp only [List.append_assoc, List.cons_append, List.nil_append]

/-- A round ends in two moves. -/
theorem Room.join {s : TinyTask τ} (room : Room s) (starting : s.phase = .starting []) :
    s.advance.advance = { s with threadMng := s.threadMng.joinAll, phase := .popping } ∧
      Room s.advance ∧ Room s.advance.advance := by
  have first : s.advance = { s with phase := .joining } := by
    simp only [advance, starting]
  have second : s.advance.advance =
      { s with threadMng := s.threadMng.joinAll, phase := .popping } := by
    rw [first]
    rfl
  have within := room.within
  have order := room.order
  rw [round, starting] at within
  rw [InOrder, round, starting] at order
  refine ⟨second, ?_, ?_⟩
  · rw [first]
    exact ⟨room.positive, room.same, nofun, within, order⟩
  · rw [second]
    exact ⟨room.positive, room.same, fun _ => rfl, Nat.zero_le _, order⟩

theorem Room.advance {s : TinyTask τ} (room : Room s) : Room s.advance := by
  cases phase : s.phase with
  | popping =>
      by_cases none : s.tasks = []
      · have idle : s.advance = s := by
          simp only [TinyTask.advance, phase, EQueue.popInto, none, EQueue.popMany,
            List.length_nil, if_true]
        rw [idle]
        exact room
      · obtain ⟨_, _, _, _, _, next⟩ := room.pop phase none
        exact next
  | starting rest =>
      cases rest with
      | nil => exact (room.join phase).2.1
      | cons func rest => exact (room.start phase).2
  | joining =>
      have order := room.order
      rw [InOrder, round, phase] at order
      simp only [TinyTask.advance, phase]
      exact ⟨room.positive, room.same, fun _ => rfl, Nat.zero_le _, order⟩

theorem Room.step {s : TinyTask τ} (room : Room s) (a : Action τ) : Room (s.step a) := by
  cases a with
  | add func => exact room.add func
  | advance => exact room.advance

/-! ### All tasks are started -/

/-- The state after so many moves. -/
def moves (s : TinyTask τ) (n : Nat) : TinyTask τ := run step s (List.replicate n .advance)

theorem moves_succ (s : TinyTask τ) (n : Nat) : s.moves (n + 1) = s.advance.moves n := rfl

theorem moves_add (s : TinyTask τ) (m n : Nat) : s.moves (m + n) = (s.moves m).moves n := by
  rw [moves, List.replicate_add, run_append]
  rfl

/-- A round that has begun starts all its tasks and comes back to `POP`. -/
theorem Room.finish_round {s : TinyTask τ} {rest : List τ} (room : Room s)
    (starting : s.phase = .starting rest) :
    ∃ n, (s.moves n).phase = .popping ∧ (s.moves n).tasks = s.tasks ∧
      (s.moves n).added = s.added ∧ Room (s.moves n) := by
  induction rest generalizing s with
  | nil =>
      obtain ⟨joined, _, next⟩ := room.join starting
      refine ⟨2, ?_⟩
      rw [moves_succ, moves_succ]
      change s.advance.advance.phase = _ ∧ s.advance.advance.tasks = _ ∧
        s.advance.advance.added = _ ∧ Room s.advance.advance
      rw [joined] at next ⊢
      exact ⟨rfl, rfl, rfl, next⟩
  | cons func rest ih =>
      obtain ⟨started, next⟩ := room.start starting
      obtain ⟨n, popping, tasks, added, later⟩ := ih next (by rw [started])
      refine ⟨n + 1, ?_⟩
      rw [moves_succ]
      exact ⟨popping, by rw [tasks, started], by rw [added, started], later⟩

/-- Round after round the queue gets shorter. -/
theorem Room.finish_queue {s : TinyTask τ} (room : Room s) (popping : s.phase = .popping) :
    s.Finishes := by
  induction length : s.tasks.length using Nat.strongRecOn generalizing s with
  | ind k ih =>
      by_cases none : s.tasks = []
      · refine ⟨0, ?_⟩
        have order := room.order
        rw [InOrder, round, popping, none] at order
        change s.started = s.added
        simpa only [List.append_nil] using order
      · obtain ⟨tasks, left, some, split, moved, next⟩ := room.pop popping none
        have starting : s.advance.phase = .starting tasks := by rw [moved]
        obtain ⟨n, again, same, added, later⟩ := next.finish_round starting
        have shorter : left.length < k := by
          have positive := List.length_pos_iff.mpr some
          have lengths := congrArg List.length split
          rw [List.length_append] at lengths
          omega
        have queue : (s.advance.moves n).tasks = left := by rw [same, moved]
        obtain ⟨m, finished⟩ := ih left.length shorter later again (by rw [queue])
        refine ⟨1 + n + m, ?_⟩
        change (s.moves (1 + n + m)).started = s.added
        rw [Nat.add_comm 1 n, moves_add, moves_succ]
        change ((s.advance.moves n).moves m).started = _ at finished
        rw [finished, added, moved]

theorem Finishes.of_moves {s : TinyTask τ} {n : Nat} (finishes : (s.moves n).Finishes)
    (same : (s.moves n).added = s.added) : s.Finishes := by
  obtain ⟨m, finished⟩ := finishes
  refine ⟨n + m, ?_⟩
  change (s.moves (n + m)).started = s.added
  rw [moves_add, ← same]
  exact finished

theorem Room.finishes {s : TinyTask τ} (room : Room s) : s.Finishes := by
  cases phase : s.phase with
  | popping => exact room.finish_queue phase
  | starting rest =>
      obtain ⟨n, popping, _, added, later⟩ := room.finish_round phase
      exact (later.finish_queue popping).of_moves added
  | joining =>
      have joined : s.moves 1 = { s with threadMng := s.threadMng.joinAll, phase := .popping } := by
        change s.advance = _
        simp only [TinyTask.advance, phase]
      have later : Room (s.moves 1) := room.advance
      refine (later.finish_queue ?_).of_moves (n := 1) ?_
      · rw [joined]
      · rw [joined]

/-! ### Whole runs -/

theorem room_new {maxSpawnTask : UInt8} (positive : maxSpawnTask ≠ 0) :
    Room (new (τ := τ) maxSpawnTask) where
  positive := by
    have some : maxSpawnTask.toNat ≠ 0 := fun none => positive (UInt8.toNat_inj.mp none)
    simp only [new, UInt8.toNat_toUInt32]
    omega
  same := rfl
  between _ := rfl
  within := Nat.zero_le _
  order := rfl

/-- A positive size becomes a zero limit when 256 divides it. -/
theorem limit_eq_zero_iff {size : Int32} (positive : ¬ size ≤ 0) :
    size.toUInt32.toUInt8 = 0 ↔ (256 : Int) ∣ size.toInt := by
  have above : 0 < size.toInt := by
    rw [Int32.le_iff_toInt_le, Int32.toInt_zero] at positive
    omega
  have word : (size.toUInt32.toNat : Int) = size.toInt := by
    rw [Int32.toNat_toUInt32_of_le (by rw [Int32.le_iff_toInt_le, Int32.toInt_zero]; omega)]
    exact Int.toNat_of_nonneg above.le
  rw [← UInt8.toNat_inj, UInt32.toNat_toUInt8, UInt8.toNat_zero]
  omega

/-- The helper that is made for an accepted size never gets stuck exactly when 256
does not divide the size. -/
theorem never_stuck_iff [Inhabited τ] (supportProcessTaskSize : Int32) (s : TinyTask τ)
    (made : supportTaskHelper supportProcessTaskSize = some s) :
    s.NeverStuck ↔ ¬ (256 : Int) ∣ supportProcessTaskSize.toInt := by
  unfold supportTaskHelper at made
  split at made
  · cases made
  · next accepted =>
      obtain rfl := Option.some.inj made
      rw [← limit_eq_zero_iff accepted]
      constructor
      · intro never zero
        rw [zero] at never
        -- the one task that is popped all the same finds no room
        refine (never [.add default, .advance]).1 ⟨default, [], rfl, ?_⟩
        exact Nat.lt_irrefl 0
      · intro positive actions
        have room := run_invariant (P := Room) (fun _ a room => Room.step room a)
          (room_new (τ := τ) positive) actions
        exact ⟨room.not_waiting, room.order, room.finishes⟩

theorem never_stuck_iff_three : NeverStuck (new (τ := Nat) (3 : Int32).toUInt32.toUInt8) :=
  (never_stuck_iff 3 _ (if_neg (by decide))).mpr (by decide)

/-- With a size of 256 the first task is popped and waits for ever. -/
theorem stuck_at_256 :
    ¬ ∀ (supportProcessTaskSize : Int32) (s : TinyTask Nat),
      supportTaskHelper supportProcessTaskSize = some s → s.NeverStuck := by
  intro always
  refine (always 256 (new (256 : Int32).toUInt32.toUInt8) (if_neg (by decide))
    [.add 0, .advance]).1 ⟨0, [], rfl, ?_⟩
  exact Nat.lt_irrefl 0

end TinyTask

end Heracles.Utils
