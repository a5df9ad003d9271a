import Heracles.Base.Runs
import Heracles.Business.EventHandler
import Heracles.Utils.EQueue

/-!
The handler in operation: callers of `add_event`, the linger timer, the
handler's own thread and the helper tasks it spawns, interleaved.

A `Pipeline` is a handler together with what is in flight around it: the clock,
the calls of `add_event` that have passed the tests and wait for the lock, the
point its thread has reached in `EventHandler::run`, and the tasks given to the
helper threads. Three histories are kept for statements about whole runs: the
reports accepted, the slots moved to the processing queue, and the slots passed
to `do_process_event`. Each `Act` is one step under one lock; `addEvent` is the
two halves of a call with nothing in between.
-/

namespace Heracles.Business

open Heracles.Base Heracles.Utils

/-- Where the handler thread stands in its loop. `queueSize` is the local copy
of `additional_process_step_size_` read at the top of the loop. -/
inductive RunPoint where
  | top
  | sizeCheck (queueSize : Int32)
  | bulkPop (queueSize : Int32)
  | singlePop
deriving DecidableEq

structure Pipeline where
  handler : EventHandler
  clock : Int64
  waiting : List EventReport
  thread : RunPoint
  tasks : List (List EventsByTime)
  accepted : List EventReport
  moved : List EventsByTime
  handed : List EventsByTime
deriving DecidableEq

inductive Act where
  /-- The clock shows `now`. -/
  | tick (now : Int64)
  /-- The first half of `add_event`: clock reading and tests. -/
  | check (ev : EventReport)
  /-- The second half: the `i`-th waiting call takes the lock and inserts. -/
  | insert (i : Nat)
  /-- Both halves in one step. -/
  | addEvent (ev : EventReport)
  | lingerCheck
  /-- The next queue operation of the handler thread. -/
  | run
  /-- A helper thread executes the `i`-th task not yet run. -/
  | runTask (i : Nat)
  /-- The configuration is replaced at run time. -/
  | reconf (conf : EventHandlerConf)
deriving DecidableEq

namespace Pipeline

/-- A handler just created, at clock `clock`. -/
def start (service entityIdx : Bytes) (conf : EventHandlerConf) (clock : Int64) : Pipeline :=
  ⟨.create service entityIdx conf, clock, [], .top, [], [], [], []⟩

/-- One queue operation of `EventHandler::run`. -/
def runThread (s : Pipeline) : Pipeline :=
  match s.thread with
  | .top => { s with thread := .sizeCheck s.handler.conf.additionalProcessStepSize }
  | .sizeCheck queueSize =>
      if s.handler.processQueue.length > sizeOfInt (2 * queueSize) then
        { s with thread := .bulkPop queueSize }
      else { s with thread := .singlePop }
  | .bulkPop queueSize =>
      let popped := EQueue.popMany (sizeOfInt queueSize) s.handler.processQueue
      -- `Pop support task failed`: leave the inner loop
      if popped.1 = [] then { s with thread := .singlePop }
      else { s with
        handler := { s.handler with processQueue := popped.2 }
        tasks := s.tasks ++ [popped.1]
        thread := .sizeCheck queueSize }
  | .singlePop =>
      match EQueue.pop s.handler.processQueue with
      | none => { s with thread := .top }
      | some (event, rest) => { s with
          handler := { s.handler with processQueue := rest }
          handed := s.handed ++ [event]
          thread := .top }

/-- The locked half of `add_event` for a report that passed the tests. -/
def accept (s : Pipeline) (ev : EventReport) : Pipeline :=
  { s with
    handler := s.handler.doAddEvent ev.timestamp ev.data
    accepted := s.accepted ++ [ev] }

def step (s : Pipeline) : Act → Pipeline
  | .tick now => { s with clock := now }
  | .check ev =>
      if s.handler.addEventCheck s.clock ev = 0 then { s with waiting := s.waiting ++ [ev] }
      else s
  | .insert i =>
      match s.waiting[i]? with
      | none => s
      | some ev => { s with waiting := s.waiting.eraseIdx i }.accept ev
  | .addEvent ev =>
      let result := s.handler.addEvent s.clock ev
      { s with
        handler := result.2
        accepted := if result.1 = 0 then s.accepted ++ [ev] else s.accepted }
  | .lingerCheck =>
      let result := s.handler.lingerCheckRun s.clock
      { s with handler := result.2, moved := s.moved ++ result.1 }
  | .run => s.runThread
  | .runTask i =>
      match s.tasks[i]? with
      | none => s
      | some task => { s with tasks := s.tasks.eraseIdx i, handed := s.handed ++ task }
  | .reconf conf => { s with handler := { s.handler with conf := conf } }

/-! ### What one step can do -/

/-- A call made in one step is refused without effect, or accepted. -/
theorem step_addEvent (s : Pipeline) (ev : EventReport) :
    step s (.addEvent ev) = if s.handler.addEventCheck s.clock ev = 0 then s.accept ev else s := by
  simp only [step, EventHandler.addEvent]
  split
  · simp [accept]
  · simp

/-- The three ways slots travel: one thread operation hands the oldest queued
slot on, bundles queued slots into a task, or moves none. -/
theorem runThread_cases (s : Pipeline) :
    (∃ point, s.runThread = { s with thread := point }) ∨
    (∃ point vec rest, vec ++ rest = s.handler.processQueue ∧ s.runThread =
      { s with handler := { s.handler with processQueue := rest }, tasks := s.tasks ++ [vec],
               thread := point }) ∨
    (∃ event rest, [event] ++ rest = s.handler.processQueue ∧ s.runThread =
      { s with handler := { s.handler with processQueue := rest },
               handed := s.handed ++ [event], thread := .top }) := by
  unfold runThread
  cases point : s.thread with
  | top => exact .inl ⟨_, rfl⟩
  | sizeCheck queueSize =>
      refine .inl ?_
      dsimp only
      split
      · exact ⟨_, rfl⟩
      · exact ⟨_, rfl⟩
  | bulkPop queueSize =>
      dsimp only
      split
      · exact .inl ⟨_, rfl⟩
      · exact .inr (.inl ⟨_, _, _, EQueue.popMany_append _ _, rfl⟩)
  | singlePop =>
      cases queue : s.handler.processQueue with
      | nil => exact .inl ⟨.top, by simp [EQueue.pop]⟩
      | cons event rest => exact .inr (.inr ⟨event, rest, rfl, by simp [EQueue.pop]⟩)

/-- Nothing changed on the side where reports come in. -/
structure SameIntake (s t : Pipeline) : Prop where
  events : t.handler.events = s.handler.events
  conf : t.handler.conf = s.handler.conf
  number : t.handler.nextId = s.handler.nextId
  clock : t.clock = s.clock
  waiting : t.waiting = s.waiting
  accepted : t.accepted = s.accepted
  moved : t.moved = s.moved

/-- The consumers leave the intake alone. -/
theorem sameIntake_run (s : Pipeline) : SameIntake s (step s .run) := by
  rcases s.runThread_cases with ⟨_, same⟩ | ⟨_, _, _, _, same⟩ | ⟨_, _, _, same⟩ <;>
    simp only [step, same] <;> exact ⟨rfl, rfl, rfl, rfl, rfl, rfl, rfl⟩

theorem sameIntake_runTask (s : Pipeline) (i : Nat) : SameIntake s (step s (.runTask i)) := by
  simp only [step]
  split <;> exact ⟨rfl, rfl, rfl, rfl, rfl, rfl, rfl⟩

end Pipeline

end Heracles.Business
