import Heracles.Base.Runs
import Heracles.Business.EventTypes
import Heracles.Utils.EQueue

/-!
The reporting side of the client.

`reportEvent` collects events of one second in `current_slot_` and pushes them as
a report when the slot is full or the second has changed. `Sender` is the client
with its submit thread: the iterations of `run` are taken apart into the steps
between which other threads can report, and every reading of the clock is the
action's own.
-/

namespace Heracles.Client

open Heracles.Base
open Heracles.Business
open Heracles.Utils

/-- `size_per_report` is only ever set to a positive number. -/
structure HeraclesClientConf where
  reportEnabled : Bool
  sizePerReport : Int32
  positive : 0 < sizePerReport

structure HeraclesClientImpl where
  conf : HeraclesClientConf
  service : Bytes
  entityIdx : Bytes
  msgid : Int64
  currentTime : Int64
  currentSlot : List EventData
  submitQueue : List EventReport

namespace HeraclesClientImpl

def fresh (conf : HeraclesClientConf) (service entityIdx : Bytes) : HeraclesClientImpl where
  conf := conf
  service := service
  entityIdx := entityIdx
  msgid := 0
  currentTime := 0
  currentSlot := []
  submitQueue := []

/-- The slot is full, or belongs to another second. -/
def Due (c : HeraclesClientImpl) (now : Int64) : Prop :=
  c.conf.sizePerReport.toInt ≤ c.currentSlot.length ∨ now ≠ c.currentTime

instance (c : HeraclesClientImpl) (now : Int64) : Decidable (c.Due now) :=
  inferInstanceAs (Decidable (_ ∨ _))

/-- The report a `report_event` at `now` pushes, if it pushes one. -/
def flushed (c : HeraclesClientImpl) (now : Int64) : List EventReport :=
  if c.Due now ∧ c.currentSlot ≠ [] then
    [⟨c.currentTime, c.service, c.entityIdx, c.currentSlot⟩]
  else []

/-- The slot is swapped into the report that is pushed. -/
def flush (c : HeraclesClientImpl) (now : Int64) : HeraclesClientImpl :=
  { c with
    currentSlot := if c.Due now then [] else c.currentSlot
    submitQueue := c.submitQueue ++ c.flushed now }

/-- The identifiers start again when a new second finds them beyond 32 bits. -/
def restartMsgid (c : HeraclesClientImpl) (now : Int64) : Int64 :=
  if now ≠ c.currentTime then (if 2147483647 ≤ c.msgid then 0 else c.msgid) + 1 else c.msgid

/-- `report_event`; an empty metric only makes a slot that is due go out. -/
def reportEvent (c : HeraclesClientImpl) (metric : Bytes) (value : Int64) (tag : Bytes)
    (now : Int64) : HeraclesClientImpl :=
  if ¬c.conf.reportEnabled then c
  else
    let c := { c with msgid := c.msgid + 1 }
    let c := c.flush now
    let c := { c with msgid := c.restartMsgid now, currentTime := now }
    if metric = [] then c
    else { c with currentSlot := c.currentSlot ++ [⟨c.msgid, metric, tag, value⟩] }

def reportEmptyEvent (c : HeraclesClientImpl) (now : Int64) : HeraclesClientImpl :=
  c.reportEvent [] 0 (bytes "T") now

end HeraclesClientImpl

/-- Where an iteration of `run` is: before `POP`, after one that timed out, with a
report for `do_report`, behind it, before the second flush, before the size
check, before `SHRINK_FRONT`. -/
inductive Stage where
  | popping
  | idle
  | submitting (report : EventReport) (start : Int64)
  | submitted (start : Int64)
  | late
  | measuring
  | shrinking

/-- The report that has been popped and not yet given to `do_report`. -/
def Stage.inFlight : Stage → List EventReport
  | .submitting report _ => [report]
  | _ => []

/-- How a report has left the queue. -/
inductive Removal where
  | popped
  | shrunk
  deriving DecidableEq

/-- The client with its submit thread. `pushed` are all reports ever pushed,
`removed` those that have left the queue, `reported` those given to `do_report`,
each oldest first. -/
structure Sender where
  client : HeraclesClientImpl
  stage : Stage
  pushed : List EventReport
  removed : List (EventReport × Removal)
  reported : List EventReport

namespace Sender

def fresh (conf : HeraclesClientConf) (service entityIdx : Bytes) : Sender where
  client := HeraclesClientImpl.fresh conf service entityIdx
  stage := .popping
  pushed := []
  removed := []
  reported := []

inductive Action where
  | reportEvent (metric : Bytes) (value : Int64) (tag : Bytes) (now : Int64)
  | pop (start : Int64)
  | doReport
  | compareTime (now : Int64)
  | reportEmptyEvent (now : Int64)
  | checkSize (limit : Nat)
  | shrinkFront (limit : Nat)

/-- A call of `report_event` by any thread. -/
def report (s : Sender) (metric : Bytes) (value : Int64) (tag : Bytes) (now : Int64) : Sender :=
  { s with
    client := s.client.reportEvent metric value tag now
    pushed := s.pushed ++ if s.client.conf.reportEnabled then s.client.flushed now else [] }

/-- One step of `run`; an action that is not the next one leaves the state alone. -/
def step (s : Sender) (a : Action) : Sender :=
  match a, s.stage with
  | .reportEvent metric value tag now, _ => s.report metric value tag now
  | .pop start, .popping =>
      match EQueue.pop s.client.submitQueue with
      | none => { s with stage := .idle }
      | some (report, queue) =>
          { s with
            client := { s.client with submitQueue := queue }
            stage := .submitting report start
            removed := s.removed ++ [(report, .popped)] }
  | .doReport, .submitting report start =>
      { s with stage := .submitted start, reported := s.reported ++ [report] }
  | .compareTime now, .submitted start =>
      { s with stage := if now ≠ start then .late else .measuring }
  | .reportEmptyEvent now, .idle => { s.report [] 0 (bytes "T") now with stage := .popping }
  | .reportEmptyEvent now, .late => { s.report [] 0 (bytes "T") now with stage := .measuring }
  | .checkSize limit, .measuring =>
      { s with
        stage := if limit ≠ 0 ∧ limit < s.client.submitQueue.length then .shrinking else .popping }
  | .shrinkFront limit, .shrinking =>
      { s with
        client :=
          { s.client with submitQueue := EQueue.shrinkFront limit s.client.submitQueue }
        stage := .popping
        removed := s.removed ++
          (EQueue.shrunk limit s.client.submitQueue).map fun report => (report, .shrunk) }
  | _, _ => s

end Sender

end Heracles.Client
