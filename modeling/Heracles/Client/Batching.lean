import Heracles.Client.HeraclesClient

/-!
Batching loses and reorders nothing.

`Batched` is the invariant: stamped with the times of their reports, the events
pushed and those still in the slot are the events of the calls, in order; every
report holds between one event and a full slot; the queue is what was pushed and
has not been removed, and what was popped is what went to `do_report`.
-/

namespace Heracles.Client

open Heracles.Base
open Heracles.Business
open Heracles.Utils

/-- An event with the second it belongs to. -/
structure Stamped where
  second : Int64
  metric : Bytes
  tag : Bytes
  value : Int64
  deriving DecidableEq

def stamp (second : Int64) (event : EventData) : Stamped :=
  ⟨second, event.metric, event.tag, event.value⟩

/-- The events of a report, at its timestamp. -/
def stamps (report : EventReport) : List Stamped := report.data.map (stamp report.timestamp)

namespace Sender

/-- The event of a call, at the second its clock reads. -/
def Action.event : Action → List Stamped
  | .reportEvent metric value tag now => if metric = [] then [] else [⟨now, metric, tag, value⟩]
  | _ => []

/-- All events reported so far: those pushed and those still in the slot. -/
def stampedEvents (s : Sender) : List Stamped :=
  s.pushed.flatMap stamps ++ s.client.currentSlot.map (stamp s.client.currentTime)

/-- What leaves the queue through `SHRINK_FRONT` in this step is its oldest
part, with exactly the limit left. -/
def ShrinksToLimit (s : Sender) (a : Action) : Prop :=
  ∀ gone, gone ≠ [] →
    (s.step a).removed = s.removed ++ gone.map (fun report => (report, Removal.shrunk)) →
    s.client.submitQueue = gone ++ (s.step a).client.submitQueue ∧
      a = .shrinkFront (s.step a).client.submitQueue.length

structure Batched (s : Sender) : Prop where
  enabled : s.client.conf.reportEnabled = true
  full : s.client.currentSlot.length ≤ s.client.conf.sizePerReport.toInt
  sized : ∀ report ∈ s.pushed,
    report.data ≠ [] ∧ report.data.length ≤ s.client.conf.sizePerReport.toInt
  queued : s.pushed = s.removed.map Prod.fst ++ s.client.submitQueue
  popped : (s.removed.filter fun removal => removal.2 = Removal.popped).map Prod.fst =
    s.reported ++ s.stage.inFlight

/-! ### Reporting an event -/

theorem positive_size (conf : HeraclesClientConf) : 0 < conf.sizePerReport.toInt :=
  Int32.lt_iff_toInt_lt.mp conf.positive

/-- The slot that goes out has the time of its events. -/
theorem stamps_flushed {c : HeraclesClientImpl} {now : Int64} (same : ¬c.Due now → now = c.currentTime) :
    (c.flushed now).flatMap stamps ++ (c.flush now).currentSlot.map (stamp now) =
      c.currentSlot.map (stamp c.currentTime) := by
  rw [HeraclesClientImpl.flushed, HeraclesClientImpl.flush]
  by_cases due : c.Due now
  · by_cases empty : c.currentSlot = []
    · simp [due, empty]
    · simp [due, empty, stamps]
  · simp [due, ← same due]

theorem flush_length {c : HeraclesClientImpl} (now : Int64) :
    ((c.flush now).currentSlot.length : Int) < c.conf.sizePerReport.toInt := by
  have positive := positive_size c.conf
  rw [HeraclesClientImpl.flush]
  by_cases due : c.Due now
  · simpa [due] using positive
  · have few := (not_or.mp due).1
    simp only [if_neg due]
    omega

/-- The identifier the event of a call gets. -/
def nextMsgid (c : HeraclesClientImpl) (now : Int64) : Int64 :=
  HeraclesClientImpl.restartMsgid { c with msgid := c.msgid + 1 } now

theorem reportEvent_eq {c : HeraclesClientImpl} (enabled : c.conf.reportEnabled = true)
    (metric : Bytes) (value : Int64) (tag : Bytes) (now : Int64) :
    c.reportEvent metric value tag now =
      { c.flush now with
        msgid := nextMsgid c now
        currentTime := now
        currentSlot := (c.flush now).currentSlot ++
          if metric = [] then [] else [⟨nextMsgid c now, metric, tag, value⟩] } := by
  rw [HeraclesClientImpl.reportEvent, if_neg (not_not.mpr enabled)]
  by_cases empty : metric = []
  · simp only [if_pos empty, List.append_nil]
    rfl
  · simp only [if_neg empty]
    rfl

/-- A call leaves at most a full slot behind. -/
theorem length_reportEvent_le {c : HeraclesClientImpl} (enabled : c.conf.reportEnabled = true)
    (metric : Bytes) (value : Int64) (tag : Bytes) (now : Int64) :
    ((c.reportEvent metric value tag now).currentSlot.length : Int) ≤
      c.conf.sizePerReport.toInt := by
  have room := @flush_length c now
  rw [reportEvent_eq enabled, List.length_append]
  split
  · simp only [List.length_nil]
    omega
  · simp only [List.length_singleton]
    omega

/-- Reporting an event appends it to all events, at the second of the call. -/
theorem stampedEvents_report {s : Sender} (enabled : s.client.conf.reportEnabled = true)
    (metric : Bytes) (value : Int64) (tag : Bytes) (now : Int64) :
    (s.report metric value tag now).stampedEvents =
      s.stampedEvents ++ (if metric = [] then [] else [⟨now, metric, tag, value⟩]) := by
  have same : ¬s.client.Due now → now = s.client.currentTime := by
    intro quiet
    exact not_not.mp (not_or.mp quiet).2
  have kept := stamps_flushed same
  rw [stampedEvents, stampedEvents, report, ← kept]
  rw [reportEvent_eq enabled]
  simp only [enabled, if_true, List.flatMap_append, List.map_append]
  split
  · simp
  · simp [stamp]

theorem Batched.report {s : Sender} (batched : Batched s) (metric : Bytes) (value : Int64)
    (tag : Bytes) (now : Int64) : Batched (s.report metric value tag now) := by
  have full := length_reportEvent_le batched.enabled metric value tag now
  rw [reportEvent_eq batched.enabled] at full
  rw [Sender.report, reportEvent_eq batched.enabled]
  constructor
  · exact batched.enabled
  · exact full
  · intro report member
    rcases List.mem_append.mp member with old | new
    · exact batched.sized report old
    · rw [if_pos batched.enabled, HeraclesClientImpl.flushed] at new
      split at new
      · next pushes =>
          rw [List.mem_singleton.mp new]
          exact ⟨pushes.2, batched.full⟩
      · cases new
  · rw [if_pos batched.enabled, batched.queued, List.append_assoc]
    rfl
  · exact batched.popped

/-! ### The submit thread -/

theorem map_fst_shrunk (gone : List EventReport) :
    (gone.map fun report => (report, Removal.shrunk)).map Prod.fst = gone := by
  rw [List.map_map]
  exact List.map_id _

/-- A step of the submit thread between the queue operations. -/
theorem Batched.advance {s : Sender} (batched : Batched s) (stage : Stage)
    (inFlight : stage.inFlight = s.stage.inFlight) : Batched { s with stage := stage } :=
  ⟨batched.enabled, batched.full, batched.sized, batched.queued,
    by rw [inFlight]; exact batched.popped⟩

theorem Batched.step {s : Sender} (batched : Batched s) (a : Action) : Batched (s.step a) := by
  cases a with
  | reportEvent metric value tag now => exact batched.report metric value tag now
  | pop start =>
      cases stage : s.stage with
      | popping =>
          simp only [Sender.step, stage]
          cases queue : s.client.submitQueue with
          | nil => exact batched.advance .idle (by rw [stage]; rfl)
          | cons report rest =>
              have queued := batched.queued
              have popped := batched.popped
              rw [queue] at queued
              rw [stage] at popped
              simp only [EQueue.pop]
              refine ⟨batched.enabled, batched.full, batched.sized, ?_, ?_⟩
              · simp [queued]
              · simp only [List.filter_append, List.map_append, popped]
                simp [Stage.inFlight]
      | _ => simpa only [Sender.step, stage] using batched
  | doReport =>
      cases stage : s.stage with
      | submitting report start =>
          simp only [Sender.step, stage]
          have popped := batched.popped
          rw [stage] at popped
          refine ⟨batched.enabled, batched.full, batched.sized, batched.queued, ?_⟩
          rw [popped]
          simp [Stage.inFlight]
      | _ => simpa only [Sender.step, stage] using batched
  | compareTime now =>
      cases stage : s.stage with
      | submitted start =>
          simp only [Sender.step, stage]
          refine batched.advance _ ?_
          rw [stage]
          split
          · rfl
          · rfl
      | _ => simpa only [Sender.step, stage] using batched
  | reportEmptyEvent now =>
      cases stage : s.stage with
      | idle =>
          simp only [Sender.step, stage]
          refine (batched.report [] 0 (bytes "T") now).advance .popping ?_
          change _ = s.stage.inFlight
          rw [stage]
          rfl
      | late =>
          simp only [Sender.step, stage]
          refine (batched.report [] 0 (bytes "T") now).advance .measuring ?_
          change _ = s.stage.inFlight
          rw [stage]
          rfl
      | _ => simpa only [Sender.step, stage] using batched
  | checkSize limit =>
      cases stage : s.stage with
      | measuring =>
          simp only [Sender.step, stage]
          refine batched.advance _ ?_
          rw [stage]
          split
          · rfl
          · rfl
      | _ => simpa only [Sender.step, stage] using batched
  | shrinkFront limit =>
      cases stage : s.stage with
      | shrinking =>
          simp only [Sender.step, stage]
          have popped := batched.popped
          rw [stage] at popped
          refine ⟨batched.enabled, batched.full, batched.sized, ?_, ?_⟩
          · rw [List.map_append, map_fst_shrunk, List.append_assoc, EQueue.shrunk_append]
            exact batched.queued
          · simp only [List.filter_append, List.map_append, popped]
            simp [Stage.inFlight, List.filter_map]
      | _ => simpa only [Sender.step, stage] using batched

theorem conf_reportEvent (c : HeraclesClientImpl) (metric : Bytes) (value : Int64) (tag : Bytes)
    (now : Int64) : (c.reportEvent metric value tag now).conf = c.conf := by
  rw [HeraclesClientImpl.reportEvent]
  split
  · rfl
  · simp only
    split
    · rfl
    · rfl

/-- What a step is: a call of `report_event`, or a step that touches neither the
slot nor what has been pushed. -/
theorem step_cases (s : Sender) (a : Action) :
    (∃ metric value tag now stage, s.step a = { s.report metric value tag now with stage := stage } ∧
      a.event = if metric = [] then [] else [⟨now, metric, tag, value⟩]) ∨
      (a.event = [] ∧ (s.step a).pushed = s.pushed ∧
        (s.step a).client.currentSlot = s.client.currentSlot ∧
        (s.step a).client.currentTime = s.client.currentTime ∧
        (s.step a).client.conf = s.client.conf) := by
  cases a with
  | reportEvent metric value tag now => exact Or.inl ⟨metric, value, tag, now, s.stage, rfl, rfl⟩
  | pop start =>
      refine Or.inr ⟨rfl, ?_⟩
      cases stage : s.stage with
      | popping =>
          cases queue : s.client.submitQueue with
          | nil => simp [Sender.step, stage, queue, EQueue.pop]
          | cons report rest => simp [Sender.step, stage, queue, EQueue.pop]
      | _ => simp [Sender.step, stage]
  | reportEmptyEvent now =>
      cases stage : s.stage with
      | idle => exact Or.inl ⟨[], 0, bytes "T", now, .popping, by simp only [Sender.step, stage], rfl⟩
      | late =>
          exact Or.inl ⟨[], 0, bytes "T", now, .measuring, by simp only [Sender.step, stage], rfl⟩
      | _ =>
          refine Or.inr ⟨rfl, ?_⟩
          simp [Sender.step, stage]
  | _ =>
      refine Or.inr ⟨rfl, ?_⟩
      cases stage : s.stage <;> simp [Sender.step, stage]

theorem stampedEvents_step {s : Sender} (enabled : s.client.conf.reportEnabled = true) (a : Action) :
    (s.step a).stampedEvents = s.stampedEvents ++ a.event ∧
      (s.step a).client.conf = s.client.conf := by
  rcases s.step_cases a with ⟨metric, value, tag, now, stage, next, event⟩ |
    ⟨event, pushed, slot, time, conf⟩
  · rw [next, event]
    exact ⟨stampedEvents_report enabled metric value tag now,
      conf_reportEvent s.client metric value tag now⟩
  · rw [event, stampedEvents, pushed, slot, time, List.append_nil]
    exact ⟨rfl, conf⟩

/-- A pop takes one report and reporting takes none, so a batch that goes is what
`SHRINK_FRONT` takes. -/
theorem shrinks_to_limit (s : Sender) (a : Action) : ShrinksToLimit s a := by
  intro gone some removed
  have kept : (s.step a).removed ≠ s.removed := by
    intro same
    rw [same] at removed
    exact some (List.map_eq_nil_iff.mp (List.self_eq_append_right.mp removed))
  cases a with
  | reportEvent metric value tag now => exact absurd rfl kept
  | pop start =>
      cases stage : s.stage with
      | popping =>
          cases queue : s.client.submitQueue with
          | nil => simp [Sender.step, stage, queue, EQueue.pop] at kept
          | cons report rest =>
              simp only [Sender.step, stage, queue, EQueue.pop] at removed
              have last := List.append_cancel_left removed
              cases gone with
              | nil => exact absurd rfl some
              | cons first gone => cases (List.cons.inj last).1
      | _ => simp [Sender.step, stage] at kept
  | shrinkFront limit =>
      cases stage : s.stage with
      | shrinking =>
          simp only [Sender.step, stage] at removed ⊢
          have same := congrArg (List.map Prod.fst) (List.append_cancel_left removed)
          rw [map_fst_shrunk, map_fst_shrunk] at same
          rw [← same] at some ⊢
          exact ⟨(EQueue.shrunk_append _ _).symm,
            by rw [EQueue.length_shrinkFront some]⟩
      | _ => simp [Sender.step, stage] at kept
  | _ => cases stage : s.stage <;> simp [Sender.step, stage, Sender.report] at kept

/-! ### Whole runs -/

theorem batched_fresh {conf : HeraclesClientConf} (enabled : conf.reportEnabled = true)
    (service entityIdx : Bytes) : Batched (fresh conf service entityIdx) where
  enabled := enabled
  full := (positive_size conf).le
  sized := nofun
  queued := rfl
  popped := rfl

theorem stampedEvents_run (s : Sender) (enabled : s.client.conf.reportEnabled = true)
    (actions : List Action) :
    (run step s actions).stampedEvents = s.stampedEvents ++ actions.flatMap Action.event ∧
      (run step s actions).client.conf = s.client.conf := by
  induction actions generalizing s with
  | nil => exact ⟨(List.append_nil _).symm, rfl⟩
  | cons a actions ih =>
      obtain ⟨events, conf⟩ := stampedEvents_step enabled a
      obtain ⟨all, still⟩ := ih (s.step a) (by rw [conf]; exact enabled)
      rw [run_cons, all, events, List.flatMap_cons, List.append_assoc]
      exact ⟨rfl, still.trans conf⟩

end Sender

end Heracles.Client
