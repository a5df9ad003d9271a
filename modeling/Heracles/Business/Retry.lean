import Heracles.Business.Aggregate
import Heracles.Business.FlushOnce

/-!
Submitting an accepted report again.

`distinct` removes repeated message ids from every slot of a pipeline and
forgets which reports were accepted. It commutes with every step
(`distinct_step`), so two pipelines with the same `distinct` keep it under the
same steps, and it determines the records given to the store
(`records_of_distinct`). A copy of an accepted report changes nothing in
`distinct`: as long as the slot is open it holds all message ids of the report,
and once the slot may have been flushed the copy is too old (`Retained`).

This rests on time arithmetic that stays within 64 bits. A report from the last
seconds of 64-bit time opens a slot whose key wraps; it is flushed at once and
a copy of the report fills it again (`copy_recorded_again`).
-/

namespace Heracles.Business

open Heracles.Base Heracles.Utils

/-! ### Insertion up to repeated message ids -/

namespace EventHandler

theorem distinct_pushEvent (slot : EventsByMetric) (item : EventData) :
    distinctEvents (pushEvent slot item) = distinctEvents (pushEvent (distinctEvents slot) item) := by
  simp only [pushEvent, distinctEvents, OrdMap.mapVal_insert, OrdMap.mapVal_mapVal]
  congr 1
  · refine congrArg (fun f => OrdMap.mapVal f slot) (funext fun l => ?_)
    exact (firsts_firsts l).symm
  · cases present : slot.find? item.metric with
    | none => simp [present]
    | some l =>
        simp only [OrdMap.find?_mapVal, present, Option.map_some, Option.getD_some]
        exact firsts_append_congr (firsts_firsts l).symm [item]

theorem distinct_foldl_pushEvent (slot : EventsByMetric) (data : List EventData) :
    distinctEvents (data.foldl pushEvent slot) =
      distinctEvents (data.foldl pushEvent (distinctEvents slot)) := by
  have step : ∀ (data : List EventData) (a b : EventsByMetric), distinctEvents a = distinctEvents b →
      distinctEvents (data.foldl pushEvent a) = distinctEvents (data.foldl pushEvent b) := by
    intro data
    induction data with
    | nil => exact fun a b same => same
    | cons item data ih =>
        intro a b same
        refine ih _ _ ?_
        rw [distinct_pushEvent, same, ← distinct_pushEvent]
  refine step data _ _ ?_
  simp only [distinctEvents, OrdMap.mapVal_mapVal]
  exact congrArg (fun f => OrdMap.mapVal f slot) (funext fun l => (firsts_firsts l).symm)

/-- The slot has an event with the message id of each of these events, under
the same metric. -/
def Holds (slot : EventsByMetric) (data : List EventData) : Prop :=
  ∀ item ∈ data, ∃ l, slot.find? item.metric = some l ∧ item.msgid ∈ keySet EventData.msgid l

theorem Holds.push {slot : EventsByMetric} {data : List EventData} (held : Holds slot data)
    (item : EventData) : Holds (pushEvent slot item) data := by
  intro other member
  obtain ⟨l, present, known⟩ := held other member
  by_cases same : other.metric = item.metric
  · refine ⟨l ++ [item], ?_, ?_⟩
    · rw [same] at present ⊢
      simp [pushEvent, present]
    · rw [keySet_append]
      exact Finset.mem_union_left _ known
  · refine ⟨l, ?_, known⟩
    rw [pushEvent, OrdMap.find?_insert_of_ne _ _ same]
    exact present

theorem Holds.pushAll {slot : EventsByMetric} {data : List EventData} (held : Holds slot data)
    (more : List EventData) : Holds (more.foldl pushEvent slot) data := by
  induction more generalizing slot with
  | nil => exact held
  | cons item more ih => exact ih (held.push item)

/-- After an insertion the slot holds what was inserted. -/
theorem holds_foldl_pushEvent (slot : EventsByMetric) (data : List EventData) :
    Holds (data.foldl pushEvent slot) data := by
  induction data generalizing slot with
  | nil => intro item member; cases member
  | cons item data ih =>
      intro other member
      rcases List.mem_cons.mp member with rfl | member
      · have own : Holds (pushEvent slot other) [other] := by
          intro item here
          rw [List.mem_singleton] at here
          subst here
          exact ⟨_, OrdMap.find?_insert_self .., by simp⟩
        exact own.pushAll data other List.mem_cons_self
      · exact ih _ other member

/-- Inserting events the slot holds already changes nothing but repetitions. -/
theorem Holds.distinct_foldl {slot : EventsByMetric} {data : List EventData}
    (held : Holds slot data) : distinctEvents (data.foldl pushEvent slot) = distinctEvents slot := by
  induction data generalizing slot with
  | nil => rfl
  | cons item data ih =>
      have rest : Holds (pushEvent slot item) data :=
        Holds.push (fun other member => held other (List.mem_cons_of_mem _ member)) item
      obtain ⟨l, present, known⟩ := held item List.mem_cons_self
      have same : firsts EventData.msgid (l ++ [item]) = firsts EventData.msgid l := by
        refine firsts_append_known fun other member => ?_
        rw [List.mem_singleton] at member
        exact member ▸ known
      calc distinctEvents ((item :: data).foldl pushEvent slot)
          = distinctEvents (pushEvent slot item) := ih rest
        _ = (distinctEvents slot).insert item.metric (firsts EventData.msgid l) := by
            rw [pushEvent, distinctEvents, OrdMap.mapVal_insert, present, Option.getD_some, same]
            rfl
        _ = distinctEvents slot := by
            refine OrdMap.insert_self ?_
            rw [distinctEvents, OrdMap.find?_mapVal, present, Option.map_some]

/-- A handler without repeated message ids in its slots. -/
def distinct (h : EventHandler) : EventHandler :=
  { h with
    events := h.events.mapVal EventsByTime.distinct
    processQueue := h.processQueue.map EventsByTime.distinct }

theorem distinct_doAddEvent (h : EventHandler) (evTime : Int64) (data : List EventData) :
    (h.doAddEvent evTime data).distinct = (h.distinct.doAddEvent evTime data).distinct := by
  have twice : (h.events.mapVal EventsByTime.distinct).mapVal EventsByTime.distinct =
      h.events.mapVal EventsByTime.distinct := by
    rw [OrdMap.mapVal_mapVal]
    exact congrArg (OrdMap.mapVal · h.events) (funext EventsByTime.distinct_distinct)
  cases present : h.events.find? (h.conf.niceStep evTime) with
  | none =>
      have absent : h.distinct.events.find? (h.distinct.conf.niceStep evTime) = none := by
        simp [distinct, present]
      rw [doAddEvent_of_none data present, doAddEvent_of_none data absent]
      simp [distinct, OrdMap.mapVal_insert, twice, Function.comp_def]
  | some slot =>
      have here : h.distinct.events.find? (h.distinct.conf.niceStep evTime) =
          some slot.distinct := by
        simp [distinct, present]
      rw [doAddEvent_of_some data present, doAddEvent_of_some data here]
      have grown : EventsByTime.distinct { slot with data := data.foldl pushEvent slot.data } =
          EventsByTime.distinct
            { slot.distinct with data := data.foldl pushEvent slot.distinct.data } := by
        simp only [EventsByTime.distinct]
        rw [distinct_foldl_pushEvent]
      simp [distinct, OrdMap.mapVal_insert, twice, grown, Function.comp_def]

end EventHandler

namespace Pipeline

/-! ### The pipeline up to repeated message ids -/

/-- A pipeline without repeated message ids and without its acceptance history. -/
def distinct (s : Pipeline) : Pipeline :=
  { s with
    handler := s.handler.distinct
    tasks := s.tasks.map (List.map EventsByTime.distinct)
    accepted := []
    moved := s.moved.map EventsByTime.distinct
    handed := s.handed.map EventsByTime.distinct }

theorem distinct_accept (s : Pipeline) (ev : EventReport) :
    (s.accept ev).distinct = (s.distinct.accept ev).distinct := by
  simp [distinct, accept, EventHandler.distinct_doAddEvent s.handler, Function.comp_def]

@[simp] theorem distinct_distinct (s : Pipeline) : s.distinct.distinct = s.distinct := by
  simp [distinct, EventHandler.distinct, Function.comp_def, OrdMap.mapVal_mapVal]

/-- The consumers move slots without looking into them. -/
theorem runThread_distinct (s : Pipeline) : s.distinct.runThread = s.runThread.distinct := by
  have length : s.distinct.handler.processQueue.length = s.handler.processQueue.length := by
    simp [distinct, EventHandler.distinct]
  have pops : ∀ n, EQueue.popMany n s.distinct.handler.processQueue =
      ((EQueue.popMany n s.handler.processQueue).1.map EventsByTime.distinct,
        (EQueue.popMany n s.handler.processQueue).2.map EventsByTime.distinct) :=
    fun n => EQueue.popMany_map EventsByTime.distinct n _
  have point : s.distinct.thread = s.thread := rfl
  unfold runThread
  rw [point]
  cases s.thread with
  | top => rfl
  | sizeCheck queueSize =>
      simp only [length]
      split
      · rfl
      · rfl
  | bulkPop queueSize =>
      simp only [pops, List.map_eq_nil_iff]
      split
      · rfl
      · simp [distinct, EventHandler.distinct]
  | singlePop =>
      have queue : s.distinct.handler.processQueue =
          s.handler.processQueue.map EventsByTime.distinct := rfl
      rw [queue]
      cases s.handler.processQueue with
      | nil => rfl
      | cons event rest => simp [EQueue.pop, distinct, EventHandler.distinct]

theorem runTask_distinct (s : Pipeline) (i : Nat) :
    step s.distinct (.runTask i) = (step s (.runTask i)).distinct := by
  have tasks : s.distinct.tasks = s.tasks.map (List.map EventsByTime.distinct) := rfl
  simp only [step, tasks, List.getElem?_map]
  cases here : s.tasks[i]? with
  | none => rfl
  | some task => simp [distinct, List.eraseIdx_map]

theorem lingerCheck_distinct (s : Pipeline) :
    step s.distinct .lingerCheck = (step s .lingerCheck).distinct := by
  have flushed : s.handler.distinct.lingerCheckRun s.clock =
      ((s.handler.lingerCheckRun s.clock).1.map EventsByTime.distinct,
        (s.handler.lingerCheckRun s.clock).2.distinct) := by
    simp only [EventHandler.lingerCheckRun, EventHandler.distinct, List.map_append]
    rw [OrdMap.popWhile_mapVal]
    rfl
  simp [step, flushed, distinct]

/-- Every step can be made with the repeated message ids removed beforehand. -/
theorem distinct_step (s : Pipeline) (a : Act) :
    (step s a).distinct = (step s.distinct a).distinct := by
  have test (ev : EventReport) : s.distinct.handler.addEventCheck s.distinct.clock ev =
      s.handler.addEventCheck s.clock ev := rfl
  cases a with
  | tick now => exact (distinct_distinct { s with clock := now }).symm
  | check ev =>
      simp only [step, test]
      split
      · exact (distinct_distinct { s with waiting := s.waiting ++ [ev] }).symm
      · exact s.distinct_distinct.symm
  | insert i =>
      have same : s.distinct.waiting = s.waiting := rfl
      simp only [step, same]
      split
      · exact s.distinct_distinct.symm
      · exact distinct_accept { s with waiting := s.waiting.eraseIdx i } _
  | addEvent ev =>
      rw [step_addEvent, step_addEvent, test]
      split
      · exact distinct_accept s ev
      · exact s.distinct_distinct.symm
  | lingerCheck => rw [lingerCheck_distinct, distinct_distinct]
  | run => rw [step, step, runThread_distinct, distinct_distinct]
  | runTask i => rw [runTask_distinct, distinct_distinct]
  | reconf conf => exact (distinct_distinct { s with handler := { s.handler with conf := conf } }).symm

/-- Pipelines that differ in repeated message ids only still do after a step. -/
theorem step_congr {s t : Pipeline} (same : s.distinct = t.distinct) (a : Act) :
    (step s a).distinct = (step t a).distinct := by
  rw [distinct_step, same, ← distinct_step]

/-- The records given to the store so far, in order. -/
def records (nth : NthElement Int32) (s : Pipeline) : List EventInsert :=
  s.handed.flatMap fun event =>
    doProcessEvent nth event (statFor s.handler.service s.handler.entityIdx event)

theorem records_distinct (nth : NthElement Int32) (s : Pipeline) :
    records nth s.distinct = records nth s := by
  have each (event : EventsByTime) : statFor s.handler.service s.handler.entityIdx event.distinct =
      statFor s.handler.service s.handler.entityIdx event := rfl
  simp [records, distinct, EventHandler.distinct, List.flatMap_map, doProcessEvent_distinct, each]

/-! ### Copies of accepted reports -/

/-- Calls of `add_event` are one step. -/
def AtOnce : Act → Prop
  | .check _ | .insert _ => False
  | _ => True

instance : ∀ a, Decidable (AtOnce a)
  | .check _ | .insert _ => inferInstanceAs (Decidable False)
  | .tick _ | .addEvent _ | .lingerCheck | .run | .runTask _ | .reconf _ =>
      inferInstanceAs (Decidable True)

/-- The report of an accepted call is submitted again. -/
def CopyOfAccepted (s : Pipeline) : Act → Prop
  | .addEvent ev => ev ∈ s.accepted
  | _ => False

instance (s : Pipeline) : ∀ a, Decidable (CopyOfAccepted s a)
  | .addEvent _ => inferInstanceAs (Decidable (_ ∈ _))
  | .tick _ | .check _ | .insert _ | .lingerCheck | .run | .runTask _ | .reconf _ =>
      inferInstanceAs (Decidable False)

/-- Every accepted report is still held by the open slot of its time, or the
linger time of that slot is over. -/
structure Retained (conf : EventHandlerConf) (s : Pipeline) : Prop where
  fixed : s.handler.conf = conf
  roomy : RoomyIntake s
  held : ∀ ev ∈ s.accepted,
    (∃ slot, s.handler.events.find? (conf.niceStep ev.timestamp) = some slot ∧
      EventHandler.Holds slot.data ev.data) ∨
    (conf.niceStep ev.timestamp).toInt + conf.eventLinger.toInt < s.clock.toInt

variable {conf : EventHandlerConf} {s : Pipeline}

theorem retained_start (service entityIdx : Bytes) (conf : EventHandlerConf) (clock : Int64) :
    Retained conf (start service entityIdx conf clock) where
  fixed := rfl
  roomy := roomyIntake_start service entityIdx conf clock
  held ev member := by simp [start] at member

theorem Retained.of_same {t : Pipeline} (retained : Retained conf s) (same : SameIntake s t) :
    Retained conf t where
  fixed := same.conf.trans retained.fixed
  roomy := retained.roomy.of_same same
  held := by rw [same.accepted, same.events, same.clock]; exact retained.held

/-- An insertion leaves a slot that holds the report, and what was held before. -/
theorem Retained.accept (retained : Retained conf s) {ev : EventReport}
    (room : Fits64 ((s.handler.conf.niceStep ev.timestamp).toInt +
      s.handler.conf.eventLinger.toInt)) : Retained conf (s.accept ev) where
  fixed := retained.fixed
  roomy := retained.roomy.accept room
  held other member := by
    have kept (slot : EventsByTime) (data : List EventData)
        (held : EventHandler.Holds slot.data data)
        (present : s.handler.events.find? (conf.niceStep other.timestamp) = some slot) :
        ∃ grown, (s.accept ev).handler.events.find? (conf.niceStep other.timestamp) = some grown ∧
          EventHandler.Holds grown.data data := by
      by_cases same : conf.niceStep other.timestamp = s.handler.conf.niceStep ev.timestamp
      · refine ⟨_, by rw [same]; exact OrdMap.find?_insert_self .., ?_⟩
        have slotHere : s.handler.timedSlot (s.handler.conf.niceStep ev.timestamp) = slot := by
          simp [EventHandler.timedSlot, ← same, present]
        rw [slotHere]
        exact held.pushAll ev.data
      · refine ⟨slot, ?_, held⟩
        exact (OrdMap.find?_insert_of_ne _ _ same).trans present
    rcases List.mem_append.mp member with old | new
    · rcases retained.held other old with ⟨slot, present, held⟩ | due
      · exact .inl (kept slot other.data held present)
      · exact .inr due
    · rw [List.mem_singleton] at new
      subst new
      refine .inl ⟨_, by rw [← retained.fixed]; exact OrdMap.find?_insert_self .., ?_⟩
      exact EventHandler.holds_foldl_pushEvent _ other.data

/-- A flush takes only slots whose linger time is over. -/
theorem Retained.flush (retained : Retained conf s) : Retained conf (step s .lingerCheck) where
  fixed := retained.fixed
  roomy := retained.roomy.step (a := .lingerCheck) trivial
  held ev member := by
    rcases retained.held ev member with ⟨slot, present, held⟩ | due
    · by_cases due : (conf.niceStep ev.timestamp).toInt + conf.eventLinger.toInt < s.clock.toInt
      · exact .inr due
      · refine .inl ⟨slot, ?_, held⟩
        rw [← OrdMap.mem_entries_iff] at present ⊢
        have left := (lingerCheckRun_of_roomy retained.roomy.1 s.clock).2
        change _ ∈ (s.handler.lingerCheckRun s.clock).2.events.entries
        rw [left, retained.fixed]
        exact List.mem_filter.mpr ⟨present, by simpa using due⟩
    · exact .inr due

theorem Retained.step (linger : 0 < conf.eventLinger.toInt) (stepPos : 0 < conf.eventStep.toInt)
    (retained : Retained conf s) {a : Act} (orderly : Orderly s a) (atOnce : AtOnce a) :
    Retained conf (step s a) := by
  cases a with
  | tick now =>
      refine ⟨retained.fixed, retained.roomy, fun ev member => ?_⟩
      rcases retained.held ev member with held | due
      · exact .inl held
      · exact .inr (lt_of_lt_of_le due (Int64.le_iff_toInt_le.mp orderly))
  | check ev => exact atOnce.elim
  | insert i => exact atOnce.elim
  | addEvent ev =>
      rw [step_addEvent]
      split
      · rename_i passed
        have fits := orderly passed
        rw [retained.fixed] at fits
        have room := niceStep_room stepPos linger fits
        rw [← retained.fixed] at room
        exact retained.accept room
      · exact retained
  | lingerCheck => exact retained.flush
  | run => exact retained.of_same s.sameIntake_run
  | runTask i => exact retained.of_same (s.sameIntake_runTask i)
  | reconf conf => exact orderly.elim

/-- A copy of an accepted report leaves no trace: while the slot of the report
is open it holds all its message ids, and afterwards the copy is too old. -/
theorem Retained.copy_absorbed (linger : 0 < conf.eventLinger.toInt)
    (stepPos : 0 < conf.eventStep.toInt) (retained : Retained conf s) {a : Act}
    (orderly : Orderly s a) (copy : CopyOfAccepted s a) : (Pipeline.step s a).distinct = s.distinct := by
  cases a with
  | addEvent ev =>
      rw [step_addEvent]
      split
      · rename_i passed
        have fits := orderly passed
        have young := (EventHandler.addEventCheck_eq_zero_iff.mp passed).2
        rw [retained.fixed] at fits young
        rw [not_too_old_iff fits] at young
        rcases retained.held ev copy with ⟨slot, present, held⟩ | due
        · rw [← retained.fixed] at present
          have grown : EventsByTime.distinct
              { slot with data := ev.data.foldl EventHandler.pushEvent slot.data } =
              slot.distinct := by
            simp only [EventsByTime.distinct]
            rw [held.distinct_foldl]
          have events : (s.handler.events.mapVal EventsByTime.distinct).insert
              (s.handler.conf.niceStep ev.timestamp) slot.distinct =
              s.handler.events.mapVal EventsByTime.distinct :=
            OrdMap.insert_self (by rw [OrdMap.find?_mapVal, present, Option.map_some])
          rw [Pipeline.accept, EventHandler.doAddEvent_of_some ev.data present]
          simp [distinct, EventHandler.distinct, OrdMap.mapVal_insert, grown, events]
        · have after := lt_niceStep stepPos linger fits
          omega
      · rfl
  | tick now => exact copy.elim
  | check ev => exact copy.elim
  | insert i => exact copy.elim
  | lingerCheck => exact copy.elim
  | run => exact copy.elim
  | runTask i => exact copy.elim
  | reconf conf => exact copy.elim

/-- Removing repeated message ids makes a run and the run with copies equal. -/
theorem distinct_run_copies (linger : 0 < conf.eventLinger.toInt)
    (stepPos : 0 < conf.eventStep.toInt) (service entityIdx : Bytes) (clock : Int64)
    {acts more : List Act}
    (copies : Extra step CopyOfAccepted (start service entityIdx conf clock) acts more)
    (orderly : Along step Orderly (start service entityIdx conf clock) more)
    (atOnce : Along step (fun _ => AtOnce) (start service entityIdx conf clock) more) :
    (run step (start service entityIdx conf clock) acts).distinct =
      (run step (start service entityIdx conf clock) more).distinct := by
  let Related (s t : Pipeline) : Prop := s.distinct = t.distinct ∧ Retained conf t
  let ok (s : Pipeline) (a : Act) : Prop := Orderly s a ∧ AtOnce a
  have common : ∀ s t a, Related s t → ok t a → Related (Pipeline.step s a) (Pipeline.step t a) :=
    fun s t a related ok => ⟨step_congr related.1 a, related.2.step linger stepPos ok.1 ok.2⟩
  have absorbed : ∀ s t a, Related s t → ok t a → CopyOfAccepted t a →
      Related s (Pipeline.step t a) := fun s t a related ok copy =>
    ⟨related.1.trans (related.2.copy_absorbed linger stepPos ok.1 copy).symm,
      related.2.step linger stepPos ok.1 ok.2⟩
  have opening := retained_start service entityIdx conf clock
  exact (copies.simulation (R := Related) common absorbed ⟨rfl, opening⟩ (orderly.and atOnce)).1

/-- In every run in which the clock never goes back, calls are one step and no
time computation for an accepted report leaves the 64-bit range, submitting
accepted reports again changes no record given to the store. -/
theorem copies_change_no_record (nth : NthElement Int32) (service entityIdx : Bytes)
    (conf : EventHandlerConf) (clock : Int64) (acts more : List Act)
    (linger : 0 < conf.eventLinger.toInt) (stepPos : 0 < conf.eventStep.toInt)
    (copies : Extra step CopyOfAccepted (start service entityIdx conf clock) acts more)
    (orderly : Along step Orderly (start service entityIdx conf clock) more)
    (atOnce : Along step (fun _ => AtOnce) (start service entityIdx conf clock) more) :
    records nth (run step (start service entityIdx conf clock) acts) =
      records nth (run step (start service entityIdx conf clock) more) := by
  have same := distinct_run_copies linger stepPos service entityIdx clock copies orderly atOnce
  rw [← records_distinct, same, records_distinct]

/-- A report for second 1, sent again before its slot is flushed. -/
theorem copy_before_flush_changes_no_record :
    let report : EventReport := ⟨1, bytes "svc", [], [⟨1, bytes "m", bytes "T", 7⟩]⟩
    records (.bySorting Int32) (run step (start (bytes "svc") [] ⟨10, 3, 10⟩ 5)
        [.addEvent report, .tick 14, .lingerCheck, .run, .run, .run]) =
      records (.bySorting Int32) (run step (start (bytes "svc") [] ⟨10, 3, 10⟩ 5)
        [.addEvent report, .addEvent report, .tick 14, .lingerCheck, .addEvent report, .run, .run,
          .run]) :=
  copies_change_no_record (.bySorting Int32) (bytes "svc") [] ⟨10, 3, 10⟩ 5
    [.addEvent ⟨1, bytes "svc", [], [⟨1, bytes "m", bytes "T", 7⟩]⟩, .tick 14, .lingerCheck, .run,
      .run, .run]
    [.addEvent ⟨1, bytes "svc", [], [⟨1, bytes "m", bytes "T", 7⟩]⟩,
      .addEvent ⟨1, bytes "svc", [], [⟨1, bytes "m", bytes "T", 7⟩]⟩, .tick 14, .lingerCheck,
      .addEvent ⟨1, bytes "svc", [], [⟨1, bytes "m", bytes "T", 7⟩]⟩, .run, .run, .run]
    (by decide) (by decide)
    (.both (.added (by decide) (.both (.both (.added (by decide) (.both (.both (.both (.nil _)))))))))
    (by decide) (by decide)

/-- A report for the last but one second of 64-bit time is accepted and its
slot, whose key has wrapped, is flushed at once; the copy is accepted again and
its events are recorded a second time. -/
theorem copy_recorded_again :
    ¬ ∀ (nth : NthElement Int32) (service entityIdx : Bytes) (conf : EventHandlerConf)
      (clock : Int64) (acts more : List Act),
      0 < conf.eventLinger.toInt → 0 < conf.eventStep.toInt →
      Extra step CopyOfAccepted (start service entityIdx conf clock) acts more →
      Along step ClockForward (start service entityIdx conf clock) more →
      Along step (fun _ => AtOnce) (start service entityIdx conf clock) more →
      records nth (run step (start service entityIdx conf clock) acts) =
        records nth (run step (start service entityIdx conf clock) more) := by
  intro always
  have wrong := always (.bySorting Int32) (bytes "svc") [] ⟨10, 3, 10⟩ 100
    [.addEvent ⟨9223372036854775806, bytes "svc", [], [⟨1, bytes "m", bytes "T", 7⟩]⟩, .lingerCheck,
      .run, .run, .run, .lingerCheck, .run, .run, .run]
    [.addEvent ⟨9223372036854775806, bytes "svc", [], [⟨1, bytes "m", bytes "T", 7⟩]⟩, .lingerCheck,
      .run, .run, .run,
      .addEvent ⟨9223372036854775806, bytes "svc", [], [⟨1, bytes "m", bytes "T", 7⟩]⟩, .lingerCheck,
      .run, .run, .run]
    (by decide) (by decide)
    (.both (.both (.both (.both (.both (.added (by decide) (.both (.both (.both (.both
      (.nil _)))))))))))
    (by decide) (by decide)
  exact absurd wrong (by decide)

end Pipeline

end Heracles.Business
