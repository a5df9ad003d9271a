import Heracles.Business.Pipeline

/-!
No event is lost or duplicated between acceptance and aggregation.

`Pipeline.slots` lists every slot that exists: the open ones, the queued ones,
those in tasks and those already handed to `do_process_event`. A step either
permutes this list (`slots_perm_of_move`) or inserts the events of one accepted
report into it (`slots_accept`), so `Conserved` (slot identities are pairwise
different and the events in all slots are the events of the accepted reports)
holds along every run. The flush is exact where the sum of key and linger time
is: `lingerCheckRun_exact`. Beyond 64 bits it wraps, and a slot of the far
future is flushed at once (`flush_wraps`).
-/

namespace Heracles.Business

open Heracles.Base Heracles.Utils

namespace EventHandler

/-! ### Inserting events into a slot -/

theorem pushEvent_perm (slot : EventsByMetric) (item : EventData) :
    (pushEvent slot item).values.flatten.Perm (item :: slot.values.flatten) := by
  unfold pushEvent
  cases present : slot.find? item.metric with
  | none =>
      have inserted := OrdMap.values_insert_of_none [item] present
      simpa using inserted.flatten
  | some l =>
      obtain ⟨others, before, after⟩ := OrdMap.values_insert_of_some (l ++ [item]) present
      have whole : (slot.insert item.metric (l ++ [item])).values.flatten.Perm
          (l ++ item :: others.flatten) := by simpa using after.flatten
      refine whole.trans (List.perm_middle.trans ?_)
      have rest : (l ++ others.flatten).Perm slot.values.flatten := by
        simpa using before.flatten.symm
      exact rest.cons item

theorem foldl_pushEvent_perm (slot : EventsByMetric) (data : List EventData) :
    (data.foldl pushEvent slot).values.flatten.Perm (slot.values.flatten ++ data) := by
  induction data generalizing slot with
  | nil => simp
  | cons item data ih =>
      refine (ih (pushEvent slot item)).trans ?_
      have head := (pushEvent_perm slot item).append_right data
      exact head.trans List.perm_middle.symm

/-- An insertion opens a slot for the events, or extends an open slot by them. -/
theorem doAddEvent_values (h : EventHandler) (evTime : Int64) (data : List EventData) :
    (∃ slot : EventsByTime, slot.id = h.nextId ∧ slot.events.Perm data ∧
      (h.doAddEvent evTime data).nextId = h.nextId + 1 ∧
      (h.doAddEvent evTime data).events.values.Perm (slot :: h.events.values)) ∨
    (∃ slot slot' others, slot'.id = slot.id ∧ slot'.events.Perm (slot.events ++ data) ∧
      (h.doAddEvent evTime data).nextId = h.nextId ∧
      h.events.values.Perm (slot :: others) ∧
      (h.doAddEvent evTime data).events.values.Perm (slot' :: others)) := by
  cases present : h.events.find? (h.conf.niceStep evTime) with
  | none =>
      rw [doAddEvent_of_none data present]
      refine .inl ⟨_, rfl, ?_, rfl, OrdMap.values_insert_of_none _ present⟩
      exact foldl_pushEvent_perm .empty data
  | some slot =>
      rw [doAddEvent_of_some data present]
      let grown := { slot with data := data.foldl pushEvent slot.data }
      obtain ⟨others, before, after⟩ := OrdMap.values_insert_of_some grown present
      refine .inr ⟨slot, grown, others, rfl, ?_, rfl, before, after⟩
      exact foldl_pushEvent_perm slot.data data

end EventHandler

namespace Pipeline

/-! ### Where slots are -/

/-- Every slot there is. -/
def slots (s : Pipeline) : List EventsByTime :=
  s.handler.events.values ++ s.handler.processQueue ++ s.tasks.flatten ++ s.handed

/-- The events in a list of slots. -/
def eventsIn (l : List EventsByTime) : Multiset EventData := (l.flatMap EventsByTime.events : List _)

@[simp] theorem eventsIn_append (l m : List EventsByTime) :
    eventsIn (l ++ m) = eventsIn l + eventsIn m := by
  simp [eventsIn]

@[simp] theorem eventsIn_cons (slot : EventsByTime) (l : List EventsByTime) :
    eventsIn (slot :: l) = (slot.events : Multiset EventData) + eventsIn l := by
  simp [eventsIn]

theorem eventsIn_perm {l m : List EventsByTime} (perm : l.Perm m) : eventsIn l = eventsIn m :=
  Multiset.coe_eq_coe.mpr (perm.flatMap_right _)

/-- Steps other than insertions only move slots. -/
theorem slots_perm_of_move (s : Pipeline) :
    (step s .lingerCheck).slots.Perm s.slots ∧ (step s .run).slots.Perm s.slots ∧
      ∀ i, (step s (.runTask i)).slots.Perm s.slots := by
  refine ⟨?_, ?_, ?_⟩
  · have split := OrdMap.values_popWhile s.handler.events (s.handler.lingered s.clock)
    rw [← Multiset.coe_eq_coe]
    simp only [step, slots, EventHandler.lingerCheckRun, ← split, ← Multiset.coe_add]
    ac_rfl
  · rcases s.runThread_cases with ⟨point, same⟩ | ⟨point, vec, rest, queue, same⟩ |
      ⟨event, rest, queue, same⟩
    · simp only [step, same, slots]
      exact List.Perm.refl _
    · rw [← Multiset.coe_eq_coe]
      simp only [step, same, slots, ← queue, List.flatten_append, List.flatten_cons,
        List.flatten_nil, List.append_nil, ← Multiset.coe_add]
      ac_rfl
    · rw [← Multiset.coe_eq_coe]
      simp only [step, same, slots, ← queue, ← Multiset.coe_add]
      ac_rfl
  · intro i
    simp only [step]
    cases here : s.tasks[i]? with
    | none => exact List.Perm.refl _
    | some task =>
        obtain ⟨inRange, rfl⟩ := List.getElem?_eq_some_iff.mp here
        have tasks := (List.getElem_cons_eraseIdx_perm inRange).flatten
        rw [← Multiset.coe_eq_coe] at tasks ⊢
        simp only [List.flatten_cons, ← Multiset.coe_add] at tasks
        simp only [slots, ← Multiset.coe_add, ← tasks]
        ac_rfl

/-- Accepting a report opens a slot for its events or extends an open slot by
them; every other slot stays what and where it is. -/
theorem slots_accept (s : Pipeline) (ev : EventReport) :
    (∃ slot : EventsByTime, slot.id = s.handler.nextId ∧ slot.events.Perm ev.data ∧
      (s.accept ev).handler.nextId = s.handler.nextId + 1 ∧
      (s.accept ev).slots.Perm (slot :: s.slots)) ∨
    (∃ slot slot' others, slot'.id = slot.id ∧ slot'.events.Perm (slot.events ++ ev.data) ∧
      (s.accept ev).handler.nextId = s.handler.nextId ∧
      s.slots.Perm (slot :: others) ∧ (s.accept ev).slots.Perm (slot' :: others)) := by
  rcases s.handler.doAddEvent_values ev.timestamp ev.data with
    ⟨slot, number, content, next, values⟩ |
    ⟨slot, slot', others, number, content, next, before, after⟩
  · refine .inl ⟨slot, number, content, next, ?_⟩
    exact ((values.append_right _).append_right _).append_right _
  · refine .inr ⟨slot, slot', others ++ s.handler.processQueue ++ s.tasks.flatten ++ s.handed,
      number, content, next, ?_, ?_⟩
    · exact ((before.append_right _).append_right _).append_right _
    · exact ((after.append_right _).append_right _).append_right _

/-! ### The invariant -/

/-- Slots have pairwise different identities, and together they hold the events
of the accepted reports. -/
structure Conserved (s : Pipeline) : Prop where
  distinct : (s.slots.map EventsByTime.id).Nodup
  allocated : ∀ slot ∈ s.slots, slot.id < s.handler.nextId
  content : eventsIn s.slots = (s.accepted.flatMap EventReport.data : List _)

theorem conserved_start (service entityIdx : Bytes) (conf : EventHandlerConf) (clock : Int64) :
    Conserved (start service entityIdx conf clock) where
  distinct := by simp [slots, start, EventHandler.create, OrdMap.values, OrdMap.empty]
  allocated := by simp [slots, start, EventHandler.create, OrdMap.values, OrdMap.empty]
  content := rfl

theorem Conserved.of_perm {s t : Pipeline} (conserved : Conserved s) (perm : t.slots.Perm s.slots)
    (number : t.handler.nextId = s.handler.nextId) (history : t.accepted = s.accepted) :
    Conserved t where
  distinct := (perm.map _).nodup_iff.mpr conserved.distinct
  allocated slot member := number ▸ conserved.allocated slot (perm.mem_iff.mp member)
  content := by rw [eventsIn_perm perm, conserved.content, history]

theorem Conserved.accept {s : Pipeline} (conserved : Conserved s) (ev : EventReport) :
    Conserved (s.accept ev) := by
  have history : ((s.accept ev).accepted.flatMap EventReport.data : List _) =
      s.accepted.flatMap EventReport.data ++ ev.data := by simp [Pipeline.accept]
  rcases s.slots_accept ev with ⟨slot, number, content, next, perm⟩ |
    ⟨slot, slot', others, number, content, next, before, after⟩
  · refine ⟨?_, ?_, ?_⟩
    · refine (perm.map _).nodup_iff.mpr (List.nodup_cons.mpr ⟨?_, conserved.distinct⟩)
      intro member
      obtain ⟨old, oldMember, same⟩ := List.mem_map.mp member
      have := conserved.allocated old oldMember
      omega
    · intro old member
      rcases List.mem_cons.mp (perm.mem_iff.mp member) with rfl | member
      · omega
      · have := conserved.allocated old member
        omega
    · rw [eventsIn_perm perm, eventsIn_cons, conserved.content, history,
        Multiset.coe_eq_coe.mpr content, ← Multiset.coe_add, add_comm]
  · have oldIds := (before.map EventsByTime.id).nodup_iff.mp conserved.distinct
    refine ⟨?_, ?_, ?_⟩
    · refine (after.map EventsByTime.id).nodup_iff.mpr ?_
      simpa [number] using oldIds
    · intro old member
      rw [next]
      rcases List.mem_cons.mp (after.mem_iff.mp member) with rfl | member
      · rw [number]
        exact conserved.allocated slot (before.mem_iff.mpr List.mem_cons_self)
      · exact conserved.allocated old (before.mem_iff.mpr (List.mem_cons_of_mem _ member))
    · have whole := conserved.content
      rw [eventsIn_perm before, eventsIn_cons] at whole
      rw [eventsIn_perm after, eventsIn_cons, history, Multiset.coe_eq_coe.mpr content,
        ← Multiset.coe_add, ← Multiset.coe_add, ← whole]
      ac_rfl

/-- Every step of every party preserves the invariant. -/
theorem Conserved.step {s : Pipeline} (conserved : Conserved s) (a : Act) :
    Conserved (step s a) := by
  obtain ⟨flushed, threaded, tasked⟩ := s.slots_perm_of_move
  cases a with
  | tick now => exact conserved.of_perm (List.Perm.refl _) rfl rfl
  | check ev =>
      simp only [Pipeline.step]
      split
      · exact conserved.of_perm (List.Perm.refl _) rfl rfl
      · exact conserved
  | insert i =>
      simp only [Pipeline.step]
      split
      · exact conserved
      · rename_i ev _
        exact (conserved.of_perm (t := { s with waiting := s.waiting.eraseIdx i })
          (List.Perm.refl _) rfl rfl).accept ev
  | addEvent ev =>
      rw [step_addEvent]
      split
      · exact conserved.accept ev
      · exact conserved
  | lingerCheck => exact conserved.of_perm flushed rfl rfl
  | run =>
      have same := s.sameIntake_run
      exact conserved.of_perm threaded same.number same.accepted
  | runTask i =>
      have same := s.sameIntake_runTask i
      exact conserved.of_perm (tasked i) same.number same.accepted
  | reconf conf => exact conserved.of_perm (List.Perm.refl _) rfl rfl

theorem conserved_run (service entityIdx : Bytes) (conf : EventHandlerConf) (clock : Int64)
    (acts : List Act) : Conserved (run step (start service entityIdx conf clock) acts) :=
  run_invariant (fun _ a conserved => conserved.step a)
    (conserved_start service entityIdx conf clock) acts

/-! ### The flush -/

/-- `linger_check_run` at `now` moves exactly the slots whose key lies more than
the linger time before `now`, in ascending key order, to the end of the queue. -/
def FlushExact (h : EventHandler) (now : Int64) : Prop :=
  let due := fun e : Int64 × EventsByTime =>
    decide (e.1.toInt + h.conf.eventLinger.toInt < now.toInt)
  (h.lingerCheckRun now).1 = (h.events.entries.filter due).map Prod.snd ∧
    (h.lingerCheckRun now).2.processQueue =
      h.processQueue ++ (h.events.entries.filter due).map Prod.snd ∧
    (h.lingerCheckRun now).2.events.entries = h.events.entries.filter fun e => !due e

instance (h : EventHandler) (now : Int64) : Decidable (FlushExact h now) :=
  inferInstanceAs (Decidable (_ ∧ _ ∧ _))

/-- The configuration stays, and the slot of every report that passes the tests
ends early enough for its linger time to be added within 64 bits. -/
def RoomForLinger (s : Pipeline) : Act → Prop
  | .check ev | .addEvent ev => s.handler.addEventCheck s.clock ev = 0 →
      Fits64 ((s.handler.conf.niceStep ev.timestamp).toInt + s.handler.conf.eventLinger.toInt)
  | .reconf _ => False
  | _ => True

/-- All slots, open or still to be opened by a waiting call, have that room. -/
def RoomyIntake (s : Pipeline) : Prop :=
  s.handler.Roomy ∧ ∀ ev ∈ s.waiting,
    Fits64 ((s.handler.conf.niceStep ev.timestamp).toInt + s.handler.conf.eventLinger.toInt)

theorem roomyIntake_start (service entityIdx : Bytes) (conf : EventHandlerConf) (clock : Int64) :
    RoomyIntake (start service entityIdx conf clock) :=
  ⟨fun key member => by simp [start, EventHandler.create, OrdMap.keys, OrdMap.empty] at member,
    fun ev member => by simp [start] at member⟩

theorem RoomyIntake.accept {s : Pipeline} (roomy : RoomyIntake s) {ev : EventReport}
    (room : Fits64 ((s.handler.conf.niceStep ev.timestamp).toInt +
      s.handler.conf.eventLinger.toInt)) : RoomyIntake (s.accept ev) := by
  refine ⟨fun key member => ?_, roomy.2⟩
  rcases EventHandler.mem_keys_doAddEvent.mp member with rfl | member
  · exact room
  · exact roomy.1 key member

theorem RoomyIntake.of_same {s t : Pipeline} (roomy : RoomyIntake s) (same : SameIntake s t) :
    RoomyIntake t := by
  unfold RoomyIntake EventHandler.Roomy
  rw [same.events, same.conf, same.waiting]
  exact roomy

theorem RoomyIntake.step {s : Pipeline} (roomy : RoomyIntake s) {a : Act}
    (ok : RoomForLinger s a) : RoomyIntake (step s a) := by
  cases a with
  | tick now => exact roomy
  | check ev =>
      simp only [Pipeline.step]
      split
      · rename_i passed
        refine ⟨roomy.1, fun other member => ?_⟩
        rcases List.mem_append.mp member with member | member
        · exact roomy.2 other member
        · exact List.mem_singleton.mp member ▸ ok passed
      · exact roomy
  | insert i =>
      simp only [Pipeline.step]
      split
      · exact roomy
      · rename_i ev here
        have left : RoomyIntake { s with waiting := s.waiting.eraseIdx i } :=
          ⟨roomy.1, fun other member => roomy.2 other (List.mem_of_mem_eraseIdx member)⟩
        exact left.accept (roomy.2 ev (List.mem_of_getElem? here))
  | addEvent ev =>
      rw [step_addEvent]
      split
      · rename_i passed
        exact roomy.accept (ok passed)
      · exact roomy
  | lingerCheck =>
      exact ⟨fun key member => roomy.1 key (EventHandler.mem_keys_of_lingerCheckRun member),
        roomy.2⟩
  | run => exact roomy.of_same s.sameIntake_run
  | runTask i => exact roomy.of_same (s.sameIntake_runTask i)
  | reconf conf => exact ok.elim

theorem flushExact_of_roomy {h : EventHandler} (roomy : h.Roomy) (now : Int64) :
    FlushExact h now := by
  obtain ⟨moved, left⟩ := lingerCheckRun_of_roomy roomy now
  refine ⟨moved, ?_, left⟩
  rw [← moved]
  rfl

/-- A refused report leaves no trace. -/
theorem refused_unchanged {s : Pipeline} {ev : EventReport}
    (refused : (s.handler.addEvent s.clock ev).1 ≠ 0) :
    step s (.addEvent ev) = s ∧ step s (.check ev) = s := by
  have failed : s.handler.addEventCheck s.clock ev ≠ 0 := by
    intro passed
    simp [EventHandler.addEvent, passed] at refused
  exact ⟨by rw [step_addEvent, if_neg failed], by simp [step, failed]⟩

/-- In every state of every run the accepted events are exactly those in the
open slots, in the queue, in tasks not yet run and in the slots handed to
`do_process_event`, no slot object is handed over twice, and a refused report
changes nothing. When the slots of all accepted reports leave room for the
linger time, every flush is exact as well. -/
theorem events_conserved (service entityIdx : Bytes) (conf : EventHandlerConf) (clock : Int64)
    (acts : List Act) :
    let s := run step (start service entityIdx conf clock) acts
    ((s.accepted.flatMap EventReport.data : List EventData) : Multiset EventData) =
        eventsIn s.handler.events.values + eventsIn s.handler.processQueue +
          eventsIn s.tasks.flatten + eventsIn s.handed ∧
      (s.handed.map EventsByTime.id).Nodup ∧
      (∀ ev, (s.handler.addEvent s.clock ev).1 ≠ 0 →
        step s (.addEvent ev) = s ∧ step s (.check ev) = s) ∧
      (Along step RoomForLinger (start service entityIdx conf clock) acts →
        ∀ now, FlushExact s.handler now) := by
  intro s
  have conserved := conserved_run service entityIdx conf clock acts
  refine ⟨?_, ?_, fun ev refused => refused_unchanged refused, fun along now => ?_⟩
  · rw [← conserved.content]
    simp only [slots, eventsIn_append]
    rfl
  · have distinct := conserved.distinct
    simp only [slots, List.map_append] at distinct
    exact (List.nodup_append.mp distinct).2.1
  · have roomy := along.invariant (fun _ _ roomy ok => roomy.step ok)
      (roomyIntake_start service entityIdx conf clock)
    exact flushExact_of_roomy roomy.1 now

/-- A report from the last seconds of 64-bit time is accepted, and its slot is
flushed at once: adding the linger time to the key wraps. -/
theorem flush_wraps :
    ¬ ∀ (service entityIdx : Bytes) (conf : EventHandlerConf) (clock : Int64) (acts : List Act),
      0 < conf.eventLinger → 0 < conf.eventStep → ∀ now,
      FlushExact (run step (start service entityIdx conf clock) acts).handler now := by
  intro always
  have wrong := always (bytes "svc") [] ⟨10, 3, 10⟩ 100
    [.addEvent ⟨9223372036854775800, bytes "svc", [], [⟨1, bytes "m", bytes "T", 7⟩]⟩]
    (by decide) (by decide) 100
  exact absurd wrong (by decide)

end Pipeline

end Heracles.Business
