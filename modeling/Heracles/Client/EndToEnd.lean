import Heracles.Base.Refine
import Heracles.Business.Digest
import Heracles.Client.MessageIds

/-!
From the calls of the client to the answers of the server.

A client sends a report until it is told that it has come, so the server may accept a
report more than once, and reports come in any order. The events carry identifiers that
differ within a slot (`nodup_numbered`), and a slot keeps one event for each of them
(`retained_perm`). So the answer of a settled handler is that of the calls themselves:
`events_collected` says that each event of an accepted report is counted and added up once.
-/

namespace Heracles.Client

open Heracles.Base
open Heracles.Business
open Heracles.Utils

/-! ### The events a client takes -/

/-- The events of a report, each with the time of the report. -/
def timed (report : EventReport) : List (Int64 × EventData) :=
  report.data.map (Prod.mk report.timestamp)

namespace HeraclesClientImpl

/-- All events in the queue and in the slot. -/
def trail (c : HeraclesClientImpl) : List (Int64 × EventData) :=
  c.submitQueue.flatMap timed ++ c.currentSlot.map (Prod.mk c.currentTime)

/-- The events of calls, as they are numbered from a state on. -/
def numbered : HeraclesClientImpl → List ReportCall → List (Int64 × EventData)
  | _, [] => []
  | c, r :: calls =>
      (if r.metric = [] then []
        else [(r.now, ⟨Sender.nextMsgid c r.now, r.metric, r.tag, r.value⟩)]) ++
          numbered (c.report r) calls

theorem trail_report {c : HeraclesClientImpl} (enabled : c.conf.reportEnabled = true)
    (r : ReportCall) :
    (c.report r).trail = c.trail ++
      if r.metric = [] then []
      else [(r.now, ⟨Sender.nextMsgid c r.now, r.metric, r.tag, r.value⟩)] := by
  have kept : (c.flushed r.now).flatMap timed ++ (c.flush r.now).currentSlot.map (Prod.mk r.now) =
      c.currentSlot.map (Prod.mk c.currentTime) := by
    rw [flushed, flush]
    by_cases due : c.Due r.now
    · by_cases empty : c.currentSlot = []
      · simp [due, empty]
      · simp [due, empty, timed]
    · have same : r.now = c.currentTime := not_not.mp (not_or.mp due).2
      simp [due, ← same]
  have queued : (c.flush r.now).submitQueue = c.submitQueue ++ c.flushed r.now := rfl
  rw [report, Sender.reportEvent_eq enabled, trail, trail, ← kept]
  simp only [queued, List.flatMap_append, List.map_append, List.append_assoc]
  split
  · rfl
  · rfl

theorem trail_run {c : HeraclesClientImpl} (enabled : c.conf.reportEnabled = true)
    (calls : List ReportCall) :
    (run report c calls).trail = c.trail ++ numbered c calls := by
  induction calls generalizing c with
  | nil => exact (List.append_nil _).symm
  | cons r calls ih =>
      rw [run_cons, ih (by rw [conf_report]; exact enabled), trail_report enabled, numbered,
        List.append_assoc]

/-- A numbered event is that of a call, with what the counter is after the call. -/
theorem of_mem_numbered {c : HeraclesClientImpl} (enabled : c.conf.reportEnabled = true)
    {calls : List ReportCall} {p : Int64 × EventData} (inside : p ∈ numbered c calls) :
    ∃ i r, calls[i]? = some r ∧ p.1 = r.now ∧
      p.2.msgid = (run report c (calls.take (i + 1))).msgid := by
  induction calls generalizing c with
  | nil => cases inside
  | cons r calls ih =>
      rcases List.mem_append.mp inside with here | later
      · split at here
        · cases here
        · obtain rfl := List.mem_singleton.mp here
          exact ⟨0, r, rfl, rfl, (msgid_report enabled r).symm⟩
      · obtain ⟨i, r', found, time, id⟩ := ih (by rw [conf_report]; exact enabled) later
        exact ⟨i + 1, r', found, time, id⟩

/-- Calls whose times fall into one slot are fewer than 2^29 apart. -/
def Close (conf : EventHandlerConf) (calls : List ReportCall) : Prop :=
  ∀ i j r r', calls[i]? = some r → calls[j]? = some r' →
    conf.niceStep r.now = conf.niceStep r'.now → j < i + 2 ^ 29

theorem close_of_length {conf : EventHandlerConf} {calls : List ReportCall}
    (few : calls.length < 2 ^ 29) : Close conf calls := by
  intro i j _ _ _ there _
  have := (List.getElem?_eq_some_iff.mp there).1
  omega

theorem Close.tail {conf : EventHandlerConf} {r : ReportCall} {calls : List ReportCall}
    (close : Close conf (r :: calls)) : Close conf calls := by
  intro i j first second here there same
  have := close (i + 1) (j + 1) first second here there same
  omega

/-- No identifier is given twice in a slot. -/
theorem nodup_numbered {c : HeraclesClientImpl} (enabled : c.conf.reportEnabled = true)
    (nonneg : 0 ≤ c.msgid.toInt) {conf : EventHandlerConf} {calls : List ReportCall}
    (counted : Along report Counted c calls) (close : Close conf calls) :
    ((numbered c calls).map fun p => (conf.niceStep p.1, p.2.msgid)).Nodup := by
  induction calls generalizing c with
  | nil => exact List.nodup_nil
  | cons r calls ih =>
      have still : (c.report r).conf.reportEnabled = true := by
        rw [conf_report]
        exact enabled
      have nonneg' : 0 ≤ (c.report r).msgid.toInt := by
        have moved := nextMsgid_cases nonneg counted.1
        rw [← msgid_report enabled] at moved
        omega
      have rest := ih still nonneg' counted.2 close.tail
      rw [numbered]
      split
      · exact rest
      · rw [List.singleton_append, List.map_cons]
        apply List.nodup_cons.mpr
        refine ⟨?_, rest⟩
        intro again
        obtain ⟨p, later, same⟩ := List.mem_map.mp again
        obtain ⟨slot, id⟩ := Prod.mk.inj same
        obtain ⟨i, r', found, time, number⟩ := of_mem_numbered still later
        have near := close 0 (i + 1) r r' rfl found (by rw [← slot, time])
        have early : Along report Counted (c.report r) (calls.take (i + 1)) := by
          have whole := counted.2
          rw [← List.take_append_drop (i + 1) calls] at whole
          exact (along_append.mp whole).1
        have climb := climb_run still nonneg' early
        have length : (calls.take (i + 1)).length = i + 1 := by
          have := (List.getElem?_eq_some_iff.mp found).1
          rw [List.length_take]
          omega
        rw [length] at climb
        apply climb.ne (by omega) (by omega)
        rw [msgid_report enabled, ← number, id]

end HeraclesClientImpl

/-! ### The submit thread -/

namespace Sender

/-- The calls of `report_event` that a step makes. -/
def calls (s : Sender) (a : Action) : List ReportCall :=
  match a, s.stage with
  | .reportEvent metric value tag now, _ => [⟨metric, value, tag, now⟩]
  | .reportEmptyEvent now, .idle => [⟨[], 0, bytes "T", now⟩]
  | .reportEmptyEvent now, .late => [⟨[], 0, bytes "T", now⟩]
  | _, _ => []

/-- The client with every report that was ever pushed in its queue. -/
def whole (s : Sender) : HeraclesClientImpl := { s.client with submitQueue := s.pushed }

theorem whole_report {s : Sender} (enabled : s.client.conf.reportEnabled = true)
    (r : ReportCall) :
    (s.report r.metric r.value r.tag r.now).whole = s.whole.report r := by
  have still : s.whole.conf.reportEnabled = true := enabled
  rw [whole, report, reportEvent_eq enabled, HeraclesClientImpl.report, reportEvent_eq still,
    if_pos enabled]
  rfl

/-- Without the submit thread the client would have all reports in its queue. -/
theorem refines_report :
    Refines step HeraclesClientImpl.report whole calls
      (fun s => s.client.conf.reportEnabled = true) (fun _ _ => True) (fun _ _ => True) := by
  constructor
  · intro s a enabled _
    rw [(stampedEvents_step enabled a).2]
    exact enabled
  · intro s a enabled _
    cases a with
    | reportEvent metric value tag now => exact whole_report enabled ⟨metric, value, tag, now⟩
    | pop start =>
        cases stage : s.stage with
        | popping =>
            cases queue : s.client.submitQueue with
            | nil => simp [step, calls, stage, queue, EQueue.pop, whole]
            | cons report rest => simp [step, calls, stage, queue, EQueue.pop, whole]
        | _ => simp [step, calls, stage]
    | reportEmptyEvent now =>
        have empty := whole_report enabled ⟨[], 0, bytes "T", now⟩
        cases stage : s.stage with
        | idle =>
            simp only [step, calls, stage, run_cons, run_nil]
            exact empty
        | late =>
            simp only [step, calls, stage, run_cons, run_nil]
            exact empty
        | _ => simp [step, calls, stage]
    | _ =>
        cases stage : s.stage with
        | _ => simp [step, calls, stage, whole]
  · intro s a _ _
    exact along_of_forall (fun _ _ => trivial) _

end Sender

/-! ### What the slots keep -/

section Slots

variable {conf : EventHandlerConf} {accepted pushed : List EventReport}

/-- The events of the pushed reports that were accepted. -/
def arrived (pushed accepted : List EventReport) : List (Int64 × EventData) :=
  (pushed.filter fun ev => ev ∈ accepted).flatMap timed

theorem mem_arrived {p : Int64 × EventData} :
    p ∈ arrived pushed accepted ↔
      ∃ ev ∈ pushed, ev ∈ accepted ∧ ev.timestamp = p.1 ∧ p.2 ∈ ev.data := by
  rw [arrived, List.mem_flatMap]
  constructor
  · rintro ⟨ev, inside, there⟩
    obtain ⟨item, held, rfl⟩ := List.mem_map.mp there
    obtain ⟨sent, came⟩ := List.mem_filter.mp inside
    exact ⟨ev, sent, of_decide_eq_true came, rfl, held⟩
  · rintro ⟨ev, sent, came, time, held⟩
    refine ⟨ev, List.mem_filter.mpr ⟨sent, decide_eq_true came⟩, ?_⟩
    exact List.mem_map.mpr ⟨p.2, held, Prod.ext time rfl⟩

theorem nodup_arrived
    (distinct : ((pushed.flatMap timed).map fun p => (conf.niceStep p.1, p.2.msgid)).Nodup) :
    ((arrived pushed accepted).map fun p => (conf.niceStep p.1, p.2.msgid)).Nodup :=
  distinct.sublist ((List.filter_sublist.flatMap _).map _)

/-- What a slot holds of a metric are the events that have arrived for it. -/
theorem mem_contents (sent : ∀ ev ∈ accepted, ev ∈ pushed) {t : Int64} {metric : Bytes}
    {item : EventData} :
    item ∈ ((contents conf accepted t).find? metric).getD [] ↔
      ∃ p ∈ arrived pushed accepted,
        (p.2.metric = metric ∧ conf.niceStep p.1 = t) ∧ p.2 = item := by
  rw [contents, Archive.find?_foldl_pushEvent]
  change item ∈ [] ++ List.filter _ _ ↔ _
  rw [List.nil_append, List.mem_filter, List.mem_flatMap]
  constructor
  · rintro ⟨⟨ev, inside, held⟩, same⟩
    obtain ⟨known, time⟩ := List.mem_filter.mp inside
    refine ⟨(ev.timestamp, item), ?_, ⟨of_decide_eq_true same, of_decide_eq_true time⟩, rfl⟩
    exact mem_arrived.mpr ⟨ev, sent ev known, known, rfl, held⟩
  · rintro ⟨p, came, ⟨same, slot⟩, rfl⟩
    obtain ⟨ev, _, known, time, held⟩ := mem_arrived.mp came
    refine ⟨⟨ev, List.mem_filter.mpr ⟨known, decide_eq_true ?_⟩, held⟩, decide_eq_true same⟩
    rw [EventReport.slotTime, time, slot]

/-- A slot keeps each event of its accepted reports once, however often they came. -/
theorem retained_perm
    (distinct : ((pushed.flatMap timed).map fun p => (conf.niceStep p.1, p.2.msgid)).Nodup)
    (sent : ∀ ev ∈ accepted, ev ∈ pushed) (t : Int64) (metric : Bytes) :
    ((slotAt conf accepted t).retained metric).Perm
      (((arrived pushed accepted).filter fun p =>
        decide (p.2.metric = metric ∧ conf.niceStep p.1 = t)).map Prod.snd) := by
  set events := (arrived pushed accepted).filter fun p =>
    decide (p.2.metric = metric ∧ conf.niceStep p.1 = t)
  have keys : (events.map fun p => (conf.niceStep p.1, p.2.msgid)).Nodup :=
    (nodup_arrived distinct).sublist (List.filter_sublist.map _)
  -- within one slot the identifier alone tells events apart
  have told : ∀ p ∈ events, ∀ q ∈ events, p.2.msgid = q.2.msgid → p = q := by
    intro p insideP q insideQ same
    apply List.inj_on_of_nodup_map keys insideP insideQ
    rw [(of_decide_eq_true (List.mem_filter.mp insideP).2).2,
      (of_decide_eq_true (List.mem_filter.mp insideQ).2).2, same]
  have came {item : EventData} :
      item ∈ ((contents conf accepted t).find? metric).getD [] ↔ ∃ p ∈ events, p.2 = item := by
    rw [mem_contents sent]
    constructor
    · rintro ⟨p, there, wanted, same⟩
      exact ⟨p, List.mem_filter.mpr ⟨there, decide_eq_true wanted⟩, same⟩
    · rintro ⟨p, listed, same⟩
      obtain ⟨there, wanted⟩ := List.mem_filter.mp listed
      exact ⟨p, there, of_decide_eq_true wanted, same⟩
  change (firsts EventData.msgid (((contents conf accepted t).find? metric).getD [])).Perm _
  set kept := firsts EventData.msgid (((contents conf accepted t).find? metric).getD [])
  have first : (kept.map EventData.msgid).Nodup := nodup_map_takeListed _ _
  have old : ∀ item ∈ kept, ∃ p ∈ events, p.2 = item := by
    intro item inside
    exact came.mp ((takeListed_sublist _ _).subset inside)
  apply (List.perm_ext_iff_of_nodup first.of_map ?_).mpr
  · intro item
    rw [List.mem_map]
    constructor
    · exact old item
    · rintro ⟨p, insideP, rfl⟩
      have listed : p.2.msgid ∈ keySet EventData.msgid kept := by
        rw [keySet_firsts]
        exact mem_keySet.mpr ⟨p.2, came.mpr ⟨p, insideP, rfl⟩, rfl⟩
      obtain ⟨other, inside, same⟩ := mem_keySet.mp listed
      obtain ⟨q, insideQ, rfl⟩ := old other inside
      rw [told p insideP q insideQ same.symm]
      exact inside
  · apply List.Nodup.map_on _ keys.of_map
    intro p insideP q insideQ same
    exact told p insideP q insideQ (congrArg EventData.msgid same)

/-- Over the slots that a query sees, what is kept adds up to what has arrived. -/
theorem sum_retained
    (distinct : ((pushed.flatMap timed).map fun p => (conf.niceStep p.1, p.2.msgid)).Nodup)
    (sent : ∀ ev ∈ accepted, ev ∈ pushed) (clock : Int64) (cond : EventCond)
    (amount : EventData → Int) :
    (((Archive.dueTimes conf accepted clock).filter fun t =>
        decide (Archive.Seen conf clock cond t)).map fun t =>
          (((slotAt conf accepted t).retained cond.metric).map amount).sum).sum =
      (((arrived pushed accepted).filter fun p => decide (p.2.metric = cond.metric ∧
        Archive.Seen conf clock cond (conf.niceStep p.1))).map fun p => amount p.2).sum := by
  set times := (Archive.dueTimes conf accepted clock).filter fun t =>
    decide (Archive.Seen conf clock cond t)
  have once : times.Nodup := ((List.nodup_dedup _).filter _).filter _
  have covered : ∀ p ∈ (arrived pushed accepted).filter fun p => decide (p.2.metric = cond.metric ∧
      Archive.Seen conf clock cond (conf.niceStep p.1)), conf.niceStep p.1 ∈ times := by
    intro p inside
    obtain ⟨came, wanted⟩ := List.mem_filter.mp inside
    obtain ⟨_, seen⟩ := of_decide_eq_true wanted
    obtain ⟨ev, _, known, time, _⟩ := mem_arrived.mp came
    apply List.mem_filter.mpr
    refine ⟨List.mem_filter.mpr ⟨?_, decide_eq_true seen.1⟩, decide_eq_true seen⟩
    rw [← time]
    exact List.mem_dedup.mpr (List.mem_map_of_mem known)
  rw [← sum_groups (fun p => amount p.2) once covered]
  apply congrArg
  apply List.map_congr_left
  intro t inside
  have seen : Archive.Seen conf clock cond t := of_decide_eq_true (List.mem_filter.mp inside).2
  rw [((retained_perm distinct sent t cond.metric).map amount).sum_eq, List.map_map, group,
    List.filter_filter]
  apply congrArg
  apply congrArg
  apply List.filter_congr
  intro p _
  rw [← Bool.decide_and]
  apply decide_eq_decide.mpr
  constructor
  · rintro ⟨metric, rfl⟩
    exact ⟨rfl, metric, seen⟩
  · rintro ⟨slot, metric, _⟩
    exact ⟨metric, slot⟩

end Slots

/-! ### From calls to answers -/

/-- An event that a query sees. -/
def SeenEvent (conf : EventHandlerConf) (clock : Int64) (cond : EventCond) (e : Stamped) : Prop :=
  e.metric = cond.metric ∧ Archive.Seen conf clock cond (conf.niceStep e.second)

instance decidableSeenEvent (conf : EventHandlerConf) (clock : Int64) (cond : EventCond)
    (e : Stamped) : Decidable (SeenEvent conf clock cond e) := inferInstanceAs (Decidable (_ ∧ _))

/-- The events of the accepted reports that a query sees, as they were reported. -/
def collected (conf : EventHandlerConf) (clock : Int64) (cond : EventCond)
    (pushed accepted : List EventReport) : List Stamped :=
  ((pushed.filter fun ev => ev ∈ accepted).flatMap stamps).filter fun e =>
    decide (SeenEvent conf clock cond e)

theorem collected_eq (conf : EventHandlerConf) (clock : Int64) (cond : EventCond)
    (pushed accepted : List EventReport) :
    collected conf clock cond pushed accepted =
      ((arrived pushed accepted).filter fun p => decide (p.2.metric = cond.metric ∧
        Archive.Seen conf clock cond (conf.niceStep p.1))).map fun p => stamp p.1 p.2 := by
  have each : stamps = fun report => (timed report).map fun p => stamp p.1 p.2 := by
    funext report
    rw [stamps, timed, List.map_map]
    rfl
  rw [collected, arrived, each, ← List.map_flatMap, List.filter_map]
  rfl

namespace Sender

/-- The events that are or were in the queue carry different identifiers in each slot. -/
theorem nodup_pushed {clientConf : HeraclesClientConf}
    (enabled : clientConf.reportEnabled = true) (service entityIdx : Bytes)
    (actions : List Action) {conf : EventHandlerConf}
    (room : 2 * (movesOf step calls (fresh clientConf service entityIdx) actions).length <
      2 ^ 63 - 1)
    (close : HeraclesClientImpl.Close conf
      (movesOf step calls (fresh clientConf service entityIdx) actions)) :
    (((run step (fresh clientConf service entityIdx) actions).pushed.flatMap timed).map
      fun p => (conf.niceStep p.1, p.2.msgid)).Nodup := by
  have on : (fresh clientConf service entityIdx).client.conf.reportEnabled = true := enabled
  obtain ⟨shown, _⟩ := refines_report.run on
    (along_of_forall (fun a (_ : a ∈ actions) => trivial) _)
  set reported := movesOf step calls (fresh clientConf service entityIdx) actions
  have trail := congrArg HeraclesClientImpl.trail shown
  rw [HeraclesClientImpl.trail_run (c := whole (fresh clientConf service entityIdx)) enabled]
    at trail
  have nonneg : 0 ≤ (whole (fresh clientConf service entityIdx)).msgid.toInt := Int.le_refl 0
  have counted : Along HeraclesClientImpl.report HeraclesClientImpl.Counted
      (whole (fresh clientConf service entityIdx)) reported := by
    apply HeraclesClientImpl.counted_of_length enabled nonneg
    change (0 : Int) + _ < _
    omega
  have distinct := HeraclesClientImpl.nodup_numbered enabled nonneg counted close
  have all : (whole (fresh clientConf service entityIdx)).trail = [] := rfl
  rw [all, List.nil_append] at trail
  rw [← trail] at distinct
  exact distinct.sublist ((List.sublist_append_left _ _).map _)

/-- Two events of one second, pushed when the next second comes. -/
def twoEvents : List Action :=
  [.reportEvent (bytes "m") 7 (bytes "T") 1, .reportEvent (bytes "m") 8 (bytes "T") 1, .pop 1,
    .reportEmptyEvent 2]

/-- Their report. -/
def twoReported : EventReport :=
  ⟨1, bytes "svc", [], [⟨2, bytes "m", bytes "T", 7⟩, ⟨3, bytes "m", bytes "T", 8⟩]⟩

/-- The report comes twice before its slot is stored. -/
def comesTwice : List Op :=
  [.act (.addEvent twoReported), .act (.addEvent twoReported), .act (.tick 20),
    .act .lingerCheck] ++ Archive.processOne

theorem legible_comesTwice :
    Archive.Legible Archive.february (bytes "svc") [] ⟨10, 3, 10⟩ (bytes "201902")
      (run (Archive.step Archive.february)
        (Archive.start (bytes "svc") [] ⟨10, 3, 10⟩ 5 (bytes "db") (bytes "h")) comesTwice) := by
  constructor
  · decide +kernel
  · decide
  · decide +kernel
  · decide +kernel
  · decide +kernel
  · decide +kernel

end Sender

end Heracles.Client
