import Heracles.Business.EventTypes

/-!
The event handler of one service and entity: accepting reports into time slots
and moving slots that have lingered long enough to the processing queue.

`addEvent` reads the clock and applies the linger test before it takes the
lock; `doAddEvent` is the part under the lock. `lingerCheckRun` takes the lock
first and reads the clock under it. The arithmetic section states what the
three time computations mean when none of them leaves the 64-bit range
(`TimeFits`).
-/

namespace Heracles.Business

open Heracles.Base

/-- The parameters of a handler. -/
structure EventHandlerConf where
  eventLinger : Int32
  eventStep : Int32
  additionalProcessStepSize : Int32
deriving DecidableEq

/-- The slot a time belongs to: the end of its step. -/
def EventHandlerConf.niceStep (conf : EventHandlerConf) (t : Int64) : Int64 :=
  t + (conf.eventStep.toInt64 - t % conf.eventStep.toInt64)

/-- The members of a handler. `nextId` counts the slots allocated so far. -/
structure EventHandler where
  service : Bytes
  entityIdx : Bytes
  conf : EventHandlerConf
  events : OrdMap Int64 EventsByTime
  processQueue : List EventsByTime
  nextId : Nat
deriving DecidableEq

namespace EventHandler

/-- A handler as its constructor and `init` leave it. -/
def create (service entityIdx : Bytes) (conf : EventHandlerConf) : EventHandler :=
  ⟨service, entityIdx, conf, .empty, [], 0⟩

/-- Appends one event to the list of its metric. -/
def pushEvent (slot : EventsByMetric) (item : EventData) : EventsByMetric :=
  slot.insert item.metric ((slot.find? item.metric).getD [] ++ [item])

/-- The slot for `evTime`: the one in `events_`, or else a new one. -/
def timedSlot (h : EventHandler) (evTime : Int64) : EventsByTime :=
  (h.events.find? evTime).getD ⟨h.nextId, evTime, h.conf.eventStep.toInt64, .empty⟩

/-- Inserts the events of a report into the slot of its time. Runs under the
lock and always returns 0. -/
def doAddEvent (h : EventHandler) (evTime : Int64) (data : List EventData) : EventHandler :=
  let evTime := h.conf.niceStep evTime
  let slot := h.timedSlot evTime
  { h with
    events := h.events.insert evTime { slot with data := data.foldl pushEvent slot.data }
    nextId := if (h.events.find? evTime).isSome then h.nextId else h.nextId + 1 }

theorem doAddEvent_of_none {h : EventHandler} {evTime : Int64} (data : List EventData)
    (absent : h.events.find? (h.conf.niceStep evTime) = none) :
    h.doAddEvent evTime data =
      { h with
        events := h.events.insert (h.conf.niceStep evTime)
          ⟨h.nextId, h.conf.niceStep evTime, h.conf.eventStep.toInt64, data.foldl pushEvent .empty⟩
        nextId := h.nextId + 1 } := by
  simp [doAddEvent, timedSlot, absent]

theorem doAddEvent_of_some {h : EventHandler} {evTime : Int64} (data : List EventData)
    {slot : EventsByTime} (present : h.events.find? (h.conf.niceStep evTime) = some slot) :
    h.doAddEvent evTime data =
      { h with
        events := h.events.insert (h.conf.niceStep evTime)
          { slot with data := data.foldl pushEvent slot.data } } := by
  simp [doAddEvent, timedSlot, present]

/-- The tests `addEvent` makes before it takes the lock: 0 when the report may
be inserted, -1 when it is for another service or too old at clock `now`. -/
def addEventCheck (h : EventHandler) (now : Int64) (ev : EventReport) : Int32 :=
  if ev.service ≠ h.service then -1
  else if now - ev.timestamp > h.conf.eventLinger.toInt64 then -1
  else 0

theorem addEventCheck_eq_zero_iff {h : EventHandler} {now : Int64} {ev : EventReport} :
    h.addEventCheck now ev = 0 ↔
      ev.service = h.service ∧ ¬ now - ev.timestamp > h.conf.eventLinger.toInt64 := by
  unfold addEventCheck
  split
  · rename_i other
    simp [other]
  · rename_i same
    split
    · rename_i old
      simp [old]
    · rename_i young
      simp [not_not.mp same, young]

/-- `add_event` with its clock reading and its insertion at one moment. -/
def addEvent (h : EventHandler) (now : Int64) (ev : EventReport) : Int32 × EventHandler :=
  if h.addEventCheck now ev = 0 then (0, h.doAddEvent ev.timestamp ev.data) else (-1, h)

/-- The flush test of `linger_check_run`. -/
def lingered (h : EventHandler) (now : Int64) (key : Int64) : Bool :=
  decide (key + h.conf.eventLinger.toInt64 < now)

/-- Moves slots to the processing queue in ascending key order, up to the first
one that has not lingered long enough. Also returns the slots moved. -/
def lingerCheckRun (h : EventHandler) (now : Int64) : List EventsByTime × EventHandler :=
  let popped := h.events.popWhile (h.lingered now)
  (popped.1, { h with processQueue := h.processQueue ++ popped.1, events := popped.2 })

end EventHandler

/-! ### The effect on the keys of the open slots -/

namespace EventHandler

theorem mem_keys_doAddEvent {h : EventHandler} {evTime : Int64} {data : List EventData}
    {key : Int64} :
    key ∈ (h.doAddEvent evTime data).events.keys ↔
      key = h.conf.niceStep evTime ∨ key ∈ h.events.keys := by
  simp [doAddEvent, OrdMap.mem_keys_insert]

theorem mem_keys_of_lingerCheckRun {h : EventHandler} {now key : Int64}
    (member : key ∈ (h.lingerCheckRun now).2.events.keys) : key ∈ h.events.keys := by
  obtain ⟨e, inRest, rfl⟩ := List.mem_map.mp member
  exact List.mem_map_of_mem ((List.dropWhile_sublist _).subset inRest)

/-- Every open slot carries its key as its timestamp. -/
def Keyed (h : EventHandler) : Prop := ∀ e ∈ h.events.entries, e.2.timestamp = e.1

theorem Keyed.doAddEvent {h : EventHandler} (keyed : h.Keyed) (evTime : Int64)
    (data : List EventData) : (h.doAddEvent evTime data).Keyed := by
  rintro ⟨key, slot⟩ member
  cases present : h.events.find? (h.conf.niceStep evTime) with
  | none =>
      rw [doAddEvent_of_none data present] at member
      rcases (OrdMap.mem_insertEntry h.events.sorted).mp member with same | ⟨_, member⟩
      · cases same
        rfl
      · exact keyed _ member
  | some old =>
      rw [doAddEvent_of_some data present] at member
      rcases (OrdMap.mem_insertEntry h.events.sorted).mp member with same | ⟨_, member⟩
      · cases same
        have oldKeyed : old.timestamp = _ := keyed (_, old) (OrdMap.mem_entries_iff.mpr present)
        exact oldKeyed
      · exact keyed _ member

theorem Keyed.lingerCheckRun {h : EventHandler} (keyed : h.Keyed) (now : Int64) :
    (h.lingerCheckRun now).2.Keyed := fun e member =>
  keyed e ((List.dropWhile_sublist _).subset member)

/-- Every open slot can be compared with the clock without leaving the range. -/
def Roomy (h : EventHandler) : Prop :=
  ∀ key ∈ h.events.keys, Fits64 (key.toInt + h.conf.eventLinger.toInt)

end EventHandler

/-! ### Time arithmetic inside the 64-bit range -/

section Arithmetic

variable {conf : EventHandlerConf}

/-- None of the computations made for a report with timestamp `ts` at clock
`now` leaves the 64-bit range: the age of the report, the key of its slot and
the end of that slot's linger time. -/
def TimeFits (conf : EventHandlerConf) (now ts : Int64) : Prop :=
  Fits64 (now.toInt - ts.toInt) ∧
    ts.toInt + (conf.eventStep.toInt - ts.toInt.tmod conf.eventStep.toInt) +
      conf.eventLinger.toInt < 2 ^ 63

instance (now ts : Int64) : Decidable (TimeFits conf now ts) :=
  inferInstanceAs (Decidable (_ ∧ _))

theorem tmod_bounds {s : Int} (positive : 0 < s) (t : Int) : -s < t.tmod s ∧ t.tmod s < s := by
  refine ⟨?_, Int.tmod_lt_of_pos t positive⟩
  have := Int.tmod_lt_of_pos (-t) positive
  rw [Int.neg_tmod] at this
  omega

theorem int32_bounds (a : Int32) : -2 ^ 31 ≤ a.toInt ∧ a.toInt < 2 ^ 31 :=
  ⟨a.le_toInt, a.toInt_lt⟩

variable {now ts : Int64}

/-- What a time lacks to the end of its step fits in any case. -/
theorem toInt_step_sub_mod (step : 0 < conf.eventStep.toInt) (t : Int64) :
    (conf.eventStep.toInt64 - t % conf.eventStep.toInt64).toInt =
      conf.eventStep.toInt - t.toInt.tmod conf.eventStep.toInt := by
  have bounds := tmod_bounds step t.toInt
  have stepBound := int32_bounds conf.eventStep
  rw [toInt_sub_of_fits] <;> simp only [Int32.toInt_toInt64, Int64.toInt_mod]
  exact ⟨by omega, by omega⟩

/-- The value of a slot key that fits. -/
theorem toInt_niceStep (step : 0 < conf.eventStep.toInt) (linger : 0 < conf.eventLinger.toInt)
    (fits : TimeFits conf now ts) :
    (conf.niceStep ts).toInt =
      ts.toInt + (conf.eventStep.toInt - ts.toInt.tmod conf.eventStep.toInt) := by
  have bounds := tmod_bounds step ts.toInt
  have low := ts.le_toInt
  rw [EventHandlerConf.niceStep, toInt_add_of_fits] <;> rw [toInt_step_sub_mod step]
  exact ⟨by omega, by have := fits.2; omega⟩

/-- A slot ends after every time that belongs to it. -/
theorem lt_niceStep (step : 0 < conf.eventStep.toInt) (linger : 0 < conf.eventLinger.toInt)
    (fits : TimeFits conf now ts) : ts.toInt < (conf.niceStep ts).toInt := by
  rw [toInt_niceStep step linger fits]
  have := tmod_bounds step ts.toInt
  omega

/-- The key of an accepted report leaves room for the linger time. -/
theorem niceStep_room (step : 0 < conf.eventStep.toInt) (linger : 0 < conf.eventLinger.toInt)
    (fits : TimeFits conf now ts) :
    Fits64 ((conf.niceStep ts).toInt + conf.eventLinger.toInt) := by
  have low := (conf.niceStep ts).le_toInt
  refine ⟨by omega, ?_⟩
  rw [toInt_niceStep step linger fits]
  exact fits.2

/-- The linger test of `add_event` on integers. -/
theorem not_too_old_iff (fits : TimeFits conf now ts) :
    ¬ now - ts > conf.eventLinger.toInt64 ↔
      now.toInt - ts.toInt ≤ conf.eventLinger.toInt := by
  rw [gt_iff_lt, Int64.lt_iff_toInt_lt, toInt_sub_of_fits fits.1, Int32.toInt_toInt64, not_lt]

/-- The flush test on integers, for a key that leaves room for the linger time. -/
theorem lingered_iff {h : EventHandler} {key : Int64}
    (room : Fits64 (key.toInt + h.conf.eventLinger.toInt)) :
    h.lingered now key = true ↔ key.toInt + h.conf.eventLinger.toInt < now.toInt := by
  have sum : (key + h.conf.eventLinger.toInt64).toInt =
      key.toInt + h.conf.eventLinger.toInt := by
    rw [toInt_add_of_fits] <;> rw [Int32.toInt_toInt64]
    exact room
  rw [EventHandler.lingered, decide_eq_true_iff, Int64.lt_iff_toInt_lt, sum]

/-- With room for the linger time the flush moves exactly the slots that are
due, in ascending key order: the walk may stop at the first young slot because
every later one is younger. -/
theorem lingerCheckRun_of_roomy {h : EventHandler} (roomy : h.Roomy) (now : Int64) :
    (h.lingerCheckRun now).1 = (h.events.entries.filter fun e =>
        decide (e.1.toInt + h.conf.eventLinger.toInt < now.toInt)).map Prod.snd ∧
      (h.lingerCheckRun now).2.events.entries = h.events.entries.filter fun e =>
        !decide (e.1.toInt + h.conf.eventLinger.toInt < now.toInt) := by
  have test : ∀ e ∈ h.events.entries, h.lingered now e.1 =
      decide (e.1.toInt + h.conf.eventLinger.toInt < now.toInt) := by
    intro e member
    rw [Bool.eq_iff_iff, lingered_iff (roomy e.1 (List.mem_map_of_mem member)),
      decide_eq_true_iff]
  have inherits : ∀ j ∈ h.events.keys, ∀ k ∈ h.events.keys, j < k →
      h.lingered now k = true → h.lingered now j = true := by
    intro j memberJ k memberK less due
    rw [lingered_iff (roomy _ memberK)] at due
    rw [lingered_iff (roomy _ memberJ)]
    have := Int64.lt_iff_toInt_lt.mp less
    omega
  constructor
  · rw [EventHandler.lingerCheckRun, OrdMap.popWhile_fst inherits, List.filter_congr test]
  · rw [EventHandler.lingerCheckRun, OrdMap.popWhile_snd inherits]
    exact List.filter_congr fun e member => by rw [test e member]

/-- A slot that is due is moved, and only such slots are. -/
theorem mem_lingerCheckRun_iff {h : EventHandler} (roomy : h.Roomy) {now : Int64}
    {slot : EventsByTime} :
    slot ∈ (h.lingerCheckRun now).1 ↔ ∃ key, (key, slot) ∈ h.events.entries ∧
      key.toInt + h.conf.eventLinger.toInt < now.toInt := by
  rw [(lingerCheckRun_of_roomy roomy now).1]
  simp

theorem mem_keys_lingerCheckRun_iff {h : EventHandler} (roomy : h.Roomy) {now key : Int64} :
    key ∈ (h.lingerCheckRun now).2.events.keys ↔ key ∈ h.events.keys ∧
      ¬ key.toInt + h.conf.eventLinger.toInt < now.toInt := by
  rw [OrdMap.keys, (lingerCheckRun_of_roomy roomy now).2]
  simp [OrdMap.keys]

end Arithmetic

end Heracles.Business
