import Heracles.Business.Aggregate
import Heracles.Client.Batching

/-!
The identifiers of the client's events.

One call moves the counter by one or two, or back to one once it has passed 32
bits (`nextMsgid_cases`). `Climb` is what any number of calls can do to it:
either it has grown by one or two a call, or it is small now and was near the
end of its range. Calls fewer than 2^29 apart therefore give different
identifiers, and what the server takes for duplicates are duplicates.
-/

namespace Heracles.Client

open Heracles.Base
open Heracles.Business

/-- A `report_event` with the clock it reads. -/
structure ReportCall where
  metric : Bytes
  value : Int64
  tag : Bytes
  now : Int64
  deriving DecidableEq

namespace HeraclesClientImpl

def report (c : HeraclesClientImpl) (r : ReportCall) : HeraclesClientImpl :=
  c.reportEvent r.metric r.value r.tag r.now

/-- The call appends this event to the slot it leaves behind. -/
def Puts (c : HeraclesClientImpl) (r : ReportCall) (event : EventData) : Prop :=
  c.conf.reportEnabled = true ∧
    (c.report r).currentSlot = (c.flush r.now).currentSlot ++ [event]

/-- The call with this index puts the event into the slot. -/
def PutAt (c : HeraclesClientImpl) (calls : List ReportCall) (i : Nat) (event : EventData) : Prop :=
  ∃ r, calls[i]? = some r ∧ Puts (run report c (calls.take i)) r event

/-- The counter can be incremented. -/
def Counted (c : HeraclesClientImpl) (_ : ReportCall) : Prop := c.msgid ≠ Int64.maxValue

instance (c : HeraclesClientImpl) (r : ReportCall) : Decidable (Counted c r) :=
  inferInstanceAs (Decidable (_ ≠ _))

/-! ### One call -/

theorem conf_report (c : HeraclesClientImpl) (r : ReportCall) : (c.report r).conf = c.conf :=
  Sender.conf_reportEvent c r.metric r.value r.tag r.now

theorem msgid_report {c : HeraclesClientImpl} (enabled : c.conf.reportEnabled = true)
    (r : ReportCall) : (c.report r).msgid = Sender.nextMsgid c r.now := by
  rw [report, Sender.reportEvent_eq enabled]

/-- An event carries the identifier the counter is left at. -/
theorem Puts.msgid {c : HeraclesClientImpl} {r : ReportCall} {event : EventData}
    (puts : Puts c r event) : event.msgid = (c.report r).msgid := by
  obtain ⟨enabled, appended⟩ := puts
  rw [msgid_report enabled]
  rw [report, Sender.reportEvent_eq enabled] at appended
  have last := List.append_cancel_left appended
  split at last
  · cases last
  · rw [← List.singleton_inj.mp last]

theorem Puts.unique {c : HeraclesClientImpl} {r : ReportCall} {event event' : EventData}
    (puts : Puts c r event) (puts' : Puts c r event') : event = event' :=
  List.singleton_inj.mp (List.append_cancel_left (puts.2.symm.trans puts'.2))

/-- Where the counter can be incremented it is. -/
theorem toInt_succ {n : Int64} (counted : n ≠ Int64.maxValue) : (n + 1).toInt = n.toInt + 1 := by
  have lower := n.le_toInt
  have upper := n.toInt_lt
  have below : n.toInt ≠ 2 ^ 63 - 1 := fun top => counted (Int64.toInt_inj.mp top)
  rw [Int64.toInt_add]
  exact Int.bmod_eq_of_le (by simp; omega) (by simp; omega)

/-- A call moves the counter by one or two, or sets it back. -/
theorem nextMsgid_cases {c : HeraclesClientImpl} (nonneg : 0 ≤ c.msgid.toInt) {r : ReportCall}
    (counted : Counted c r) :
    (Sender.nextMsgid c r.now).toInt = c.msgid.toInt + 1 ∨
      (Sender.nextMsgid c r.now).toInt = c.msgid.toInt + 2 ∨
      (Sender.nextMsgid c r.now).toInt = 1 ∧ 2 ^ 31 - 2 ≤ c.msgid.toInt := by
  have first := toInt_succ counted
  rw [Sender.nextMsgid, restartMsgid]
  by_cases changed : r.now = c.currentTime
  · rw [if_neg (not_not.mpr changed)]
    exact Or.inl first
  · rw [if_pos changed]
    by_cases passed : (2147483647 : Int64) ≤ c.msgid + 1
    · simp only [if_pos passed]
      refine Or.inr (Or.inr ⟨rfl, ?_⟩)
      have far := Int64.le_iff_toInt_le.mp passed
      rw [first] at far
      change (2147483647 : Int) ≤ _ at far
      omega
    · simp only [if_neg passed]
      have near := mt Int64.le_iff_toInt_le.mpr passed
      rw [first] at near
      change ¬(2147483647 : Int) ≤ _ at near
      have again : c.msgid + 1 ≠ Int64.maxValue := by
        intro top
        have value := congrArg Int64.toInt top
        rw [first] at value
        change _ = (2 ^ 63 - 1 : Int) at value
        omega
      refine Or.inr (Or.inl ?_)
      rw [toInt_succ again, first]
      omega

/-! ### Any number of calls -/

/-- What `d` calls can make of the counter. -/
def Climb (d : Nat) (before after : Int) : Prop :=
  (before + d ≤ after ∧ after ≤ before + 2 * d) ∨
    (1 ≤ after ∧ after ≤ 2 * d ∧ 2 ^ 31 - 2 ≤ before + 2 * d)

theorem Climb.ne {d : Nat} {before after : Int} (climb : Climb d before after) (later : 0 < d)
    (few : d < 2 ^ 29) : before ≠ after := by
  rcases climb with ⟨more, _⟩ | ⟨_, small, large⟩
  · omega
  · omega

theorem climb_run {c : HeraclesClientImpl} (enabled : c.conf.reportEnabled = true)
    (nonneg : 0 ≤ c.msgid.toInt) {calls : List ReportCall}
    (counted : Along report Counted c calls) :
    Climb calls.length c.msgid.toInt (run report c calls).msgid.toInt := by
  induction calls generalizing c with
  | nil => exact Or.inl ⟨by simp, by simp⟩
  | cons r calls ih =>
      have moved := nextMsgid_cases nonneg counted.1
      rw [← msgid_report enabled] at moved
      have rest := ih (by rw [conf_report]; exact enabled) (by omega) counted.2
      rw [run_cons, List.length_cons, Climb]
      rw [Climb] at rest
      push_cast
      omega

/-- The counter has room for a sequence that is not astronomically long. -/
theorem counted_of_length {c : HeraclesClientImpl} (enabled : c.conf.reportEnabled = true)
    (nonneg : 0 ≤ c.msgid.toInt) {calls : List ReportCall}
    (room : c.msgid.toInt + 2 * calls.length < 2 ^ 63 - 1) : Along report Counted c calls := by
  induction calls generalizing c with
  | nil => trivial
  | cons r calls ih =>
      rw [List.length_cons] at room
      push_cast at room
      have counted : Counted c r := by
        intro top
        rw [top, Int64.toInt_maxValue] at room
        omega
      have moved := nextMsgid_cases nonneg counted
      rw [← msgid_report enabled] at moved
      exact ⟨counted, ih (by rw [conf_report]; exact enabled) (by omega) (by omega)⟩

theorem conf_run (c : HeraclesClientImpl) (calls : List ReportCall) :
    (run report c calls).conf = c.conf :=
  run_invariant (P := fun c' => c'.conf = c.conf)
    (fun c' r same => (conf_report c' r).trans same) rfl calls

section Calls

variable {c : HeraclesClientImpl} {calls : List ReportCall}

theorem PutAt.lt {i : Nat} {event : EventData} (put : PutAt c calls i event) :
    i < calls.length := by
  obtain ⟨r, found, _⟩ := put
  exact (List.getElem?_eq_some_iff.mp found).1

theorem PutAt.enabled {i : Nat} {event : EventData} (put : PutAt c calls i event) :
    c.conf.reportEnabled = true := by
  obtain ⟨r, _, puts⟩ := put
  rw [← conf_run c (calls.take i)]
  exact puts.1

/-- The event of call `i` carries what the counter is after `i + 1` calls. -/
theorem PutAt.msgid {i : Nat} {event : EventData} (put : PutAt c calls i event) :
    event.msgid = (run report c (calls.take (i + 1))).msgid := by
  obtain ⟨r, found, puts⟩ := put
  have taken : calls.take (i + 1) = calls.take i ++ [r] := by
    rw [List.take_add_one, found]
    rfl
  rw [puts.msgid, taken, run_append, run_cons, run_nil]

theorem PutAt.unique {i : Nat} {event event' : EventData} (put : PutAt c calls i event)
    (put' : PutAt c calls i event') : event = event' := by
  obtain ⟨r, found, puts⟩ := put
  obtain ⟨r', found', puts'⟩ := put'
  cases found.symm.trans found'
  exact puts.unique puts'

/-- The counter from one place of a sequence of calls to a later one. -/
theorem climb_between (enabled : c.conf.reportEnabled = true) (nonneg : 0 ≤ c.msgid.toInt)
    (counted : Along report Counted c calls) {a b : Nat} (before : a ≤ b)
    (within : b ≤ calls.length) :
    Climb (b - a) (run report c (calls.take a)).msgid.toInt
      (run report c (calls.take b)).msgid.toInt := by
  have early : Along report Counted c (calls.take b) := by
    rw [← List.take_append_drop b calls] at counted
    exact (along_append.mp counted).1
  have split : calls.take b = calls.take a ++ (calls.take b).drop a := by
    have whole := List.take_append_drop a (calls.take b)
    rw [List.take_take, min_eq_left before] at whole
    exact whole.symm
  rw [split] at early ⊢
  obtain ⟨first, second⟩ := along_append.mp early
  have start := climb_run enabled nonneg first
  have length : ((calls.take b).drop a).length = b - a := by
    rw [List.length_drop, List.length_take, min_eq_left within]
  rw [run_append, ← length]
  refine climb_run ?_ ?_ second
  · rw [conf_run]
    exact enabled
  · rw [Climb] at start
    omega

/-- Events put by calls fewer than 2^29 apart have different identifiers. -/
theorem PutAt.msgid_ne (nonneg : 0 ≤ c.msgid.toInt) (counted : Along report Counted c calls)
    {i j : Nat} {event event' : EventData} (put : PutAt c calls i event)
    (put' : PutAt c calls j event') (later : i < j) (near : j < i + 2 ^ 29) :
    event.msgid ≠ event'.msgid := by
  have climb := climb_between put.enabled nonneg counted (Nat.succ_le_succ later.le) put'.lt
  have differ := climb.ne (by omega) (by omega)
  rw [put.msgid, put'.msgid]
  exact fun same => differ (congrArg Int64.toInt same)

/-- What the server keeps of events put by calls fewer than 2^29 apart: one with
every identifier, hence all of them. -/
theorem mem_dedup_of_putAt (nonneg : 0 ≤ c.msgid.toInt) (counted : Along report Counted c calls)
    {start : Nat} {data : List EventData}
    (put : ∀ event ∈ data, ∃ i, start ≤ i ∧ i < start + 2 ^ 29 ∧ PutAt c calls i event)
    {event : EventData} (mem : event ∈ data) : event ∈ dedup data := by
  rw [dedup_eq_firsts]
  have wanted : event.msgid ∈ keySet EventData.msgid (firsts EventData.msgid data) := by
    rw [keySet_firsts]
    exact mem_keySet.mpr ⟨event, mem, rfl⟩
  obtain ⟨kept, first, same⟩ := mem_keySet.mp wanted
  obtain ⟨i, lower, upper, here⟩ := put event mem
  obtain ⟨j, lower', upper', there⟩ := put kept ((takeListed_sublist _ _).subset first)
  rcases Nat.lt_trichotomy i j with less | rfl | greater
  · exact absurd same.symm (here.msgid_ne nonneg counted there less (by omega))
  · rw [here.unique there]
    exact first
  · exact absurd same (there.msgid_ne nonneg counted here greater (by omega))

end Calls

/-- Every call reads the same second. -/
def steady : ReportCall := ⟨bytes "m", 0, bytes "T", 1⟩

theorem msgid_steady {c : HeraclesClientImpl} (enabled : c.conf.reportEnabled = true)
    (second : c.currentTime = steady.now) : (c.report steady).msgid = c.msgid + 1 := by
  rw [msgid_report enabled, Sender.nextMsgid, restartMsgid]
  exact if_neg (not_not.mpr second.symm)

/-- Each of them adds one, as long as there is room. -/
theorem run_steady {c : HeraclesClientImpl} (enabled : c.conf.reportEnabled = true)
    (second : c.currentTime = steady.now) {n : Nat} (room : c.msgid.toInt + n < 2 ^ 63) :
    (run report c (List.replicate n steady)).msgid.toInt = c.msgid.toInt + n ∧
      (run report c (List.replicate n steady)).currentTime = steady.now := by
  induction n generalizing c with
  | zero => exact ⟨(Int.add_zero _).symm, second⟩
  | succ n ih =>
      have next : (c.report steady).currentTime = steady.now := by
        rw [report, Sender.reportEvent_eq enabled]
      have counted : c.msgid ≠ Int64.maxValue := by
        intro top
        rw [top, Int64.toInt_maxValue] at room
        push_cast at room
        omega
      have moved : (c.report steady).msgid.toInt = c.msgid.toInt + 1 := by
        rw [msgid_steady enabled second, toInt_succ counted]
      obtain ⟨rest, time⟩ := ih (by rw [conf_report]; exact enabled) next (by rw [moved]; omega)
      rw [List.replicate_succ, run_cons]
      refine ⟨?_, time⟩
      rw [rest, moved]
      omega

/-- A client that reports. -/
def reporting : HeraclesClientImpl := fresh ⟨true, 5, by decide⟩ [] []

/-- Within one second the counter reaches its greatest value, and the next event
has a negative identifier. -/
theorem steady_overflows :
    ∃ event, PutAt reporting (List.replicate (2 ^ 63) steady) (2 ^ 63 - 2) event ∧
      event.msgid < 0 := by
  have calls : (List.replicate (2 ^ 63) steady).take (2 ^ 63 - 2) =
      steady :: List.replicate (2 ^ 63 - 3) steady := by
    rw [List.take_replicate, ← List.replicate_succ]
    rfl
  have start : (reporting.report steady).msgid.toInt = 2 := by decide
  obtain ⟨count, second⟩ := @run_steady (reporting.report steady) rfl rfl (2 ^ 63 - 3)
    (by rw [start]; decide)
  rw [start] at count
  have conf := conf_run (reporting.report steady) (List.replicate (2 ^ 63 - 3) steady)
  generalize reached : run report (reporting.report steady) (List.replicate (2 ^ 63 - 3) steady) = c
    at count second conf
  have enabled : c.conf.reportEnabled = true := by rw [conf]; rfl
  have top : c.msgid = Int64.maxValue := Int64.toInt_inj.mp (by rw [count]; decide)
  have next : Sender.nextMsgid c steady.now = Int64.minValue := by
    rw [← msgid_report enabled, msgid_steady enabled second, top]
    rfl
  refine ⟨⟨Int64.minValue, bytes "m", bytes "T", 0⟩, ⟨steady, ?_, ?_⟩, by decide⟩
  · exact List.getElem?_replicate_of_lt (by decide)
  · rw [calls, run_cons, reached]
    refine ⟨enabled, ?_⟩
    rw [report, Sender.reportEvent_eq enabled, next]
    rfl

end HeraclesClientImpl

end Heracles.Client
