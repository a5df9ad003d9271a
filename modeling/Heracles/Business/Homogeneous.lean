import Heracles.Base.Runs
import Heracles.Business.Conservation
import Heracles.Business.HandlerConf

/-!
What interval a slot stands for.

A slot is found by the end of the step its events belong to, computed with the
step in force, and records the step it was created with. While the step is
changed, `homogeneous_iff` says for which runs every event of a slot lies in the
recorded step before the slot's time: those in which no computed end leaves the
64-bit range and no event is put into an open slot of a step too small for it
(`Reaches`).
-/

namespace Heracles.Business

open Heracles.Base

/-! ### The end of a step -/

/-- How long after `t` its step ends. -/
def EventHandlerConf.toEnd (conf : EventHandlerConf) (t : Int64) : Int :=
  conf.eventStep.toInt - t.toInt % conf.eventStep.toInt

section Arithmetic

variable {conf : EventHandlerConf} {t : Int64}

theorem toEnd_bounds (step : 0 < conf.eventStep.toInt) :
    0 < conf.toEnd t ∧ conf.toEnd t ≤ conf.eventStep.toInt := by
  have low := Int.emod_nonneg t.toInt (Int.ne_of_gt step)
  have high := Int.emod_lt_of_pos t.toInt step
  unfold EventHandlerConf.toEnd
  omega

theorem toInt_niceStep_wraps (step : 0 < conf.eventStep.toInt) (positive : 0 < t.toInt) :
    (conf.niceStep t).toInt = (t.toInt + conf.toEnd t).bmod (2 ^ 64) := by
  have same : t.toInt.tmod conf.eventStep.toInt = t.toInt % conf.eventStep.toInt :=
    Int.tmod_eq_emod_of_nonneg (Int.le_of_lt positive)
  rw [EventHandlerConf.niceStep, Int64.toInt_add, toInt_step_sub_mod step, same]
  rfl

/-- A computed end in range is the end of the step. -/
theorem toInt_niceStep_of_fits (step : 0 < conf.eventStep.toInt) (positive : 0 < t.toInt)
    (fits : t.toInt + conf.toEnd t < 2 ^ 63) :
    (conf.niceStep t).toInt = t.toInt + conf.toEnd t := by
  have bounds := toEnd_bounds (t := t) step
  rw [toInt_niceStep_wraps step positive, bmod_of_fits]
  exact ⟨by omega, fits⟩

/-- Any other one is before the time it is computed for. -/
theorem lt_niceStep_iff (step : 0 < conf.eventStep.toInt) (positive : 0 < t.toInt) :
    t.toInt < (conf.niceStep t).toInt ↔ t.toInt + conf.toEnd t < 2 ^ 63 := by
  have bounds := toEnd_bounds (t := t) step
  constructor
  · intro later
    by_contra wide
    have stepBound := int32_bounds conf.eventStep
    have high := t.toInt_lt
    rw [toInt_niceStep_wraps step positive, Int.bmod_def] at later
    norm_num at later wide high
    split at later <;> omega
  · intro fits
    rw [toInt_niceStep_of_fits step positive fits]
    omega

end Arithmetic

/-! ### Where events are put -/

/-- An event, the time it was reported for and the slot it was put into. -/
structure Placed where
  slot : Nat
  time : Int64
  event : EventData
deriving DecidableEq

/-- A handler with the history of its insertions. -/
structure Traced where
  handler : EventHandler
  placed : List Placed
deriving DecidableEq

namespace Traced

def start (service entityIdx : Bytes) (conf : EventHandlerConf) : Traced :=
  ⟨.create service entityIdx conf, []⟩

inductive Action where
  | addEvent (now : Int64) (ev : EventReport)
  | updateRuntimeConf (cfg : Config)
  | lingerCheckRun (now : Int64)
deriving DecidableEq

/-- An insertion, recorded. -/
def doAddEvent (s : Traced) (ev : EventReport) : Traced :=
  let slot := s.handler.timedSlot (s.handler.conf.niceStep ev.timestamp)
  { handler := s.handler.doAddEvent ev.timestamp ev.data
    placed := s.placed ++ ev.data.map fun item => ⟨slot.id, ev.timestamp, item⟩ }

def step (s : Traced) : Action → Traced
  | .addEvent now ev => if s.handler.addEventCheck now ev = 0 then s.doAddEvent ev else s
  | .updateRuntimeConf cfg =>
      { s with handler := { s.handler with
          conf := s.handler.conf.updateRuntimeConf cfg s.handler.service } }
  | .lingerCheckRun now => { s with handler := (s.handler.lingerCheckRun now).2 }

/-- Timestamps are positive. -/
def Action.Positive : Action → Prop
  | .addEvent _ ev => 0 < ev.timestamp.toInt
  | _ => True

/-- A time lies in the recorded step before the slot's key. -/
def Covers (key : Int64) (slot : EventsByTime) (time : Int64) : Prop :=
  key.toInt - slot.step.toInt ≤ time.toInt ∧ time.toInt < key.toInt

instance (key : Int64) (slot : EventsByTime) (time : Int64) : Decidable (Covers key slot time) :=
  inferInstanceAs (Decidable (_ ∧ _))

/-- Every slot covers the times of the events it holds. -/
def Homogeneous (s : Traced) : Prop :=
  ∀ e ∈ s.handler.events.entries, ∀ p ∈ s.placed, p.slot = e.2.id → Covers e.1 e.2 p.time

instance (a : Action) : Decidable a.Positive := by
  unfold Action.Positive
  split <;> infer_instance

instance (s : Traced) : Decidable (Homogeneous s) :=
  inferInstanceAs (Decidable (∀ e ∈ s.handler.events.entries, _))

/-- The slot for a time will cover it: the end of its step is in range and not
farther than the step of an open slot it falls into. -/
def Reaches (s : Traced) : Action → Prop
  | .addEvent now ev =>
      s.handler.addEventCheck now ev = 0 → ev.data ≠ [] →
        ev.timestamp.toInt + s.handler.conf.toEnd ev.timestamp < 2 ^ 63 ∧
        ∀ slot ∈ s.handler.events.find? (s.handler.conf.niceStep ev.timestamp),
          s.handler.conf.toEnd ev.timestamp ≤ slot.step.toInt
  | _ => True

/-! ### The history is that of the slots -/

/-- Slots have numbers of their own, the history tells what they hold, and the
step is positive. -/
structure Recorded (s : Traced) : Prop where
  numbered : ∀ p ∈ s.placed, p.slot < s.handler.nextId
  allocated : ∀ e ∈ s.handler.events.entries, e.2.id < s.handler.nextId
  distinct : ∀ e ∈ s.handler.events.entries, ∀ e' ∈ s.handler.events.entries,
    e.2.id = e'.2.id → e.1 = e'.1
  contents : ∀ e ∈ s.handler.events.entries,
    e.2.events.Perm ((s.placed.filter fun p => p.slot = e.2.id).map Placed.event)
  positive : 0 < s.handler.conf.eventStep.toInt

theorem recorded_start (service entityIdx : Bytes) {conf : EventHandlerConf}
    (step : 0 < conf.eventStep.toInt) : Recorded (start service entityIdx conf) where
  numbered := by simp [start]
  allocated := by simp [start, EventHandler.create, OrdMap.empty]
  distinct := by simp [start, EventHandler.create, OrdMap.empty]
  contents := by simp [start, EventHandler.create, OrdMap.empty]
  positive := step

/-- A slot after an insertion: the one inserted into, or one under another key
as it was. -/
theorem mem_doAddEvent {h : EventHandler} {t : Int64} {data : List EventData}
    {e : Int64 × EventsByTime} (member : e ∈ (h.doAddEvent t data).events.entries) :
    (e.1 = h.conf.niceStep t ∧ e.2 =
      { h.timedSlot (h.conf.niceStep t) with
        data := data.foldl EventHandler.pushEvent (h.timedSlot (h.conf.niceStep t)).data }) ∨
    (e.1 ≠ h.conf.niceStep t ∧ e ∈ h.events.entries) := by
  rcases (OrdMap.mem_insertEntry h.events.sorted).mp member with rfl | ⟨apart, old⟩
  · exact .inl ⟨rfl, rfl⟩
  · exact .inr ⟨apart, old⟩

/-- The slot for a key is the open one, or new. -/
theorem timedSlot_cases (h : EventHandler) (key : Int64) :
    (key, h.timedSlot key) ∈ h.events.entries ∨
    (h.events.find? key = none ∧
      h.timedSlot key = ⟨h.nextId, key, h.conf.eventStep.toInt64, .empty⟩) := by
  cases present : h.events.find? key with
  | none => exact .inr ⟨rfl, by rw [EventHandler.timedSlot, present]; rfl⟩
  | some slot =>
      refine .inl ?_
      rw [EventHandler.timedSlot, present]
      exact OrdMap.mem_entries_iff.mpr present

theorem nextId_doAddEvent (h : EventHandler) (t : Int64) (data : List EventData) :
    h.nextId ≤ (h.doAddEvent t data).nextId ∧
      ((h.events.find? (h.conf.niceStep t)).isNone →
        (h.doAddEvent t data).nextId = h.nextId + 1) := by
  cases present : h.events.find? (h.conf.niceStep t) with
  | none =>
      rw [EventHandler.doAddEvent_of_none data present]
      exact ⟨Nat.le_succ _, fun _ => rfl⟩
  | some slot =>
      rw [EventHandler.doAddEvent_of_some data present]
      exact ⟨Nat.le_refl _, fun absent => absurd absent (by simp)⟩

/-- The slot an event is put into is no other slot than the one under its key. -/
theorem Recorded.timedSlot_apart {s : Traced} (recorded : Recorded s) {key : Int64}
    {e : Int64 × EventsByTime} (member : e ∈ s.handler.events.entries) (apart : e.1 ≠ key) :
    e.2.id ≠ (s.handler.timedSlot key).id := by
  intro same
  rcases timedSlot_cases s.handler key with isOpen | ⟨_, new⟩
  · exact apart (recorded.distinct e member _ isOpen same)
  · rw [new] at same
    exact absurd (recorded.allocated e member) (by rw [same]; exact Nat.lt_irrefl _)

theorem Recorded.timedSlot_lt {s : Traced} (recorded : Recorded s) (ev : EventReport) :
    (s.handler.timedSlot (s.handler.conf.niceStep ev.timestamp)).id <
      (s.doAddEvent ev).handler.nextId := by
  have next := nextId_doAddEvent s.handler ev.timestamp ev.data
  rcases timedSlot_cases s.handler (s.handler.conf.niceStep ev.timestamp) with isOpen | ⟨none, new⟩
  · exact Nat.lt_of_lt_of_le (recorded.allocated _ isOpen) next.1
  · rw [new]
    have := next.2 (by rw [none]; rfl)
    change s.handler.nextId < (s.handler.doAddEvent ev.timestamp ev.data).nextId
    omega

/-- What the history tells of the slot for a key before the insertion. -/
theorem Recorded.timedSlot_contents {s : Traced} (recorded : Recorded s) (key : Int64) :
    (s.handler.timedSlot key).events.Perm
      ((s.placed.filter fun p => p.slot = (s.handler.timedSlot key).id).map Placed.event) := by
  rcases timedSlot_cases s.handler key with isOpen | ⟨_, new⟩
  · exact recorded.contents _ isOpen
  · have nothing : (s.placed.filter fun p => p.slot = s.handler.nextId) = [] := by
      refine List.filter_eq_nil_iff.mpr fun p member => ?_
      have := recorded.numbered p member
      rw [decide_eq_true_iff]
      omega
    rw [new, nothing]
    exact List.Perm.refl _

theorem Recorded.doAddEvent {s : Traced} (recorded : Recorded s) (ev : EventReport) :
    Recorded (s.doAddEvent ev) where
  numbered p member := by
    rcases List.mem_append.mp member with old | new
    · exact Nat.lt_of_lt_of_le (recorded.numbered p old)
        (nextId_doAddEvent s.handler ev.timestamp ev.data).1
    · obtain ⟨item, _, rfl⟩ := List.mem_map.mp new
      exact recorded.timedSlot_lt ev
  allocated e member := by
    rcases mem_doAddEvent member with ⟨_, grown⟩ | ⟨_, old⟩
    · rw [grown]
      exact recorded.timedSlot_lt ev
    · exact Nat.lt_of_lt_of_le (recorded.allocated e old)
        (nextId_doAddEvent s.handler ev.timestamp ev.data).1
  distinct e member e' member' same := by
    rcases mem_doAddEvent member with ⟨key, grown⟩ | ⟨apart, old⟩ <;>
      rcases mem_doAddEvent member' with ⟨key', grown'⟩ | ⟨apart', old'⟩
    · rw [key, key']
    · rw [grown] at same
      exact absurd same.symm (recorded.timedSlot_apart old' apart')
    · rw [grown'] at same
      exact absurd same (recorded.timedSlot_apart old apart)
    · exact recorded.distinct e old e' old' same
  contents e member := by
    simp only [Traced.doAddEvent, List.filter_append, List.map_append, List.filter_map,
      Function.comp_def]
    rcases mem_doAddEvent member with ⟨_, grown⟩ | ⟨apart, old⟩
    · rw [grown]
      have before := recorded.timedSlot_contents (s.handler.conf.niceStep ev.timestamp)
      have after := EventHandler.foldl_pushEvent_perm
        (s.handler.timedSlot (s.handler.conf.niceStep ev.timestamp)).data ev.data
      refine after.trans ((before.append_right ev.data).trans ?_)
      simp [Function.comp_def]
    · have other := recorded.timedSlot_apart old apart
      simp only [other.symm, decide_false, List.filter_false, List.map_nil, List.append_nil]
      exact recorded.contents e old
  positive := recorded.positive

theorem updateRuntimeConf_pos {conf : EventHandlerConf} (positive : 0 < conf.eventStep.toInt)
    (cfg : Config) (service : Bytes) :
    0 < (conf.updateRuntimeConf cfg service).eventStep.toInt := by
  unfold EventHandlerConf.updateRuntimeConf
  split
  · unfold ServiceSection.update
    dsimp only
    split
    · split
      · rename_i more
        exact Int32.lt_iff_toInt_lt.mp more
      · exact positive
    · exact positive
  · exact positive

theorem mem_lingerCheckRun {h : EventHandler} {now : Int64} {e : Int64 × EventsByTime}
    (member : e ∈ (h.lingerCheckRun now).2.events.entries) : e ∈ h.events.entries :=
  (List.dropWhile_sublist _).subset member

theorem Recorded.step {s : Traced} (recorded : Recorded s) (a : Action) :
    Recorded (Traced.step s a) := by
  cases a with
  | addEvent now ev =>
      unfold Traced.step
      dsimp only
      split
      · exact recorded.doAddEvent ev
      · exact recorded
  | updateRuntimeConf cfg =>
      exact ⟨recorded.numbered, recorded.allocated, recorded.distinct, recorded.contents,
        updateRuntimeConf_pos recorded.positive cfg s.handler.service⟩
  | lingerCheckRun now =>
      exact ⟨recorded.numbered, fun e member => recorded.allocated e (mem_lingerCheckRun member),
        fun e member e' member' => recorded.distinct e (mem_lingerCheckRun member) e'
          (mem_lingerCheckRun member'),
        fun e member => recorded.contents e (mem_lingerCheckRun member), recorded.positive⟩

/-! ### When slots stay homogeneous -/

/-- The slot for a report covers its timestamp exactly when the end of the step
is in range and not too far for the slot. -/
theorem covers_timedSlot_iff {h : EventHandler} {t : Int64} (step : 0 < h.conf.eventStep.toInt)
    (positive : 0 < t.toInt) :
    Covers (h.conf.niceStep t) (h.timedSlot (h.conf.niceStep t)) t ↔
      t.toInt + h.conf.toEnd t < 2 ^ 63 ∧
      ∀ slot ∈ h.events.find? (h.conf.niceStep t), h.conf.toEnd t ≤ slot.step.toInt := by
  have bounds := toEnd_bounds (t := t) step
  have stepOf : ∀ fits : t.toInt + h.conf.toEnd t < 2 ^ 63,
      ((h.conf.niceStep t).toInt - (h.timedSlot (h.conf.niceStep t)).step.toInt ≤ t.toInt ↔
        ∀ slot ∈ h.events.find? (h.conf.niceStep t), h.conf.toEnd t ≤ slot.step.toInt) := by
    intro fits
    rw [toInt_niceStep_of_fits step positive fits, EventHandler.timedSlot]
    cases h.events.find? (h.conf.niceStep t) with
    | none =>
        simp only [Option.getD_none, Int32.toInt_toInt64, Option.not_mem_none, false_implies,
          implies_true, iff_true]
        omega
    | some slot =>
        simp only [Option.getD_some, Option.mem_def, Option.some.injEq, forall_eq']
        omega
  constructor
  · rintro ⟨low, high⟩
    have fits := (lt_niceStep_iff step positive).mp high
    exact ⟨fits, (stepOf fits).mp low⟩
  · rintro ⟨fits, near⟩
    exact ⟨(stepOf fits).mpr near, (lt_niceStep_iff step positive).mpr fits⟩

/-- An insertion keeps slots homogeneous when, and only when, the slot covers
the time of the report. -/
theorem homogeneous_doAddEvent_iff {s : Traced} (recorded : Recorded s)
    (homogeneous : Homogeneous s) (ev : EventReport) :
    Homogeneous (s.doAddEvent ev) ↔ (ev.data ≠ [] →
      Covers (s.handler.conf.niceStep ev.timestamp)
        (s.handler.timedSlot (s.handler.conf.niceStep ev.timestamp)) ev.timestamp) := by
  constructor
  · intro after nonempty
    obtain ⟨item, inside⟩ := List.exists_mem_of_ne_nil _ nonempty
    refine after (s.handler.conf.niceStep ev.timestamp,
      { s.handler.timedSlot (s.handler.conf.niceStep ev.timestamp) with
        data := ev.data.foldl EventHandler.pushEvent
          (s.handler.timedSlot (s.handler.conf.niceStep ev.timestamp)).data })
      ((OrdMap.mem_insertEntry s.handler.events.sorted).mpr (.inl rfl)) ⟨_, ev.timestamp, item⟩
      (List.mem_append_right _ (List.mem_map_of_mem inside)) rfl
  · intro covers e member p inside same
    rcases mem_doAddEvent member with ⟨key, grown⟩ | ⟨apart, old⟩
    · rw [key, grown]
      rw [grown] at same
      rcases List.mem_append.mp inside with earlier | new
      · rcases timedSlot_cases s.handler (s.handler.conf.niceStep ev.timestamp) with
          isOpen | ⟨_, fresh⟩
        · exact homogeneous _ isOpen p earlier same
        · rw [fresh] at same
          exact absurd (recorded.numbered p earlier) (by rw [same]; exact Nat.lt_irrefl _)
      · obtain ⟨item, listed, rfl⟩ := List.mem_map.mp new
        exact covers (List.ne_nil_of_mem listed)
    · rcases List.mem_append.mp inside with earlier | new
      · exact homogeneous e old p earlier same
      · obtain ⟨item, _, rfl⟩ := List.mem_map.mp new
        exact absurd same.symm (recorded.timedSlot_apart old apart)

theorem homogeneous_step_iff {s : Traced} (recorded : Recorded s) (homogeneous : Homogeneous s)
    {a : Action} (positive : a.Positive) : Homogeneous (step s a) ↔ Reaches s a := by
  cases a with
  | addEvent now ev =>
      unfold Traced.step
      dsimp only
      split
      · rename_i accepted
        rw [homogeneous_doAddEvent_iff recorded homogeneous,
          covers_timedSlot_iff recorded.positive positive]
        exact ⟨fun covers _ => covers, fun reaches => reaches accepted⟩
      · rename_i refused
        exact ⟨fun _ accepted => absurd accepted refused, fun _ => homogeneous⟩
  | updateRuntimeConf cfg => exact ⟨fun _ => trivial, fun _ => homogeneous⟩
  | lingerCheckRun now =>
      exact ⟨fun _ => trivial, fun _ e member => homogeneous e (mem_lingerCheckRun member)⟩

/-- Slots are homogeneous in every state of a run exactly when every report
reaches a slot that covers its time. -/
theorem homogeneous_iff (service entityIdx : Bytes) (conf : EventHandlerConf)
    (stepPositive : 0 < conf.eventStep.toInt) (actions : List Action)
    (positive : ∀ a ∈ actions, a.Positive) :
    Along step (fun s a => Homogeneous (step s a)) (start service entityIdx conf) actions ↔
      Along step Reaches (start service entityIdx conf) actions := by
  have recorded := recorded_start service entityIdx stepPositive
  have homogeneous : Homogeneous (start service entityIdx conf) := fun _ _ p member =>
    absurd member List.not_mem_nil
  generalize start service entityIdx conf = s at recorded homogeneous
  induction actions generalizing s with
  | nil => exact Iff.rfl
  | cons a actions ih =>
      have same := homogeneous_step_iff recorded homogeneous (positive a List.mem_cons_self)
      have rest := fun after => ih (fun b member => positive b (List.mem_cons_of_mem a member))
        (step s a) (recorded.step a) after
      constructor
      · rintro ⟨after, along⟩
        exact ⟨same.mp after, (rest after).mp along⟩
      · rintro ⟨reaches, along⟩
        exact ⟨same.mpr reaches, (rest (same.mpr reaches)).mpr along⟩

/-! ### A step that is widened -/

/-- One event at time 7 in steps of 5, and one at time 2 after the step has been
set to 10. -/
def widened : List Action :=
  [.addEvent 8 ⟨7, bytes "s", [], [⟨1, bytes "m", [], 1⟩]⟩,
    .updateRuntimeConf ⟨none, some [⟨some (bytes "s"), none, none, some 10, none, none⟩]⟩,
    .addEvent 8 ⟨2, bytes "s", [], [⟨2, bytes "m", [], 1⟩]⟩]

theorem homogeneous_iff_widened :
    Along step (fun s a => Homogeneous (step s a)) (start (bytes "s") [] ⟨30, 5, 1⟩) widened ↔
      Along step Reaches (start (bytes "s") [] ⟨30, 5, 1⟩) widened :=
  homogeneous_iff (bytes "s") [] ⟨30, 5, 1⟩ (by decide) widened (by decide)

/-- Both events are in the slot of time 10, whose record says that its step is
5. -/
theorem widened_mixes :
    (∀ a ∈ widened, a.Positive) ∧
      ¬ Homogeneous (run step (start (bytes "s") [] ⟨30, 5, 1⟩) widened) := by
  decide +kernel

end Traced

end Heracles.Business
