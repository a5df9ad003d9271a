import Heracles.Business.Conservation

/-!
When a slot is flushed once, and when it is not.

`add_event` reads the clock before it takes the lock, `linger_check_run` after.
A report can therefore pass the linger test, wait for the lock while the clock
advances and its slot is flushed, and then open a second slot with the same
timestamp (`slot_flushed_twice`). `FlushedOnce` is the invariant that excludes
this: no waiting report belongs to a slot already moved. It holds along every
run in which the flush never moves a slot that a waiting report belongs to, and
the condition is exact: from the first flush that breaks it the run can be
continued to a second flush of the same slot (`flushed_again`).
-/

namespace Heracles.Business

open Heracles.Base

namespace Pipeline

/-- The clock never goes back and the configuration stays. -/
def ClockForward (s : Pipeline) : Act → Prop
  | .tick now => s.clock ≤ now
  | .reconf _ => False
  | _ => True

instance (s : Pipeline) : ∀ a, Decidable (ClockForward s a)
  | .tick _ => inferInstanceAs (Decidable (_ ≤ _))
  | .reconf _ => inferInstanceAs (Decidable False)
  | .check _ | .insert _ | .addEvent _ | .lingerCheck | .run | .runTask _ =>
      inferInstanceAs (Decidable True)

/-- The clock never goes back, the configuration stays, and no time computation
for an accepted report leaves the 64-bit range. -/
def Orderly (s : Pipeline) : Act → Prop
  | .tick now => s.clock ≤ now
  | .check ev | .addEvent ev => s.handler.addEventCheck s.clock ev = 0 →
      TimeFits s.handler.conf s.clock ev.timestamp
  | .reconf _ => False
  | _ => True

instance (s : Pipeline) : ∀ a, Decidable (Orderly s a)
  | .tick _ => inferInstanceAs (Decidable (_ ≤ _))
  | .check _ | .addEvent _ => inferInstanceAs (Decidable (_ → _))
  | .reconf _ => inferInstanceAs (Decidable False)
  | .insert _ | .lingerCheck | .run | .runTask _ => inferInstanceAs (Decidable True)

/-- A flush moves no slot that a report between its linger test and its
insertion belongs to. -/
def NoWaitingMoved (s : Pipeline) : Act → Prop
  | .lingerCheck => ∀ ev ∈ s.waiting,
      s.handler.conf.niceStep ev.timestamp ∈ s.handler.events.keys →
      s.handler.lingered s.clock (s.handler.conf.niceStep ev.timestamp) = false
  | _ => True

instance (s : Pipeline) : ∀ a, Decidable (NoWaitingMoved s a)
  | .lingerCheck => inferInstanceAs (Decidable (∀ _ ∈ _, _))
  | .tick _ | .reconf _ | .check _ | .insert _ | .addEvent _ | .run | .runTask _ =>
      inferInstanceAs (Decidable True)

/-! ### The invariant -/

/-- Slots already moved are over: their linger time has passed, no open slot and
no waiting report has their timestamp, and no two of them share one. -/
structure FlushedOnce (conf : EventHandlerConf) (s : Pipeline) : Prop where
  fixed : s.handler.conf = conf
  keyed : s.handler.Keyed
  roomy : RoomyIntake s
  past : ∀ slot ∈ s.moved, slot.timestamp.toInt + conf.eventLinger.toInt < s.clock.toInt
  closed : ∀ slot ∈ s.moved, slot.timestamp ∉ s.handler.events.keys
  unclaimed : ∀ ev ∈ s.waiting, ∀ slot ∈ s.moved, slot.timestamp ≠ conf.niceStep ev.timestamp
  once : (s.moved.map EventsByTime.timestamp).Nodup

variable {conf : EventHandlerConf} {s : Pipeline}

theorem flushedOnce_start (service entityIdx : Bytes) (conf : EventHandlerConf) (clock : Int64) :
    FlushedOnce conf (start service entityIdx conf clock) where
  fixed := rfl
  keyed e member := by simp [start, EventHandler.create, OrdMap.empty] at member
  roomy := roomyIntake_start service entityIdx conf clock
  past slot member := by simp [start] at member
  closed slot member := by simp [start] at member
  unclaimed ev member := by simp [start] at member
  once := by simp [start]

/-- A report that passes the linger test belongs to no slot already moved: its
slot ends after its own time, so that slot's linger time is not over. -/
theorem FlushedOnce.fresh (inv : FlushedOnce conf s) (linger : 0 < conf.eventLinger.toInt)
    (stepPos : 0 < conf.eventStep.toInt) {ev : EventReport}
    (passed : s.handler.addEventCheck s.clock ev = 0)
    (fits : TimeFits s.handler.conf s.clock ev.timestamp) :
    Fits64 ((s.handler.conf.niceStep ev.timestamp).toInt + s.handler.conf.eventLinger.toInt) ∧
      ∀ slot ∈ s.moved, slot.timestamp ≠ conf.niceStep ev.timestamp := by
  rw [inv.fixed] at fits ⊢
  have young : s.clock.toInt - ev.timestamp.toInt ≤ conf.eventLinger.toInt := by
    have notOld := (EventHandler.addEventCheck_eq_zero_iff.mp passed).2
    rw [inv.fixed] at notOld
    exact (not_too_old_iff fits).mp notOld
  refine ⟨niceStep_room stepPos linger fits, fun slot member same => ?_⟩
  have after := lt_niceStep stepPos linger fits
  have past := inv.past slot member
  rw [same] at past
  omega

theorem FlushedOnce.accept (inv : FlushedOnce conf s) {ev : EventReport}
    (room : Fits64 ((s.handler.conf.niceStep ev.timestamp).toInt +
      s.handler.conf.eventLinger.toInt))
    (fresh : ∀ slot ∈ s.moved, slot.timestamp ≠ conf.niceStep ev.timestamp) :
    FlushedOnce conf (s.accept ev) where
  fixed := inv.fixed
  keyed := inv.keyed.doAddEvent ev.timestamp ev.data
  roomy := inv.roomy.accept room
  past := inv.past
  closed slot member opened := by
    rcases EventHandler.mem_keys_doAddEvent.mp opened with same | opened
    · exact fresh slot member (inv.fixed ▸ same)
    · exact inv.closed slot member opened
  unclaimed := inv.unclaimed
  once := inv.once

theorem FlushedOnce.of_same {t : Pipeline} (inv : FlushedOnce conf s) (same : SameIntake s t) :
    FlushedOnce conf t where
  fixed := same.conf.trans inv.fixed
  keyed := by
    unfold EventHandler.Keyed
    rw [same.events]
    exact inv.keyed
  roomy := inv.roomy.of_same same
  past := by rw [same.moved, same.clock]; exact inv.past
  closed := by rw [same.moved, same.events]; exact inv.closed
  unclaimed := by rw [same.moved, same.waiting]; exact inv.unclaimed
  once := by rw [same.moved]; exact inv.once

/-- What a flush moves, by timestamp: the keys that are due, in their order. -/
theorem FlushedOnce.timestamps_flushed (inv : FlushedOnce conf s) :
    (s.handler.lingerCheckRun s.clock).1.map EventsByTime.timestamp =
      s.handler.events.keys.filter fun key =>
        decide (key.toInt + conf.eventLinger.toInt < s.clock.toInt) := by
  rw [(lingerCheckRun_of_roomy inv.roomy.1 s.clock).1, inv.fixed, OrdMap.keys,
    List.filter_map, List.map_map]
  refine List.map_congr_left fun e member => ?_
  exact inv.keyed e (List.mem_filter.mp member).1

theorem FlushedOnce.flush (inv : FlushedOnce conf s) (ok : NoWaitingMoved s .lingerCheck) :
    FlushedOnce conf (step s .lingerCheck) := by
  have flushed := inv.timestamps_flushed
  have dueKey : ∀ slot ∈ (s.handler.lingerCheckRun s.clock).1,
      slot.timestamp ∈ s.handler.events.keys ∧
        slot.timestamp.toInt + conf.eventLinger.toInt < s.clock.toInt := by
    intro slot member
    have := List.mem_map_of_mem (f := EventsByTime.timestamp) member
    rw [flushed, List.mem_filter, decide_eq_true_iff] at this
    exact this
  refine ⟨inv.fixed, inv.keyed.lingerCheckRun s.clock, inv.roomy.step (a := .lingerCheck) trivial,
    ?_, ?_, ?_, ?_⟩
  · intro slot member
    rcases List.mem_append.mp member with member | member
    · exact inv.past slot member
    · exact (dueKey slot member).2
  · intro slot member opened
    rcases List.mem_append.mp member with member | member
    · exact inv.closed slot member (EventHandler.mem_keys_of_lingerCheckRun opened)
    · have left := (mem_keys_lingerCheckRun_iff inv.roomy.1).mp opened
      rw [inv.fixed] at left
      exact left.2 (dueKey slot member).2
  · intro ev waiting slot member same
    rcases List.mem_append.mp member with member | member
    · exact inv.unclaimed ev waiting slot member same
    · obtain ⟨opened, due⟩ := dueKey slot member
      rw [same] at opened due
      have young := ok ev waiting (inv.fixed ▸ opened)
      have lingered := (lingered_iff (inv.roomy.2 ev waiting)).mpr (by rw [inv.fixed]; exact due)
      rw [lingered] at young
      cases young
  · change (s.moved ++ (s.handler.lingerCheckRun s.clock).1 |>.map EventsByTime.timestamp).Nodup
    rw [List.map_append, flushed]
    refine List.nodup_append.mpr ⟨inv.once, s.handler.events.keys_nodup.filter _, ?_⟩
    rintro time old _ new rfl
    obtain ⟨slot, member, rfl⟩ := List.mem_map.mp old
    exact inv.closed slot member (List.mem_filter.mp new).1

theorem FlushedOnce.step (linger : 0 < conf.eventLinger.toInt) (stepPos : 0 < conf.eventStep.toInt)
    (inv : FlushedOnce conf s) {a : Act} (orderly : Orderly s a) (ok : NoWaitingMoved s a) :
    FlushedOnce conf (step s a) := by
  cases a with
  | tick now =>
      have forward := Int64.le_iff_toInt_le.mp orderly
      exact ⟨inv.fixed, inv.keyed, inv.roomy,
        fun slot member => lt_of_lt_of_le (inv.past slot member) forward, inv.closed,
        inv.unclaimed, inv.once⟩
  | check ev =>
      by_cases passed : s.handler.addEventCheck s.clock ev = 0
      · obtain ⟨room, fresh⟩ := inv.fresh linger stepPos passed (orderly passed)
        have roomy := inv.roomy.step (a := .check ev) fun _ => room
        simp only [Pipeline.step, passed, ↓reduceIte] at roomy ⊢
        refine ⟨inv.fixed, inv.keyed, roomy, inv.past, inv.closed, ?_, inv.once⟩
        intro other member
        rcases List.mem_append.mp member with member | member
        · exact inv.unclaimed other member
        · exact List.mem_singleton.mp member ▸ fresh
      · simp only [Pipeline.step, passed, ↓reduceIte]
        exact inv
  | insert i =>
      simp only [Pipeline.step]
      split
      · exact inv
      · rename_i ev here
        have member := List.mem_of_getElem? here
        have fewer : ∀ other ∈ s.waiting.eraseIdx i, other ∈ s.waiting :=
          fun other member => List.mem_of_mem_eraseIdx member
        have left : FlushedOnce conf { s with waiting := s.waiting.eraseIdx i } :=
          ⟨inv.fixed, inv.keyed, ⟨inv.roomy.1, fun other m => inv.roomy.2 other (fewer other m)⟩,
            inv.past, inv.closed, fun other m => inv.unclaimed other (fewer other m), inv.once⟩
        exact left.accept (inv.roomy.2 ev member) (inv.unclaimed ev member)
  | addEvent ev =>
      rw [step_addEvent]
      split
      · rename_i passed
        obtain ⟨room, fresh⟩ := inv.fresh linger stepPos passed (orderly passed)
        exact inv.accept room fresh
      · exact inv
  | lingerCheck => exact inv.flush ok
  | run => exact inv.of_same s.sameIntake_run
  | runTask i => exact inv.of_same (s.sameIntake_runTask i)
  | reconf conf => exact orderly.elim

/-! ### Slots moved and slots handed over -/

/-- The slots moved are those queued, in tasks or already handed over. -/
def MovedAccounted (s : Pipeline) : Prop :=
  s.moved.Perm (s.handler.processQueue ++ s.tasks.flatten ++ s.handed)

theorem MovedAccounted.step (accounted : MovedAccounted s) (a : Act) :
    MovedAccounted (step s a) := by
  unfold MovedAccounted at accounted ⊢
  cases a with
  | tick now => exact accounted
  | check ev => simp only [Pipeline.step]; split <;> exact accounted
  | insert i => simp only [Pipeline.step]; split <;> exact accounted
  | addEvent ev => rw [step_addEvent]; split <;> exact accounted
  | lingerCheck =>
      rw [← Multiset.coe_eq_coe] at accounted ⊢
      simp only [Pipeline.step, EventHandler.lingerCheckRun, ← Multiset.coe_add] at accounted ⊢
      rw [accounted]
      ac_rfl
  | run =>
      have same := s.sameIntake_run
      rw [same.moved]
      rcases s.runThread_cases with ⟨_, ran⟩ | ⟨_, vec, rest, queue, ran⟩ | ⟨event, rest, queue, ran⟩
      · simp only [Pipeline.step, ran]
        exact accounted
      · rw [← Multiset.coe_eq_coe] at accounted ⊢
        rw [accounted]
        simp only [Pipeline.step, ran, ← queue, List.flatten_append, List.flatten_cons,
          List.flatten_nil, List.append_nil, ← Multiset.coe_add]
        ac_rfl
      · rw [← Multiset.coe_eq_coe] at accounted ⊢
        rw [accounted]
        simp only [Pipeline.step, ran, ← queue, ← Multiset.coe_add]
        ac_rfl
  | runTask i =>
      simp only [Pipeline.step]
      split
      · exact accounted
      · rename_i task here
        obtain ⟨inRange, rfl⟩ := List.getElem?_eq_some_iff.mp here
        have tasks := (List.getElem_cons_eraseIdx_perm inRange).flatten
        rw [← Multiset.coe_eq_coe] at tasks accounted ⊢
        rw [accounted]
        simp only [List.flatten_cons, ← Multiset.coe_add] at tasks ⊢
        rw [← tasks]
        ac_rfl
  | reconf conf => exact accounted

theorem movedAccounted_run (service entityIdx : Bytes) (conf : EventHandlerConf) (clock : Int64)
    (acts : List Act) : MovedAccounted (run step (start service entityIdx conf clock) acts) := by
  have opening : MovedAccounted (start service entityIdx conf clock) := List.Perm.refl _
  exact run_invariant (P := MovedAccounted) (fun _ a accounted => accounted.step a) opening acts

/-! ### The condition is exact -/

/-- Once a slot has been moved under a waiting report, the report opens it
again and the next flush moves it a second time. -/
theorem flushed_again (inv : FlushedOnce conf s) (broken : ¬ NoWaitingMoved s .lingerCheck) :
    ∃ i, ¬ ((run step s [.lingerCheck, .insert i, .lingerCheck]).moved.map
      EventsByTime.timestamp).Nodup := by
  unfold NoWaitingMoved at broken
  push Not at broken
  obtain ⟨ev, waiting, opened, due⟩ := broken
  obtain ⟨i, here⟩ := List.getElem?_of_mem waiting
  have due := (lingered_iff (inv.roomy.2 ev waiting)).mp (by simpa using due)
  set key := s.handler.conf.niceStep ev.timestamp
  -- the first flush moves the slot
  have first : key ∈ (step s .lingerCheck).moved.map EventsByTime.timestamp := by
    change key ∈ (s.moved ++ (s.handler.lingerCheckRun s.clock).1).map EventsByTime.timestamp
    rw [List.map_append, inv.timestamps_flushed]
    exact List.mem_append_right _ (List.mem_filter.mpr ⟨opened, by
      rw [← inv.fixed]
      exact decide_eq_true due⟩)
  -- the waiting report opens it again
  set s₁ := step s .lingerCheck
  set s₂ := step s₁ (.insert i)
  have inserted : s₂ = { s₁ with waiting := s₁.waiting.eraseIdx i }.accept ev := by
    simp only [s₂, Pipeline.step]
    rw [show s₁.waiting[i]? = some ev from here]
  have roomy₁ : RoomyIntake s₁ := inv.roomy.step (a := .lingerCheck) trivial
  have room := inv.roomy.2 ev waiting
  have keyed₂ : s₂.handler.Keyed := by
    rw [inserted]
    exact (inv.keyed.lingerCheckRun s.clock).doAddEvent ev.timestamp ev.data
  have roomy₂ : s₂.handler.Roomy := by
    rw [inserted]
    exact (RoomyIntake.accept (s := { s₁ with waiting := s₁.waiting.eraseIdx i })
      ⟨roomy₁.1, fun other m => roomy₁.2 other (List.mem_of_mem_eraseIdx m)⟩ room).1
  have reopened : key ∈ s₂.handler.events.keys := by
    rw [inserted]
    exact EventHandler.mem_keys_doAddEvent.mpr (.inl rfl)
  have sameConf : s₂.handler.conf = s.handler.conf := by
    rw [inserted]
    rfl
  have sameClock : s₂.clock = s.clock := by
    rw [inserted]
    rfl
  have sameMoved : s₂.moved = s₁.moved := by
    rw [inserted]
    rfl
  -- and the second flush moves it again
  have second : key ∈ (s₂.handler.lingerCheckRun s₂.clock).1.map EventsByTime.timestamp := by
    obtain ⟨slot, found⟩ := OrdMap.mem_keys_iff.mp reopened
    have entry := OrdMap.mem_entries_iff.mpr found
    refine List.mem_map.mpr ⟨slot, (mem_lingerCheckRun_iff roomy₂).mpr ⟨key, entry, ?_⟩,
      keyed₂ _ entry⟩
    rw [sameConf, sameClock]
    exact due
  refine ⟨i, fun nodup => ?_⟩
  change ((s₂.moved ++ (s₂.handler.lingerCheckRun s₂.clock).1).map EventsByTime.timestamp).Nodup
    at nodup
  rw [List.map_append, sameMoved] at nodup
  exact (List.nodup_append.mp nodup).2.2 key first key second rfl

/-- In every run in which the clock never goes back and no time computation
overflows: as long as no flush moves a slot that a waiting report belongs to,
every slot key is moved at most once and no two slots with one timestamp reach
`do_process_event`; the first flush that does can be followed by a second flush
of the same slot. -/
theorem slot_flushed_once (service entityIdx : Bytes) (conf : EventHandlerConf) (clock : Int64)
    (acts : List Act) (linger : 0 < conf.eventLinger.toInt) (stepPos : 0 < conf.eventStep.toInt)
    (orderly : Along step Orderly (start service entityIdx conf clock) acts)
    (ok : Along step NoWaitingMoved (start service entityIdx conf clock) acts) :
    let s := run step (start service entityIdx conf clock) acts
    (s.moved.map EventsByTime.timestamp).Nodup ∧ (s.handed.map EventsByTime.timestamp).Nodup ∧
      (¬ NoWaitingMoved s .lingerCheck → ∃ i,
        ¬ ((run step s [.lingerCheck, .insert i, .lingerCheck]).moved.map
          EventsByTime.timestamp).Nodup) := by
  intro s
  have inv : FlushedOnce conf s := by
    refine (orderly.and ok).invariant (fun s a inv both => ?_)
      (flushedOnce_start service entityIdx conf clock)
    exact inv.step linger stepPos both.1 both.2
  have accounted := (movedAccounted_run service entityIdx conf clock acts).map EventsByTime.timestamp
  have handed := accounted.nodup_iff.mp inv.once
  rw [List.map_append] at handed
  exact ⟨inv.once, (List.nodup_append.mp handed).2.1, fun broken => flushed_again inv broken⟩

theorem slot_flushed_once_within_linger :
    let s := run step (start (bytes "svc") [] ⟨10, 3, 10⟩ 5)
      [.check ⟨1, bytes "svc", [], [⟨1, bytes "m", bytes "T", 7⟩]⟩, .tick 11, .insert 0,
        .addEvent ⟨2, bytes "svc", [], [⟨2, bytes "m", bytes "T", 8⟩]⟩, .tick 14, .lingerCheck,
        .run, .run, .run]
    (s.moved.map EventsByTime.timestamp).Nodup ∧ (s.handed.map EventsByTime.timestamp).Nodup ∧
      (¬ NoWaitingMoved s .lingerCheck → ∃ i,
        ¬ ((run step s [.lingerCheck, .insert i, .lingerCheck]).moved.map
          EventsByTime.timestamp).Nodup) :=
  slot_flushed_once (bytes "svc") [] ⟨10, 3, 10⟩ 5 _ (by decide) (by decide) (by decide) (by decide)

/-- The clock advances past the linger time between the test and the insertion
of a second report for second 1; slot 3 is flushed, opened again and flushed
again. -/
theorem slot_flushed_twice :
    ¬ ∀ (service entityIdx : Bytes) (conf : EventHandlerConf) (clock : Int64) (acts : List Act),
      0 < conf.eventLinger.toInt → 0 < conf.eventStep.toInt →
      Along step ClockForward (start service entityIdx conf clock) acts →
      ((run step (start service entityIdx conf clock) acts).moved.map
        EventsByTime.timestamp).Nodup := by
  intro always
  have wrong := always (bytes "svc") [] ⟨10, 3, 10⟩ 5
    [.addEvent ⟨1, bytes "svc", [], [⟨1, bytes "m", bytes "T", 7⟩]⟩, .tick 11,
      .check ⟨1, bytes "svc", [], [⟨2, bytes "m", bytes "T", 8⟩]⟩, .tick 14, .lingerCheck,
      .insert 0, .lingerCheck]
    (by decide) (by decide) (by decide)
  exact absurd wrong (by decide)

end Pipeline

end Heracles.Business
