import Heracles.Base.Runs
import Heracles.Base.Timer

/-!
Timers that can be cancelled.

A timer object owns a `steady_timer` and re-arms it from its own handler while it is
to run for ever. Both ways of cancelling destroy the `steady_timer`, and only
`revoke_timer` clears `forever_`; the handler of the cancelled wait runs all the same
and looks only at `forever_`. `cancel_safe` says which calls lead to a null pointer
there, and that no wait outlives a revocation.
-/

namespace Heracles.Utils

open Heracles.Base

/-- The member functions that a user, or the callback, may call. -/
inductive TimerObject.Call where
  | init
  | cancelTimer
  | revokeTimer
  deriving DecidableEq, Repr

/-- `steadyTimer` says whether the pointer is set. `timer` has the waits of every
`steady_timer` there was; destroying one aborts its wait. Each wait is labelled with
whether it was armed after a `revoke_timer`, and `calls` are the calls made so far. -/
structure TimerObject where
  steadyTimer : Bool
  forever : Bool
  timer : Timer Bool
  calls : List TimerObject.Call
  deriving DecidableEq, Repr

namespace TimerObject

/-- The constructor. -/
def new (forever : Bool) : TimerObject := ⟨false, forever, Timer.fresh, []⟩

def revoked (s : TimerObject) : Bool := .revokeTimer ∈ s.calls

/-- `expires_from_now` and `async_wait` on a timer of its own. -/
def arm (s : TimerObject) : TimerObject := { s with timer := s.timer.rearm s.revoked }

def init (s : TimerObject) : TimerObject := { s with steadyTimer := true }.arm

def cancelTimer (s : TimerObject) : TimerObject :=
  if s.steadyTimer then { s with steadyTimer := false, timer := s.timer.cancel } else s

def revokeTimer (s : TimerObject) : TimerObject := { s with forever := false }.cancelTimer

/-- A call and its place in the history. -/
def call (s : TimerObject) (c : Call) : TimerObject :=
  let after := match c with
    | .init => s.init
    | .cancelTimer => s.cancelTimer
    | .revokeTimer => s.revokeTimer
  { after with calls := s.calls ++ [c] }

/-- `timer_run`, with the calls that the callback makes if it is called; `none` when it
dereferences a null pointer. -/
def timerRun (s : TimerObject) (ec : ErrorCode) (callback : List Call) : Option TimerObject :=
  let s := if ec = .operationAborted then s else callback.foldl call s
  if s.forever then
    if s.steadyTimer then some s.arm else none
  else some s

/-- The events: a call, the expiry of the timer, the delivery of the `i`-th completion
with the calls its callback would make. -/
inductive Action where
  | call (c : Call)
  | expire
  | deliver (i : Nat) (callback : List Call)
  deriving DecidableEq, Repr

/-- The object when a handler starts to run. -/
def taken (s : TimerObject) (i : Nat) : TimerObject := { s with timer := s.timer.take i }

def step (s : TimerObject) : Action → TimerObject
  | .call c => s.call c
  | .expire => { s with timer := s.timer.expire }
  | .deliver i callback =>
      match s.timer.queued[i]? with
      | none => s
      | some (_, ec) => ((s.taken i).timerRun ec callback).getD s

/-! ### What is claimed -/

/-- `timer_run` does not dereference a reset `steady_timer_`. -/
def NoNullDereference (s : TimerObject) (a : Action) : Prop :=
  ∀ i callback wait ec, a = .deliver i callback → s.timer.queued[i]? = some (wait, ec) →
    ((s.taken i).timerRun ec callback).isSome

/-- The callback is not called for a wait that was armed after a revocation. -/
def NotCalledBack (s : TimerObject) (a : Action) : Prop :=
  ∀ i callback wait ec, a = .deliver i callback → s.timer.queued[i]? = some (wait, ec) →
    ec ≠ .operationAborted → wait = false

/-- The condition for the first: when the handler decides about re-arming a timer that is
to run for ever and was not revoked, the last call was `init`. -/
def LastCallInit (forever : Bool) (s : TimerObject) (a : Action) : Prop :=
  ∀ i callback wait ec, a = .deliver i callback → s.timer.queued[i]? = some (wait, ec) →
    let calls := if ec = .operationAborted then s.calls else s.calls ++ callback
    forever = true → .revokeTimer ∉ calls → calls.getLast? = some .init

/-- The condition for the second: `init` is not called after `revoke_timer`. -/
def NoInitAfterRevoke (calls : List Call) : Prop :=
  calls.Pairwise fun earlier later => earlier = .revokeTimer → later ≠ .init

/-! ### The object and its history -/

/-- The flags say what calls there were. -/
structure Recorded (forever : Bool) (s : TimerObject) : Prop where
  forever : s.forever = (forever && !s.revoked)
  steadyTimer : s.steadyTimer = decide (s.calls.getLast? = some .init)

theorem Recorded.new (forever : Bool) : Recorded forever (new forever) := by
  refine ⟨?_, rfl⟩
  simp [TimerObject.new, revoked]

theorem calls_call (s : TimerObject) (c : Call) : (s.call c).calls = s.calls ++ [c] := rfl

theorem revoked_call (s : TimerObject) (c : Call) :
    (s.call c).revoked = (s.revoked || decide (c = .revokeTimer)) := by
  simp only [revoked, calls_call, List.mem_append, List.mem_singleton, Bool.decide_or, eq_comm]

theorem cancelTimer_frame (s : TimerObject) :
    s.cancelTimer.steadyTimer = false ∧ s.cancelTimer.forever = s.forever := by
  unfold cancelTimer
  split
  · exact ⟨rfl, rfl⟩
  · next reset => exact ⟨Bool.eq_false_of_not_eq_true reset, rfl⟩

theorem Recorded.call {forever : Bool} {s : TimerObject} (recorded : Recorded forever s)
    (c : Call) : Recorded forever (s.call c) := by
  constructor
  · rw [revoked_call]
    cases c with
    | init =>
        simp only [TimerObject.call, TimerObject.init, arm, recorded.forever]
        simp
    | cancelTimer =>
        simp only [TimerObject.call, (cancelTimer_frame s).2, recorded.forever]
        simp
    | revokeTimer =>
        simp only [TimerObject.call, revokeTimer, (cancelTimer_frame _).2]
        simp
  · rw [calls_call, List.getLast?_append]
    cases c with
    | init => rfl
    | cancelTimer => exact (cancelTimer_frame s).1
    | revokeTimer => exact (cancelTimer_frame _).1

theorem Recorded.calls {forever : Bool} {s : TimerObject} (recorded : Recorded forever s)
    (callback : List Call) : Recorded forever (callback.foldl TimerObject.call s) := by
  induction callback generalizing s with
  | nil => exact recorded
  | cons c callback ih => exact ih (recorded.call c)

theorem calls_foldl (s : TimerObject) (callback : List Call) :
    (callback.foldl call s).calls = s.calls ++ callback := by
  induction callback generalizing s with
  | nil => exact (List.append_nil _).symm
  | cons c callback ih =>
      rw [List.foldl_cons, ih, calls_call, List.append_assoc]
      rfl

/-- The object when the handler decides about re-arming. -/
def decides (s : TimerObject) (ec : ErrorCode) (callback : List Call) : TimerObject :=
  if ec = .operationAborted then s else callback.foldl call s

theorem timerRun_eq (s : TimerObject) (ec : ErrorCode) (callback : List Call) :
    s.timerRun ec callback =
      if (s.decides ec callback).forever then
        if (s.decides ec callback).steadyTimer then some (s.decides ec callback).arm else none
      else some (s.decides ec callback) := rfl

theorem Recorded.decides {forever : Bool} {s : TimerObject} (recorded : Recorded forever s)
    (ec : ErrorCode) (callback : List Call) : Recorded forever (s.decides ec callback) := by
  unfold TimerObject.decides
  split
  · exact recorded
  · exact recorded.calls callback

theorem calls_decides (s : TimerObject) (ec : ErrorCode) (callback : List Call) :
    (s.decides ec callback).calls =
      if ec = .operationAborted then s.calls else s.calls ++ callback := by
  unfold decides
  split
  · rfl
  · exact calls_foldl s callback

/-- The handler runs through unless the history says that the pointer is null. -/
theorem Recorded.timerRun_isSome_iff {forever : Bool} {s : TimerObject}
    (recorded : Recorded forever s) (ec : ErrorCode) (callback : List Call) :
    (s.timerRun ec callback).isSome ↔
      (forever = true → .revokeTimer ∉ (s.decides ec callback).calls →
        (s.decides ec callback).calls.getLast? = some .init) := by
  have flags := recorded.decides ec callback
  have keeps : (s.decides ec callback).forever = true ↔
      forever = true ∧ .revokeTimer ∉ (s.decides ec callback).calls := by
    rw [flags.forever, Bool.and_eq_true, Bool.not_eq_true', revoked, decide_eq_false_iff_not]
  have set : (s.decides ec callback).steadyTimer = true ↔
      (s.decides ec callback).calls.getLast? = some .init := by
    rw [flags.steadyTimer, decide_eq_true_iff]
  rw [← set, ← and_imp, ← keeps, timerRun_eq]
  split
  · next on =>
      split
      · next armed => exact iff_of_true rfl fun _ => armed
      · next null => exact iff_of_false Bool.false_ne_true fun needs => null (needs on)
  · next off => exact iff_of_true rfl fun on => absurd on off

theorem Recorded.taken {forever : Bool} {s : TimerObject} (recorded : Recorded forever s)
    (i : Nat) : Recorded forever (s.taken i) :=
  ⟨recorded.forever, recorded.steadyTimer⟩

theorem Recorded.noNullDereference_iff {forever : Bool} {s : TimerObject}
    (recorded : Recorded forever s) (a : Action) :
    NoNullDereference s a ↔ LastCallInit forever s a := by
  unfold NoNullDereference LastCallInit
  refine forall_congr' fun i => forall_congr' fun callback => forall_congr' fun wait =>
    forall_congr' fun ec => imp_congr_right fun _ => imp_congr_right fun _ => ?_
  rw [(recorded.taken i).timerRun_isSome_iff, calls_decides]
  rfl

/-- Handlers leave the object as it decides, with its timer armed again or not. -/
theorem step_deliver_cases (s : TimerObject) (i : Nat) (callback : List Call) :
    s.step (.deliver i callback) = s ∨
      ∃ ec, s.step (.deliver i callback) = (s.taken i).decides ec callback ∨
        (((s.taken i).decides ec callback).forever = true ∧
          s.step (.deliver i callback) = ((s.taken i).decides ec callback).arm) := by
  cases queued : s.timer.queued[i]? with
  | none =>
      refine Or.inl ?_
      simp only [step, queued]
  | some completion =>
      obtain ⟨wait, ec⟩ := completion
      simp only [step, queued, timerRun_eq]
      by_cases on : ((s.taken i).decides ec callback).forever = true
      · by_cases armed : ((s.taken i).decides ec callback).steadyTimer = true
        · rw [if_pos on, if_pos armed]
          exact Or.inr ⟨ec, Or.inr ⟨on, rfl⟩⟩
        · rw [if_pos on, if_neg armed]
          exact Or.inl rfl
      · rw [if_neg on]
        exact Or.inr ⟨ec, Or.inl rfl⟩

theorem Recorded.step {forever : Bool} {s : TimerObject} (recorded : Recorded forever s)
    (a : Action) : Recorded forever (s.step a) := by
  cases a with
  | call c => exact recorded.call c
  | expire => exact ⟨recorded.forever, recorded.steadyTimer⟩
  | deliver i callback =>
      rcases step_deliver_cases s i callback with same | ⟨ec, left | ⟨_, armed⟩⟩
      · rw [same]
        exact recorded
      · rw [left]
        exact (recorded.taken i).decides ec callback
      · rw [armed]
        have decided := (recorded.taken i).decides ec callback
        exact ⟨decided.forever, decided.steadyTimer⟩

/-! ### Waits after a revocation -/

/-- No wait and no completion is of a wait that was armed after a revocation. -/
def NoneLater (s : TimerObject) : Prop := ∀ wait ∈ s.timer.labels, wait = false

theorem NoneLater.arm {s : TimerObject} (none : NoneLater s) (live : s.revoked = false) :
    NoneLater s.arm := by
  intro wait member
  rcases Timer.mem_labels_rearm member with new | old
  · exact new.trans live
  · exact none wait old

theorem NoneLater.cancelTimer {s : TimerObject} (none : NoneLater s) :
    NoneLater s.cancelTimer := by
  unfold TimerObject.cancelTimer
  split
  · exact fun wait member => none wait (Timer.mem_labels_complete member)
  · exact none

theorem NoneLater.call {s : TimerObject} (none : NoneLater s) {c : Call}
    (allowed : NoInitAfterRevoke (s.calls ++ [c])) : NoneLater (s.call c) := by
  cases c with
  | init =>
      have live : s.revoked = false := by
        rw [revoked, decide_eq_false_iff_not]
        intro member
        exact (List.pairwise_append.mp allowed).2.2 _ member _ (List.mem_singleton_self _) rfl rfl
      exact NoneLater.arm (s := { s with steadyTimer := true }) none live
  | cancelTimer => exact none.cancelTimer
  | revokeTimer => exact NoneLater.cancelTimer (s := { s with forever := false }) none

theorem NoneLater.calls {s : TimerObject} (none : NoneLater s) {callback : List Call}
    (allowed : NoInitAfterRevoke (s.calls ++ callback)) :
    NoneLater (callback.foldl TimerObject.call s) := by
  induction callback generalizing s with
  | nil => exact none
  | cons c callback ih =>
      rw [List.append_cons] at allowed
      exact ih (none.call (List.pairwise_append.mp allowed).1) allowed

theorem NoneLater.decides {s : TimerObject} (none : NoneLater s) {ec : ErrorCode}
    {callback : List Call} (allowed : NoInitAfterRevoke (s.decides ec callback).calls) :
    NoneLater (s.decides ec callback) := by
  rw [calls_decides] at allowed
  unfold TimerObject.decides
  split
  · exact none
  · next genuine =>
      rw [if_neg genuine] at allowed
      exact none.calls allowed

/-- A timer that is still to run for ever was not revoked, so what its handler arms is
not later than a revocation. -/
theorem NoneLater.step {forever : Bool} {s : TimerObject} (none : NoneLater s)
    (recorded : Recorded forever s) {a : Action} (allowed : NoInitAfterRevoke (s.step a).calls) :
    NoneLater (s.step a) := by
  cases a with
  | call c => exact none.call allowed
  | expire => exact fun wait member => none wait (Timer.mem_labels_complete member)
  | deliver i callback =>
      have taken : NoneLater (s.taken i) := fun wait member =>
        none wait (Timer.mem_labels_take member)
      rcases step_deliver_cases s i callback with same | ⟨ec, left | ⟨on, armed⟩⟩
      · rw [same]
        exact none
      · rw [left] at allowed ⊢
        exact taken.decides allowed
      · rw [armed] at allowed ⊢
        refine (taken.decides allowed).arm ?_
        rw [((recorded.taken i).decides ec callback).forever, Bool.and_eq_true,
          Bool.not_eq_true'] at on
        exact on.2

theorem NoneLater.notCalledBack {s : TimerObject} (none : NoneLater s) (a : Action) :
    NotCalledBack s a := by
  intro i _ wait ec _ queued _
  exact none wait (Timer.mem_labels.mpr (Or.inr ⟨ec, List.mem_of_getElem? queued⟩))

/-! ### Whole runs -/

theorem calls_step (s : TimerObject) (a : Action) : s.calls <+: (s.step a).calls := by
  cases a with
  | call c => exact List.prefix_append _ _
  | expire => exact List.prefix_refl _
  | deliver i callback =>
      have decided (ec : ErrorCode) : s.calls <+: ((s.taken i).decides ec callback).calls := by
        rw [calls_decides]
        split
        · exact List.prefix_refl _
        · exact List.prefix_append _ _
      rcases step_deliver_cases s i callback with same | ⟨ec, left | ⟨_, armed⟩⟩
      · rw [same]
      · rw [left]
        exact decided ec
      · rw [armed]
        exact decided ec

theorem calls_run (s : TimerObject) (actions : List Action) :
    s.calls <+: (run step s actions).calls :=
  run_invariant (P := fun s' : TimerObject => s.calls <+: s'.calls)
    (fun s' a early => early.trans (calls_step s' a)) (List.prefix_refl _) actions

/-- What is allowed to the whole history is allowed at every step. -/
theorem along_noInitAfterRevoke {s : TimerObject} {actions : List Action}
    (allowed : NoInitAfterRevoke (run step s actions).calls) :
    Along step (fun s a => NoInitAfterRevoke (s.step a).calls) s actions := by
  rw [ along_iff_prefix]
  rintro before a ⟨after, rfl⟩
  have early :
      ((run step s before).step a).calls <+: (run step s (before ++ [a] ++ after)).calls := by
    rw [run_append, run_append]
    exact calls_run _ after
  exact List.Pairwise.sublist early.sublist allowed

/-- In every run of a timer from its construction, its handler dereferences no null
pointer exactly when, each time it decides for a timer that is to run for ever and was
not revoked, the last call was `init`; and unless `init` is called after
`revoke_timer`, no wait armed after a revocation calls the callback. -/
theorem cancel_safe (forever : Bool) (actions : List Action) :
    (Along step NoNullDereference (new forever) actions ↔
        Along step (LastCallInit forever) (new forever) actions) ∧
      (NoInitAfterRevoke (run step (new forever) actions).calls →
        Along step NotCalledBack (new forever) actions) := by
  constructor
  · exact along_iff (fun _ a recorded _ => Recorded.step recorded a)
      (fun _ a recorded => recorded.noNullDereference_iff a) (Recorded.new forever)
  · intro allowed
    have start : Recorded forever (new forever) ∧ NoneLater (new forever) := by
      refine ⟨Recorded.new forever, ?_⟩
      intro wait member
      cases member
    exact Along.of_invariant (P := fun s => Recorded forever s ∧ NoneLater s)
      (fun _ a good allowed => ⟨good.1.step a, good.2.step good.1 allowed⟩)
      (fun _ a good _ => good.2.notCalledBack a) start (along_noInitAfterRevoke allowed)

/-- A forever timer is cancelled; the handler of the aborted wait finds no timer. -/
theorem cancelled_forever_dereferences :
    ¬ ∀ forever actions, Along step NoNullDereference (new forever) actions := by
  intro always
  obtain ⟨_, _, delivered, _⟩ := always true [.call .init, .call .cancelTimer, .deliver 0 []]
  exact absurd (delivered 0 [] false .operationAborted rfl rfl) (by decide)

end TimerObject

end Heracles.Utils
