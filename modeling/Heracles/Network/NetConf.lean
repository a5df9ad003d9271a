import Heracles.Base.Runs
import Heracles.Base.Timer

/-!
The limit on the accept rate.

With a positive `service_speed_` every accept takes a token, and the handler of a
one-second timer refills them. The handler does not look at its error code, so a
wait that was aborted refills the tokens and arms the timer as an expiry does,
and arming cancels the wait that is pending. `OnTime` admits the steps that leave
no aborted wait behind a positive speed; `accept_rate_limited` is what then holds
of every run.
-/

namespace Heracles.Network

open Heracles.Base

/-- The part of `NetConf` that limits accepts. `feedTimer` has the waits of every
feed timer there was; destroying one aborts its wait. `timedFeedToken` says
whether the pointer is set. -/
structure NetConf where
  serviceEnabled : Bool
  serviceSpeed : Int32
  serviceToken : Int32
  timedFeedToken : Bool
  feedTimer : Timer Unit
  deriving DecidableEq, Repr

namespace NetConf

/-- Whether an accept may go on, and what it leaves. -/
def getServiceToken (c : NetConf) : Bool × NetConf :=
  if ¬c.serviceEnabled then (false, c)
  else if c.serviceSpeed = 0 then (true, c)
  else if c.serviceToken ≤ 0 then (false, c)
  else (true, { c with serviceToken := c.serviceToken - 1 })

def feedServiceToken (c : NetConf) : NetConf := { c with serviceToken := c.serviceSpeed }

/-- A new timer is put in place of the old one, if any, and waited on. -/
def resetTimer (c : NetConf) : NetConf :=
  { c with timedFeedToken := true, feedTimer := c.feedTimer.rearm () }

/-- The timer is cancelled and destroyed. -/
def dropTimer (c : NetConf) : NetConf :=
  { c with timedFeedToken := false, feedTimer := c.feedTimer.cancel }

/-- `timed_feed_token_handler`, for whatever code; `none` when it dereferences a
null timer. -/
def timedFeedTokenHandler (c : NetConf) : Option NetConf :=
  if c.serviceSpeed = 0 then some c.dropTimer
  else if c.timedFeedToken then
    some { c.feedServiceToken with feedTimer := c.feedTimer.rearm () }
  else none

/-- `NetServer::module_runtime`: a negative speed is refused by `load_conf`. -/
def moduleRuntime (c : NetConf) (serviceSpeed : Int32) : NetConf :=
  if serviceSpeed < 0 then c
  else if c.serviceSpeed = serviceSpeed then c
  else
    let c := { c with serviceSpeed := serviceSpeed }
    if serviceSpeed ≠ 0 then c.resetTimer
    else if c.timedFeedToken then c.dropTimer
    else c

/-- `NetServer::init` with a speed that `load_conf` has admitted. -/
def init (serviceEnabled : Bool) (serviceSpeed : Int32) : NetConf :=
  let c : NetConf := ⟨serviceEnabled, serviceSpeed, 0, false, Timer.fresh⟩
  if serviceSpeed ≠ 0 then c.resetTimer else c

/-- The events: an accept asks for a token, the second is over, the handler of a
queued completion runs, the configuration is loaded again. -/
inductive Action where
  | accept
  | expire
  | handler (i : Nat)
  | moduleRuntime (serviceSpeed : Int32)
  deriving DecidableEq, Repr

def step (c : NetConf) : Action → NetConf
  | .accept => c.getServiceToken.2
  | .expire => { c with feedTimer := c.feedTimer.expire }
  | .handler i =>
      if i < c.feedTimer.queued.length then
        ({ c with feedTimer := c.feedTimer.take i }.timedFeedTokenHandler).getD c
      else c
  | .moduleRuntime serviceSpeed => c.moduleRuntime serviceSpeed

/-- The number of accepts along a run that were granted. -/
def grants : NetConf → List Action → Nat
  | _, [] => 0
  | c, .accept :: actions =>
      (if c.getServiceToken.1 then 1 else 0) + grants (c.step .accept) actions
  | c, a :: actions => grants (c.step a) actions

/-! ### What is claimed -/

/-- At most one wait or completion exists, once the aborted ones have run. -/
def OneWait (c : NetConf) : Prop :=
  (∀ completion ∈ c.feedTimer.queued, completion.2 = .success) →
    c.feedTimer.pending.length + c.feedTimer.queued.length ≤ 1

/-- A handler that refills the tokens runs for an expiry. -/
def RefillsOnExpiry (c : NetConf) (a : Action) : Prop :=
  ∀ i completion, a = .handler i → c.feedTimer.queued[i]? = some completion →
    c.serviceSpeed ≠ 0 → completion.2 = .success

/-- After an expiry, at most a second's tokens are granted before the next one
while the speed is the same positive number. -/
def GrantsAtMostSpeed (c : NetConf) (actions : List Action) : Prop :=
  ∀ speed, 0 < speed → Along step (fun c _ => c.serviceSpeed = speed) c actions →
    Along step (fun c a => a = .expire → c.feedTimer.pending = []) c actions →
      (grants c actions : Int) ≤ speed.toInt

/-- The condition on a step: a positive speed that differs from the current one is
loaded only when no wait is pending and no completion is queued, and no token is
granted between an expiry and its handler. -/
def OnTime (c : NetConf) : Action → Prop
  | .moduleRuntime serviceSpeed =>
      0 < serviceSpeed → serviceSpeed ≠ c.serviceSpeed →
        c.feedTimer.pending = [] ∧ c.feedTimer.queued = []
  | .accept =>
      c.serviceSpeed ≠ 0 → c.getServiceToken.1 = true → ((), .success) ∉ c.feedTimer.queued
  | _ => True

instance (c : NetConf) (a : Action) : Decidable (c.OnTime a) := by
  cases a <;> unfold OnTime <;> infer_instance

/-! ### One wait at a time -/

/-- There is at most one wait or completion, an aborted one only at speed zero, and
a positive speed has its timer. -/
structure Limited (c : NetConf) : Prop where
  single : c.feedTimer.pending.length + c.feedTimer.queued.length ≤ 1
  aborted : ((), .operationAborted) ∈ c.feedTimer.queued → c.serviceSpeed = 0
  armed : c.serviceSpeed ≠ 0 → c.timedFeedToken = true

theorem Limited.oneWait {c : NetConf} (limited : Limited c) : OneWait c :=
  fun _ => limited.single

/-- Asking for a token leaves everything but the tokens alone. -/
theorem getServiceToken_frame (c : NetConf) :
    c.getServiceToken.2.serviceSpeed = c.serviceSpeed ∧
      c.getServiceToken.2.timedFeedToken = c.timedFeedToken ∧
      c.getServiceToken.2.feedTimer = c.feedTimer := by
  unfold getServiceToken
  split
  · exact ⟨rfl, rfl, rfl⟩
  · split
    · exact ⟨rfl, rfl, rfl⟩
    · split
      · exact ⟨rfl, rfl, rfl⟩
      · exact ⟨rfl, rfl, rfl⟩

/-- Asking in vain changes nothing. -/
theorem getServiceToken_refused {c : NetConf} (refused : c.getServiceToken.1 = false) :
    c.getServiceToken.2 = c := by
  unfold getServiceToken at refused ⊢
  split
  · rfl
  · next enabled =>
      rw [if_neg enabled] at refused
      split
      · rfl
      · next limited =>
          rw [if_neg limited] at refused
          split
          · rfl
          · next more =>
              rw [if_neg more] at refused
              cases refused

/-- With a speed set, a token is taken when there is one. -/
theorem getServiceToken_cases {c : NetConf} (nonzero : c.serviceSpeed ≠ 0) :
    c.getServiceToken = (false, c) ∨
      (0 < c.serviceToken.toInt ∧
        c.getServiceToken = (true, { c with serviceToken := c.serviceToken - 1 })) := by
  simp only [getServiceToken, if_neg nonzero]
  split
  · exact Or.inl rfl
  · split
    · exact Or.inl rfl
    · next more =>
        refine Or.inr ⟨?_, rfl⟩
        rw [Int32.le_iff_toInt_le] at more
        simpa using more

theorem nonzero_of_pos {speed : Int32} (positive : 0 < speed) : speed ≠ 0 := by
  rintro rfl
  exact absurd positive (by decide)

theorem limited_init (serviceEnabled : Bool) (serviceSpeed : Int32) :
    Limited (init serviceEnabled serviceSpeed) := by
  unfold init
  split
  · refine ⟨Nat.le_refl 1, ?_, fun _ => rfl⟩
    intro mem
    cases mem
  · next zero =>
      refine ⟨Nat.zero_le 1, ?_, fun nonzero => absurd nonzero zero⟩
      intro mem
      cases mem

theorem Limited.accept {c : NetConf} (limited : Limited c) : Limited (c.step .accept) := by
  obtain ⟨speed, flag, timer⟩ := getServiceToken_frame c
  simp only [step]
  constructor
  · rw [timer]
    exact limited.single
  · rw [timer, speed]
    exact limited.aborted
  · rw [speed, flag]
    exact limited.armed

theorem Limited.expire {c : NetConf} (limited : Limited c) : Limited (c.step .expire) := by
  constructor
  · have single := limited.single
    simp only [step, Timer.expire, Timer.complete, List.length_append, List.length_map,
      List.length_nil]
    omega
  · intro mem
    rcases Timer.mem_queued_complete.mp mem with old | ⟨_, never⟩
    · exact limited.aborted old
    · cases never
  · exact limited.armed

/-- A completion whose handler runs is the only one, and nothing is pending. -/
theorem Limited.only {c : NetConf} (limited : Limited c) {i : Nat}
    (queued : i < c.feedTimer.queued.length) :
    c.feedTimer.pending = [] ∧ (c.feedTimer.take i).queued = [] := by
  have single := limited.single
  have none : c.feedTimer.pending.length = 0 := by omega
  refine ⟨List.eq_nil_of_length_eq_zero none, List.eq_nil_of_length_eq_zero ?_⟩
  rw [Timer.take, List.length_eraseIdx_of_lt queued]
  omega

/-- The handler arms the timer again exactly while there is a limit. -/
theorem Limited.handled {c : NetConf} (limited : Limited c) {i : Nat}
    (queued : i < c.feedTimer.queued.length) :
    c.step (.handler i) =
      if c.serviceSpeed = 0 then { c with timedFeedToken := false, feedTimer := ⟨[], []⟩ }
      else { c with serviceToken := c.serviceSpeed, feedTimer := ⟨[()], []⟩ } := by
  obtain ⟨nonePending, noneQueued⟩ := limited.only queued
  have emptied : c.feedTimer.take i = ⟨[], []⟩ := by
    rw [← nonePending, ← noneQueued]
    rfl
  simp only [step, if_pos queued, timedFeedTokenHandler, emptied]
  split
  · rfl
  · next nonzero =>
      rw [if_pos (limited.armed nonzero)]
      rfl

theorem Limited.handler {c : NetConf} (limited : Limited c) (i : Nat) :
    Limited (c.step (.handler i)) := by
  by_cases queued : i < c.feedTimer.queued.length
  · rw [limited.handled queued]
    split
    · next zero =>
        refine ⟨Nat.zero_le 1, ?_, fun nonzero => absurd zero nonzero⟩
        intro mem
        cases mem
    · refine ⟨Nat.le_refl 1, ?_, limited.armed⟩
      intro mem
      cases mem
  · rw [step, if_neg queued]
    exact limited

/-- What loading a configuration does to the limit. -/
theorem moduleRuntime_cases (c : NetConf) (serviceSpeed : Int32) :
    c.moduleRuntime serviceSpeed = c ∨
      (0 < serviceSpeed ∧ serviceSpeed ≠ c.serviceSpeed ∧
        c.moduleRuntime serviceSpeed = { c with serviceSpeed := serviceSpeed }.resetTimer) ∨
      (serviceSpeed = 0 ∧ c.serviceSpeed ≠ 0 ∧
        c.moduleRuntime serviceSpeed =
          if c.timedFeedToken then { c with serviceSpeed := 0 }.dropTimer
          else { c with serviceSpeed := 0 }) := by
  unfold moduleRuntime
  split
  · exact Or.inl rfl
  · next admitted =>
      split
      · exact Or.inl rfl
      · next different =>
          by_cases zero : serviceSpeed = 0
          · subst zero
            exact Or.inr (Or.inr ⟨rfl, different, by simp⟩)
          · refine Or.inr (Or.inl ⟨?_, fun same => different same.symm, by simp [zero]⟩)
            have signed : serviceSpeed.toInt ≠ 0 := fun none => zero (Int32.toInt_inj.mp none)
            rw [Int32.lt_iff_toInt_lt] at admitted ⊢
            simp only [Int32.toInt_zero] at admitted ⊢
            omega

theorem Limited.moduleRuntime {c : NetConf} (limited : Limited c) {serviceSpeed : Int32}
    (onTime : c.OnTime (.moduleRuntime serviceSpeed)) :
    Limited (c.step (.moduleRuntime serviceSpeed)) := by
  rw [step]
  rcases moduleRuntime_cases c serviceSpeed with
    same | ⟨positive, different, loaded⟩ | ⟨zero, nonzero, loaded⟩
  · rw [same]
    exact limited
  · obtain ⟨nonePending, noneQueued⟩ := onTime positive different
    rw [loaded]
    simp only [resetTimer, Timer.rearm, Timer.cancel, Timer.complete, Timer.asyncWait,
      nonePending, noneQueued]
    refine ⟨Nat.le_refl 1, ?_, fun _ => rfl⟩
    intro mem
    cases mem
  · rw [loaded, if_pos (limited.armed nonzero)]
    refine ⟨?_, fun _ => rfl, fun wrong => absurd rfl wrong⟩
    have single := limited.single
    simp only [dropTimer, Timer.cancel, Timer.complete, List.length_append, List.length_map,
      List.length_nil]
    omega

/-- Every step that meets the condition keeps the invariant. -/
theorem Limited.step {c : NetConf} {a : Action} (limited : Limited c) (onTime : c.OnTime a) :
    Limited (c.step a) := by
  cases a with
  | accept => exact limited.accept
  | expire => exact limited.expire
  | handler i => exact limited.handler i
  | moduleRuntime serviceSpeed => exact limited.moduleRuntime onTime

theorem Limited.refillsOnExpiry {c : NetConf} (limited : Limited c) (a : Action) :
    RefillsOnExpiry c a := by
  intro i completion _ found nonzero
  obtain ⟨⟨⟩, ec⟩ := completion
  cases ec with
  | success => rfl
  | operationAborted => exact absurd (limited.aborted (List.mem_of_getElem? found)) nonzero

/-! ### The tokens of a second -/

/-- The speed stays `speed` and no second ends along the run. -/
def WithinSecond (speed : Int32) (c : NetConf) (actions : List Action) : Prop :=
  Along NetConf.step (fun c a => c.serviceSpeed = speed ∧ c.OnTime a ∧
    (a = .expire → c.feedTimer.pending = [])) c actions

/-- Loading another configuration within the second ends the run. -/
theorem grants_moduleRuntime {speed serviceSpeed : Int32} {c : NetConf} {actions : List Action}
    (busy : c.feedTimer.pending ≠ [] ∨ c.feedTimer.queued ≠ [])
    (within : WithinSecond speed c (.moduleRuntime serviceSpeed :: actions)) :
    c.step (.moduleRuntime serviceSpeed) = c ∨ actions = [] := by
  obtain ⟨⟨constant, onTime, _⟩, later⟩ := within
  rcases moduleRuntime_cases c serviceSpeed with
    same | ⟨positive, different, _⟩ | ⟨zero, nonzero, loaded⟩
  · exact Or.inl same
  · obtain ⟨nonePending, noneQueued⟩ := onTime positive different
    rcases busy with pending | queued
    · exact absurd nonePending pending
    · exact absurd noneQueued queued
  · refine Or.inr ?_
    cases actions with
    | nil => rfl
    | cons a actions =>
        have still := later.1.1
        rw [NetConf.step, loaded] at still
        refine absurd ?_ nonzero
        rw [constant, ← still]
        split
        · rfl
        · rfl

/-- With the timer running, no more is granted than there are tokens. -/
theorem grants_le_tokens {speed : Int32} (positive : 0 < speed) {c : NetConf}
    {actions : List Action} (running : c.feedTimer = ⟨[()], []⟩)
    (within : WithinSecond speed c actions) :
    (grants c actions : Int) ≤ max c.serviceToken.toInt 0 := by
  induction actions generalizing c with
  | nil => simp [grants]
  | cons a actions ih =>
      obtain ⟨⟨constant, _, ends⟩, later⟩ := id within
      cases a with
      | accept =>
          have nonzero : c.serviceSpeed ≠ 0 := by
            rw [constant]
            exact nonzero_of_pos positive
          have timer := (getServiceToken_frame c).2.2.trans running
          have rest := ih timer later
          simp only [grants]
          rcases getServiceToken_cases nonzero with refused | ⟨more, granted⟩
          · simp only [NetConf.step, refused] at rest ⊢
            simpa using rest
          · have spent : (c.serviceToken - 1).toInt = c.serviceToken.toInt - 1 := by
              have upper := c.serviceToken.toInt_lt
              rw [Int32.toInt_sub, Int32.toInt_one, Int.bmod_eq_of_le (by omega) (by omega)]
            simp only [granted, spent] at rest
            simp only [NetConf.step, granted, if_true, Nat.cast_add, Nat.cast_one]
            omega
      | expire =>
          rw [running] at ends
          cases ends rfl
      | handler i =>
          have idle : c.step (.handler i) = c := by
            rw [NetConf.step, running]
            rfl
          rw [idle] at later
          simp only [grants, idle]
          exact ih running later
      | moduleRuntime serviceSpeed =>
          have busy : c.feedTimer.pending ≠ [] := by
            rw [running]
            exact List.cons_ne_nil _ _
          simp only [grants]
          rcases grants_moduleRuntime (Or.inl busy) within with same | rfl
          · rw [same] at later ⊢
            exact ih running later
          · simp [grants]

/-- Between an expiry and its handler nothing is granted; the handler refills. -/
theorem grants_le_speed {speed : Int32} (positive : 0 < speed) {c : NetConf}
    {actions : List Action} (limited : Limited c) (due : ((), .success) ∈ c.feedTimer.queued)
    (within : WithinSecond speed c actions) : (grants c actions : Int) ≤ speed.toInt := by
  have bound : 0 ≤ speed.toInt := by
    rw [Int32.lt_iff_toInt_lt] at positive
    simp only [Int32.toInt_zero] at positive
    omega
  induction actions generalizing c with
  | nil =>
      simpa [grants] using bound
  | cons a actions ih =>
      obtain ⟨⟨constant, onTime, ends⟩, later⟩ := id within
      have nonzero : c.serviceSpeed ≠ 0 := by
        rw [constant]
        exact nonzero_of_pos positive
      cases a with
      | accept =>
          have refused : c.getServiceToken.1 = false := by
            rw [← Bool.not_eq_true]
            exact fun granted => onTime nonzero granted due
          have rest := ih limited.accept ((getServiceToken_frame c).2.2.symm ▸ due) later
          simpa [grants, refused] using rest
      | expire =>
          exact ih limited.expire (Timer.mem_queued_complete.mpr (Or.inl due)) later
      | handler i =>
          by_cases queued : i < c.feedTimer.queued.length
          · have handled := limited.handled queued
            rw [if_neg nonzero] at handled
            rw [handled] at later
            simp only [grants, handled]
            have rest := grants_le_tokens positive rfl later
            simp only [constant, max_eq_left bound] at rest ⊢
            exact rest
          · have idle : c.step (.handler i) = c := by
              rw [NetConf.step, if_neg queued]
            rw [idle] at later
            simp only [grants, idle]
            exact ih limited due later
      | moduleRuntime serviceSpeed =>
          have busy : c.feedTimer.queued ≠ [] := List.ne_nil_of_mem due
          simp only [grants]
          rcases grants_moduleRuntime (Or.inr busy) within with same | rfl
          · rw [same] at later ⊢
            exact ih limited due later
          · simpa [grants] using bound

/-! ### Whole runs -/

/-- Where every step meets the condition, one wait exists at a time, tokens are
refilled for an expiry only, and a second's grants stay within the speed. -/
theorem accept_rate_limited (serviceEnabled : Bool) (serviceSpeed : Int32)
    {actions : List Action}
    (onTime : Along NetConf.step OnTime (init serviceEnabled serviceSpeed) actions) :
    OneWait (run NetConf.step (init serviceEnabled serviceSpeed) actions) ∧
      Along NetConf.step RefillsOnExpiry (init serviceEnabled serviceSpeed) actions ∧
      ∀ before second, before ++ Action.expire :: second <+: actions →
        (run NetConf.step (init serviceEnabled serviceSpeed) before).feedTimer.pending ≠ [] →
          GrantsAtMostSpeed
            (run NetConf.step (init serviceEnabled serviceSpeed) (before ++ [.expire]))
            second := by
  have start := limited_init serviceEnabled serviceSpeed
  refine ⟨?_, ?_, ?_⟩
  · exact (Along.invariant (fun _ _ limited => limited.step) start onTime).oneWait
  · exact Along.of_invariant (fun _ _ limited => limited.step)
      (fun _ a limited _ => limited.refillsOnExpiry a) start onTime
  · rintro before second ⟨after, rfl⟩ pending speed positive constant ends
    have first : Along NetConf.step OnTime (init serviceEnabled serviceSpeed)
        (before ++ [.expire] ++ second) := by
      rw [List.append_cons] at onTime
      exact (along_append.mp onTime).1
    obtain ⟨early, late⟩ := along_append.mp first
    have limited := Along.invariant (fun _ _ limited => Limited.step limited) start early
    refine grants_le_speed positive limited ?_ ((constant.and (late.and ends)).mono ?_)
    · rw [run_append]
      refine Timer.mem_queued_complete.mpr (Or.inr ⟨?_, rfl⟩)
      obtain ⟨⟨⟩, mem⟩ := List.exists_mem_of_ne_nil _ pending
      exact mem
    · exact fun _ _ step => step

/-- Of three accepts after the first expiry two are granted. -/
theorem accept_rate_limited_two :
    GrantsAtMostSpeed (run NetConf.step (init true 2) [.expire])
      [.handler 0, .accept, .accept, .accept] :=
  (@accept_rate_limited true 2 [.expire, .handler 0, .accept, .accept, .accept] (by decide)).2.2
    [] _ (List.prefix_refl _) (by decide)

/-- The speed goes from 2 to 3 with a wait pending. After the expiry the handler of
the aborted wait refills once more: six accepts are granted in the second. -/
theorem aborted_wait_refills :
    let start := run NetConf.step (init true 2) [.moduleRuntime 3]
    let second : List Action :=
      [.handler 1, .accept, .accept, .accept, .handler 0, .accept, .accept, .accept]
    start.feedTimer.pending = [()] ∧
      ¬GrantsAtMostSpeed (start.step .expire) second ∧
      ¬Along NetConf.step RefillsOnExpiry (start.step .expire) second := by
  refine ⟨by decide, ?_, ?_⟩
  · intro limited
    exact absurd (limited 3 (by decide) (by decide) (by decide)) (by decide)
  · rintro ⟨_, _, _, _, last, _⟩
    exact absurd (last 0 ((), .operationAborted) rfl (by decide) (by decide)) (by decide)

end NetConf

end Heracles.Network
