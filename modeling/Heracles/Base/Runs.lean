import Heracles.Base.Order

/-!
Runs of a state machine with total steps.

A machine is a function `step : σ → α → σ`; a run applies it to a list of
actions. `Along step ok s acts` says that every action of the run meets the
condition `ok` in the state it is applied to, so an assumption about a whole
run is stated step by step. `Along.invariant` turns a step lemma into a run
lemma. `Extra` relates a run to one that makes additional steps in between, and
`Extra.simulation` is the induction over such a pair of runs.
-/

namespace Heracles.Base

variable {σ α : Type} {step : σ → α → σ}

/-- The state after a list of actions. -/
def run (step : σ → α → σ) (s : σ) (acts : List α) : σ := acts.foldl step s

@[simp] theorem run_nil (s : σ) : run step s [] = s := rfl

@[simp] theorem run_cons (s : σ) (a : α) (acts : List α) :
    run step s (a :: acts) = run step (step s a) acts := rfl

@[simp] theorem run_append (s : σ) (first second : List α) :
    run step s (first ++ second) = run step (run step s first) second :=
  List.foldl_append

/-- Every action of the run meets `ok` in the state it is applied to. -/
def Along (step : σ → α → σ) (ok : σ → α → Prop) : σ → List α → Prop
  | _, [] => True
  | s, a :: acts => ok s a ∧ Along step ok (step s a) acts

instance decidableAlong (step : σ → α → σ) (ok : σ → α → Prop) [∀ s a, Decidable (ok s a)] :
    ∀ (s : σ) (acts : List α), Decidable (Along step ok s acts)
  | _, [] => inferInstanceAs (Decidable True)
  | s, a :: acts =>
      have := decidableAlong step ok (step s a) acts
      inferInstanceAs (Decidable (_ ∧ _))

theorem along_append {ok : σ → α → Prop} {s : σ} {first second : List α} :
    Along step ok s (first ++ second) ↔
      Along step ok s first ∧ Along step ok (run step s first) second := by
  induction first generalizing s with
  | nil => simp [Along]
  | cons a acts ih => simp [Along, ih, and_assoc]

theorem Along.mono {ok ok' : σ → α → Prop} (weaker : ∀ s a, ok s a → ok' s a) {s : σ}
    {acts : List α} (along : Along step ok s acts) : Along step ok' s acts := by
  induction acts generalizing s with
  | nil => trivial
  | cons a acts ih => exact ⟨weaker s a along.1, ih along.2⟩

theorem Along.and {ok ok' : σ → α → Prop} {s : σ} {acts : List α}
    (first : Along step ok s acts) (second : Along step ok' s acts) :
    Along step (fun s a => ok s a ∧ ok' s a) s acts := by
  induction acts generalizing s with
  | nil => trivial
  | cons a acts ih => exact ⟨⟨first.1, second.1⟩, ih first.2 second.2⟩

/-- A condition on the actions alone. -/
theorem along_of_forall {ok : α → Prop} {acts : List α} (all : ∀ a ∈ acts, ok a) (s : σ) :
    Along step (fun _ => ok) s acts := by
  induction acts generalizing s with
  | nil => trivial
  | cons a acts ih =>
      exact ⟨all a List.mem_cons_self, ih (fun b member => all b (List.mem_cons_of_mem a member)) _⟩

/-- Every action meets `ok` when the last one of every prefix does. -/
theorem along_iff_prefix {ok : σ → α → Prop} {s : σ} {acts : List α} :
    Along step ok s acts ↔
      ∀ before a, before ++ [a] <+: acts → ok (run step s before) a := by
  induction acts generalizing s with
  | nil =>
      constructor
      · intro _ before a early
        cases before with
        | nil => cases List.prefix_nil.mp early
        | cons b before => cases List.prefix_nil.mp early
      · intro _
        trivial
  | cons b acts ih =>
      constructor
      · intro along before a early
        cases before with
        | nil =>
            obtain ⟨rfl, _⟩ := List.cons_prefix_cons.mp early
            exact along.1
        | cons c before =>
            obtain ⟨rfl, later⟩ := List.cons_prefix_cons.mp early
            exact ih.mp along.2 before a later
      · intro all
        refine ⟨all [] b ⟨acts, rfl⟩, ih.mpr fun before a early => ?_⟩
        exact all (b :: before) a (List.cons_prefix_cons.mpr ⟨rfl, early⟩)

/-- What an invariant gives at every step, where the condition of the run keeps
it. -/
theorem Along.of_invariant {ok good : σ → α → Prop} {P : σ → Prop}
    (keep : ∀ s a, P s → ok s a → P (step s a)) (gives : ∀ s a, P s → ok s a → good s a)
    {s : σ} {acts : List α} (start : P s) (along : Along step ok s acts) :
    Along step good s acts := by
  induction acts generalizing s with
  | nil => trivial
  | cons a acts ih => exact ⟨gives s a start along.1, ih (keep s a start along.1) along.2⟩

/-- Two conditions that agree where an invariant holds, which the second one
keeps, admit the same runs. -/
theorem along_iff {ok ok' : σ → α → Prop} {P : σ → Prop}
    (keep : ∀ s a, P s → ok' s a → P (step s a)) (same : ∀ s a, P s → (ok s a ↔ ok' s a))
    {s : σ} {acts : List α} (start : P s) : Along step ok s acts ↔ Along step ok' s acts := by
  induction acts generalizing s with
  | nil => exact Iff.rfl
  | cons a acts ih =>
      constructor
      · intro along
        have admitted := (same s a start).mp along.1
        exact ⟨admitted, (ih (keep s a start admitted)).mp along.2⟩
      · intro along
        exact ⟨(same s a start).mpr along.1, (ih (keep s a start along.1)).mpr along.2⟩

/-- A property that every admitted step preserves holds after the run. -/
theorem Along.invariant {ok : σ → α → Prop} {P : σ → Prop}
    (keep : ∀ s a, P s → ok s a → P (step s a)) {s : σ} {acts : List α} (start : P s)
    (along : Along step ok s acts) : P (run step s acts) := by
  induction acts generalizing s with
  | nil => exact start
  | cons a acts ih => exact ih (keep s a start along.1) along.2

/-- A property that every step preserves holds after every run. -/
theorem run_invariant {P : σ → Prop} (keep : ∀ s a, P s → P (step s a)) {s : σ}
    (start : P s) (acts : List α) : P (run step s acts) := by
  induction acts generalizing s with
  | nil => exact start
  | cons a acts ih => exact ih (keep s a start)

/-- The second run makes the steps of the first and, in between, extra steps
that `extra` admits in the state it has reached. -/
inductive Extra (step : σ → α → σ) (extra : σ → α → Prop) : σ → List α → List α → Prop
  | nil (s : σ) : Extra step extra s [] []
  | both {s : σ} {a : α} {acts more : List α} :
      Extra step extra (step s a) acts more → Extra step extra s (a :: acts) (a :: more)
  | added {s : σ} {a : α} {acts more : List α} :
      extra s a → Extra step extra (step s a) acts more → Extra step extra s acts (a :: more)

/-- Induction over a pair of such runs: a relation that common steps preserve
and that extra steps of the second run do not disturb relates the end states. -/
theorem Extra.simulation {extra ok : σ → α → Prop} {R : σ → σ → Prop}
    (common : ∀ s t a, R s t → ok t a → R (step s a) (step t a))
    (absorbed : ∀ s t a, R s t → ok t a → extra t a → R s (step t a))
    {s t : σ} {acts more : List α} (pair : Extra step extra t acts more) (related : R s t)
    (along : Along step ok t more) : R (run step s acts) (run step t more) := by
  induction pair generalizing s with
  | nil t => exact related
  | both _ ih => exact ih (common _ _ _ related along.1) along.2
  | added admitted _ ih => exact ih (absorbed _ _ _ related along.1 admitted) along.2

end Heracles.Base
