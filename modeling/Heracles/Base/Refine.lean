import Heracles.Base.Runs

/-!
A machine seen as a simpler one.

`abs` shows a state of the first machine as one of the second, and `moves` are the
moves of the second machine that a step makes there, possibly none. Where `P` holds
and `ok` admits the step, both agree and the moves are admitted in their turn
(`Refines`). Then a run shows as a run (`Refines.run`), and what the admitted moves
of the second machine preserve holds of what the first one shows
(`Refines.invariant`).
-/

namespace Heracles.Base

variable {σ τ α β : Type} {step : σ → α → σ} {step' : τ → β → τ}

/-- The moves that a run makes. -/
def movesOf (step : σ → α → σ) (moves : σ → α → List β) : σ → List α → List β
  | _, [] => []
  | s, a :: acts => moves s a ++ movesOf step moves (step s a) acts

/-- Every admitted step shows as admitted moves of the second machine. -/
structure Refines (step : σ → α → σ) (step' : τ → β → τ) (abs : σ → τ)
    (moves : σ → α → List β) (P : σ → Prop) (ok : σ → α → Prop) (ok' : τ → β → Prop) : Prop where
  keep : ∀ {s a}, P s → ok s a → P (step s a)
  shows : ∀ {s a}, P s → ok s a → abs (step s a) = run step' (abs s) (moves s a)
  admits : ∀ {s a}, P s → ok s a → Along step' ok' (abs s) (moves s a)

namespace Refines

variable {abs : σ → τ} {moves : σ → α → List β} {P : σ → Prop} {ok : σ → α → Prop}
  {ok' : τ → β → Prop}

theorem run (refines : Refines step step' abs moves P ok ok') {s : σ} {acts : List α}
    (start : P s) (along : Along step ok s acts) :
    abs (Base.run step s acts) = Base.run step' (abs s) (movesOf step moves s acts) ∧
      Along step' ok' (abs s) (movesOf step moves s acts) := by
  induction acts generalizing s with
  | nil => exact ⟨rfl, trivial⟩
  | cons a acts ih =>
      obtain ⟨shown, admitted⟩ := ih (refines.keep start along.1) along.2
      rw [refines.shows start along.1] at shown admitted
      refine ⟨?_, along_append.mpr ⟨refines.admits start along.1, admitted⟩⟩
      rw [movesOf, run_append, ← shown]
      rfl

theorem invariant (refines : Refines step step' abs moves P ok ok') {Q : τ → Prop}
    (keep : ∀ t b, Q t → ok' t b → Q (step' t b)) {s : σ} {acts : List α} (start : P s)
    (good : Q (abs s)) (along : Along step ok s acts) : Q (abs (Base.run step s acts)) := by
  obtain ⟨shown, admitted⟩ := refines.run start along
  rw [shown]
  exact Along.invariant keep good admitted

end Refines

end Heracles.Base
