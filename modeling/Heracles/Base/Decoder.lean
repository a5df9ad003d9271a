import Mathlib.Data.List.Basic
import Mathlib.Tactic

/-!
Incremental parsing by demand.

A decoder in phase `p` waits until `need p` items have arrived, takes exactly
these and then either rejects the stream for good or emits some values and goes
to its next phase. `drain` lets it run as far as the items at hand allow.
`drain_append` is what makes such a parser independent of how its input is cut:
draining a prefix and resuming with the rest is draining the whole.
-/

namespace Heracles.Base

variable {α π ε : Type}

/-- A parser by demand. A phase that demands nothing is left at once, which
bounds every run by its input. -/
structure Decoder (α π ε : Type) where
  need : π → Nat
  accept : π → List α → Option (List ε × π)
  leaves : ∀ {p emitted q}, need p = 0 → accept p [] = some (emitted, q) → 0 < need q

/-- What draining gives: the values emitted, the phase reached (`none` after a
rejection) and the items not taken. -/
structure Drained (α π ε : Type) where
  emitted : List ε
  phase : Option π
  rest : List α
  deriving DecidableEq

namespace Drained

def prepend (emitted : List ε) (r : Drained α π ε) : Drained α π ε :=
  { r with emitted := emitted ++ r.emitted }

@[simp] theorem prepend_phase (emitted : List ε) (r : Drained α π ε) :
    (r.prepend emitted).phase = r.phase := rfl

@[simp] theorem prepend_rest (emitted : List ε) (r : Drained α π ε) :
    (r.prepend emitted).rest = r.rest := rfl

@[simp] theorem prepend_emitted (emitted : List ε) (r : Drained α π ε) :
    (r.prepend emitted).emitted = emitted ++ r.emitted := rfl

@[simp] theorem prepend_nil (r : Drained α π ε) : r.prepend [] = r := rfl

@[simp] theorem prepend_prepend (first second : List ε) (r : Drained α π ε) :
    (r.prepend second).prepend first = r.prepend (first ++ second) := by
  simp [prepend]

end Drained

namespace Decoder

variable (d : Decoder α π ε)

/-- Twice the input, one more in a phase that demands nothing. -/
def fuel (p : π) (input : List α) : Nat := 2 * input.length + if d.need p = 0 then 1 else 0

theorem fuel_decreases {p q : π} {input : List α} {emitted : List ε}
    (enough : d.need p ≤ input.length)
    (accepted : d.accept p (input.take (d.need p)) = some (emitted, q)) :
    d.fuel q (input.drop (d.need p)) < d.fuel p input := by
  simp only [fuel, List.length_drop]
  by_cases idle : d.need p = 0
  · rw [idle, List.take_zero] at accepted
    have positive := d.leaves idle accepted
    simp [idle, positive.ne']
  · rw [if_neg idle]
    split <;> omega

/-- Run as far as the input allows. -/
def drain (p : π) (input : List α) : Drained α π ε :=
  if _enough : d.need p ≤ input.length then
    match _accepted : d.accept p (input.take (d.need p)) with
    | none => ⟨[], none, input.drop (d.need p)⟩
    | some (emitted, q) => (drain q (input.drop (d.need p))).prepend emitted
  else ⟨[], some p, input⟩
  termination_by d.fuel p input
  decreasing_by exact d.fuel_decreases _enough _accepted

variable {d}

theorem drain_short {p : π} {input : List α} (short : input.length < d.need p) :
    d.drain p input = ⟨[], some p, input⟩ := by
  rw [drain, dif_neg (by omega)]

theorem drain_reject {p : π} {input : List α} (enough : d.need p ≤ input.length)
    (rejected : d.accept p (input.take (d.need p)) = none) :
    d.drain p input = ⟨[], none, input.drop (d.need p)⟩ := by
  rw [drain, dif_pos enough]
  split
  · rfl
  · simp_all

theorem drain_accept {p q : π} {input : List α} {emitted : List ε}
    (enough : d.need p ≤ input.length)
    (accepted : d.accept p (input.take (d.need p)) = some (emitted, q)) :
    d.drain p input = (d.drain q (input.drop (d.need p))).prepend emitted := by
  rw [drain, dif_pos enough]
  split
  · simp_all
  · next found =>
      rw [accepted, Option.some.injEq, Prod.mk.injEq] at found
      rw [found.1, found.2]

/-- Induction along a run of the decoder. -/
theorem drain_induction {P : π → List α → Prop}
    (short : ∀ p input, input.length < d.need p → P p input)
    (reject : ∀ p input, d.need p ≤ input.length →
      d.accept p (input.take (d.need p)) = none → P p input)
    (accept : ∀ p input emitted q, d.need p ≤ input.length →
      d.accept p (input.take (d.need p)) = some (emitted, q) →
      P q (input.drop (d.need p)) → P p input) (p : π) (input : List α) : P p input := by
  induction p, input using drain.induct (d := d) with
  | case1 p input enough rejected => exact reject p input enough rejected
  | case2 p input enough emitted q accepted ih => exact accept p input emitted q enough accepted ih
  | case3 p input few => exact short p input (by omega)

/-- Items arrive after a drain: a decoder that has not rejected goes on. -/
def resume (d : Decoder α π ε) (r : Drained α π ε) (arrived : List α) : Drained α π ε :=
  match r.phase with
  | none => { r with rest := r.rest ++ arrived }
  | some q => (d.drain q (r.rest ++ arrived)).prepend r.emitted

theorem resume_prepend (emitted : List ε) (r : Drained α π ε) (arrived : List α) :
    d.resume (r.prepend emitted) arrived = (d.resume r arrived).prepend emitted := by
  cases reached : r.phase with
  | none => simp [resume, reached, Drained.prepend]
  | some q => simp [resume, reached]

/-- Cutting the input changes nothing. -/
theorem drain_append (p : π) (first second : List α) :
    d.drain p (first ++ second) = d.resume (d.drain p first) second := by
  induction p, first using drain_induction (d := d) with
  | short p input short =>
      rw [drain_short short]
      rfl
  | reject p input enough rejected =>
      have whole : d.need p ≤ (input ++ second).length := by simp; omega
      rw [drain_reject enough rejected, drain_reject whole
        (by rwa [List.take_append_of_le_length enough]), List.drop_append_of_le_length enough]
      rfl
  | accept p input emitted q enough accepted ih =>
      have whole : d.need p ≤ (input ++ second).length := by simp; omega
      rw [drain_accept enough accepted, resume_prepend, ← ih, drain_accept whole
        (by rwa [List.take_append_of_le_length enough]), List.drop_append_of_le_length enough]

/-- What has been emitted stays emitted. -/
theorem emitted_drain_append (p : π) (first second : List α) :
    (d.drain p first).emitted <+: (d.drain p (first ++ second)).emitted := by
  rw [drain_append, resume]
  split
  · exact List.prefix_refl _
  · exact List.prefix_append _ _

end Decoder

end Heracles.Base
