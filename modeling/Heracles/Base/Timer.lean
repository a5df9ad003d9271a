import Mathlib.Tactic

/-!
Waits on a timer and the completions they leave behind.

A wait is pending on its timer until the timer expires or is cancelled; either
way its completion is queued with a code that says which. Arming a timer anew
and destroying it cancel what is pending. A completion that is queued can not be
cancelled any more, and queued completions run in any order.
-/

namespace Heracles.Base

/-- The codes a wait completes with. -/
inductive ErrorCode where
  | success
  | operationAborted
  deriving DecidableEq, Repr

/-- The pending waits of a timer and the queued completions, each with the label
of its wait. -/
structure Timer (ω : Type) where
  pending : List ω
  queued : List (ω × ErrorCode)
  deriving DecidableEq, Repr

namespace Timer

variable {ω : Type}

/-- A timer that nobody has waited on. -/
def fresh : Timer ω := ⟨[], []⟩

/-- All pending waits complete with `ec`. -/
def complete (t : Timer ω) (ec : ErrorCode) : Timer ω :=
  ⟨[], t.queued ++ t.pending.map fun w => (w, ec)⟩

def cancel (t : Timer ω) : Timer ω := t.complete .operationAborted

/-- The expiry time is reached. -/
def expire (t : Timer ω) : Timer ω := t.complete .success

def asyncWait (t : Timer ω) (w : ω) : Timer ω := { t with pending := t.pending ++ [w] }

/-- A new expiry time, which cancels pending waits, and a wait for it. -/
def rearm (t : Timer ω) (w : ω) : Timer ω := t.cancel.asyncWait w

/-- The queue after the handler of its `i`-th completion has been called. -/
def take (t : Timer ω) (i : Nat) : Timer ω := { t with queued := t.queued.eraseIdx i }

@[simp] theorem pending_complete (t : Timer ω) (ec : ErrorCode) : (t.complete ec).pending = [] :=
  rfl

@[simp] theorem pending_rearm (t : Timer ω) (w : ω) : (t.rearm w).pending = [w] := rfl

@[simp] theorem queued_rearm (t : Timer ω) (w : ω) : (t.rearm w).queued = t.cancel.queued := rfl

@[simp] theorem pending_take (t : Timer ω) (i : Nat) : (t.take i).pending = t.pending := rfl

theorem mem_queued_complete {t : Timer ω} {ec ec' : ErrorCode} {w : ω} :
    (w, ec') ∈ (t.complete ec).queued ↔ (w, ec') ∈ t.queued ∨ (w ∈ t.pending ∧ ec' = ec) := by
  simp only [complete, List.mem_append, List.mem_map, Prod.mk.injEq]
  constructor
  · rintro (old | ⟨_, new, rfl, rfl⟩)
    · exact Or.inl old
    · exact Or.inr ⟨new, rfl⟩
  · rintro (old | ⟨new, rfl⟩)
    · exact Or.inl old
    · exact Or.inr ⟨w, new, rfl, rfl⟩

theorem mem_queued_take {t : Timer ω} {i : Nat} {c : ω × ErrorCode}
    (mem : c ∈ (t.take i).queued) : c ∈ t.queued :=
  List.mem_of_mem_eraseIdx mem

/-- Labels of the waits that are pending or whose completion is queued. -/
def labels (t : Timer ω) : List ω := t.pending ++ t.queued.map Prod.fst

theorem mem_labels {t : Timer ω} {w : ω} :
    w ∈ t.labels ↔ w ∈ t.pending ∨ ∃ ec, (w, ec) ∈ t.queued := by
  simp [labels]

theorem mem_labels_complete {t : Timer ω} {ec : ErrorCode} {w : ω}
    (mem : w ∈ (t.complete ec).labels) : w ∈ t.labels := by
  rw [mem_labels] at mem ⊢
  rcases mem with never | ⟨ec', queued⟩
  · cases never
  · rcases mem_queued_complete.mp queued with old | ⟨new, _⟩
    · exact Or.inr ⟨ec', old⟩
    · exact Or.inl new

theorem mem_labels_rearm {t : Timer ω} {w v : ω} (mem : v ∈ (t.rearm w).labels) :
    v = w ∨ v ∈ t.labels := by
  rw [mem_labels] at mem
  rcases mem with pending | ⟨ec, queued⟩
  · exact Or.inl (List.mem_singleton.mp pending)
  · exact Or.inr (mem_labels_complete (mem_labels.mpr (Or.inr ⟨ec, queued⟩)))

theorem mem_labels_take {t : Timer ω} {i : Nat} {w : ω} (mem : w ∈ (t.take i).labels) :
    w ∈ t.labels := by
  rw [mem_labels] at mem ⊢
  rcases mem with pending | ⟨ec, queued⟩
  · exact Or.inl pending
  · exact Or.inr ⟨ec, mem_queued_take queued⟩

end Timer

end Heracles.Base
