import Heracles.Base.Refine

/-!
Looking without the lock, and again with it.

Callers share a table. A caller looks for what it needs without taking the lock; one
that finds nothing takes the lock, looks again and makes what is missing; then it uses
what it has got. Any number of callers may be anywhere in this (`SharedTable.step`).

`SharedTable.Linearizes` compares the table with one whose operations happen one after the
other. Its rule `run` says that every run of callers is a run of these operations:
a caller gets when it finds or leaves the lock, and is done when it uses.
-/

namespace Heracles.Base

/-- What callers do with a table of states `σ`: `look` finds what a request `ρ` is for
or not, `make` makes it if it can, and `use` is done with what was got. -/
structure SharedTable (σ ρ ν β : Type) where
  look : ρ → σ → Option (ν × σ)
  make : ρ → σ → Option ν × σ
  use : ρ → ν → σ → β × σ

namespace SharedTable

variable {σ ρ ν β ω : Type}

/-- Getting, all at once. -/
def get (t : SharedTable σ ρ ν β) (r : ρ) (s : σ) : Option ν × σ :=
  match t.look r s with
  | some (v, s) => (some v, s)
  | none => t.make r s

/-- How far a caller is. One that got nothing has no result. -/
inductive Stage (ν β : Type) where
  | looking
  | missed
  | got (v : ν)
  | returned (result : Option β)
  deriving DecidableEq

def Stage.ofGot : Option ν → Stage ν β
  | some v => .got v
  | none => .returned none

/-- The table and its callers, in the order in which they came. -/
structure Callers (σ ρ ν β : Type) where
  shared : σ
  calls : List (ρ × Stage ν β)

inductive Action (ρ ω : Type) where
  | call (r : ρ)
  | look (i : Nat)
  | fill (i : Nat)
  | use (i : Nat)
  | other (o : ω)

variable (t : SharedTable σ ρ ν β) (act : ω → σ → σ)

/-- One step of a caller, or something else that happens to the table. An action that
is not possible leaves all as it is. -/
def step (s : Callers σ ρ ν β) : Action ρ ω → Callers σ ρ ν β
  | .call r => { s with calls := s.calls ++ [(r, .looking)] }
  | .look i =>
      match s.calls[i]? with
      | some (r, .looking) =>
          match t.look r s.shared with
          | some (v, shared) => ⟨shared, s.calls.set i (r, .got v)⟩
          | none => { s with calls := s.calls.set i (r, .missed) }
      | _ => s
  | .fill i =>
      match s.calls[i]? with
      | some (r, .missed) =>
          let (v, shared) := t.get r s.shared
          ⟨shared, s.calls.set i (r, .ofGot v)⟩
      | _ => s
  | .use i =>
      match s.calls[i]? with
      | some (r, .got v) =>
          let (result, shared) := t.use r v s.shared
          ⟨shared, s.calls.set i (r, .returned (some result))⟩
      | _ => s
  | .other o => { s with shared := act o s.shared }

/-- What happens to the table, in order. -/
inductive Event (ρ β ω : Type) where
  | got (r : ρ)
  | done (r : ρ) (result : β)
  | other (o : ω)

def events (s : Callers σ ρ ν β) : Action ρ ω → List (Event ρ β ω)
  | .call _ => []
  | .look i =>
      match s.calls[i]? with
      | some (r, .looking) => if (t.look r s.shared).isSome then [.got r] else []
      | _ => []
  | .fill i =>
      match s.calls[i]? with
      | some (r, .missed) => [.got r]
      | _ => []
  | .use i =>
      match s.calls[i]? with
      | some (r, .got v) => [.done r (t.use r v s.shared).1]
      | _ => []
  | .other o => [.other o]

/-! ### One after the other -/

/-- Operations that happen one after the other: getting may leave a trace, `touch`. -/
structure Sequential (τ ρ β ω : Type) where
  touch : ρ → τ → τ
  perform : ρ → τ → β × τ
  act : ω → τ → τ

def Sequential.step {τ : Type} (q : Sequential τ ρ β ω) (u : τ) : Event ρ β ω → τ
  | .got r => q.touch r u
  | .done r _ => (q.perform r u).2
  | .other o => q.act o u

/-- The operation has this result. -/
def Sequential.Answers {τ : Type} (q : Sequential τ ρ β ω) (u : τ) : Event ρ β ω → Prop
  | .done r result => (q.perform r u).1 = result
  | _ => True

/-- The table does what the operations do, one after the other: getting shows as
`touch`, and using what was got, some time later, as performing the request then.
`ready` is what a caller relies on in between. -/
structure Linearizes {τ : Type} (q : Sequential τ ρ β ω) (same : σ → τ → Prop)
    (ready : ρ → ν → σ → Prop) : Prop where
  get : ∀ {s u} r, same s u → same (t.get r s).2 (q.touch r u)
  use : ∀ {s u r v}, same s u → ready r v s →
    (q.perform r u).1 = (t.use r v s).1 ∧ same (t.use r v s).2 (q.perform r u).2
  other : ∀ {s u} o, same s u → same (act o s) (q.act o u)
  ready_got : ∀ {s u r v}, same s u → (t.get r s).1 = some v → ready r v (t.get r s).2
  ready_get : ∀ {s u r v} r', same s u → ready r v s → ready r v (t.get r' s).2
  ready_use : ∀ {s u r v r' v'}, same s u → ready r v s → ready r' v' s →
    ready r v (t.use r' v' s).2
  ready_other : ∀ {s u r v} o, same s u → ready r v s → ready r v (act o s)

/-- All that have got something are ready to use it. -/
def AllReady (ready : ρ → ν → σ → Prop) (s : Callers σ ρ ν β) : Prop :=
  ∀ (i : Nat) (r : ρ) (v : ν), s.calls[i]? = some (r, .got v) → ready r v s.shared

variable {t act}

/-- A caller that has got something is the one that moved, or had it before. -/
theorem AllReady.set {ready : ρ → ν → σ → Prop} {s : Callers σ ρ ν β}
    (all : AllReady ready s) {shared : σ} {i : Nat} {r : ρ} {stage : Stage ν β}
    (kept : ∀ r v, ready r v s.shared → ready r v shared)
    (moved : ∀ v, stage = .got v → ready r v shared) :
    AllReady ready ⟨shared, s.calls.set i (r, stage)⟩ := by
  intro j r' v there
  by_cases same : i = j
  · subst same
    rw [List.getElem?_set_self'] at there
    obtain ⟨_, _, moves⟩ := Option.map_eq_some_iff.mp there
    cases moves
    exact moved v rfl
  · rw [List.getElem?_set_ne same] at there
    exact kept r' v (all j r' v there)

/-- The results that callers have returned with. -/
def results (calls : List (ρ × Stage ν β)) : List (ρ × β) :=
  calls.filterMap fun (r, stage) =>
    match stage with
    | .returned (some result) => some (r, result)
    | _ => none

/-- The requests done, with their results. -/
def Event.result : Event ρ β ω → Option (ρ × β)
  | .done r result => some (r, result)
  | _ => none

/-- A caller that had not returned may return now. -/
theorem results_set {calls : List (ρ × Stage ν β)} {i : Nat} {r : ρ} {before : Stage ν β}
    (there : calls[i]? = some (r, before)) (unreturned : results [(r, before)] = [])
    (after : Stage ν β) :
    (results (calls.set i (r, after))).Perm (results calls ++ results [(r, after)]) := by
  obtain ⟨inside, found⟩ := List.getElem?_eq_some_iff.mp there
  have split : calls = calls.take i ++ ([(r, before)] ++ calls.drop (i + 1)) := by
    rw [← found, List.singleton_append, List.cons_getElem_drop_succ, List.take_append_drop]
  have replaced : calls.set i (r, after) =
      calls.take i ++ ([(r, after)] ++ calls.drop (i + 1)) := by
    rw [List.set_eq_take_append_cons_drop, if_pos inside, List.singleton_append]
  have joined (front middle back : List (ρ × Stage ν β)) : results (front ++ (middle ++ back)) =
      results front ++ (results middle ++ results back) := by
    rw [results, List.filterMap_append, List.filterMap_append]
    rfl
  have whole : results calls = results (calls.take i) ++ results (calls.drop (i + 1)) := by
    nth_rewrite 1 [split]
    rw [joined, unreturned, List.nil_append]
  rw [replaced, joined, whole, List.append_assoc]
  exact List.Perm.append_left _ List.perm_append_comm

theorem results_step (s : Callers σ ρ ν β) (a : Action ρ ω) :
    (results (t.step act s a).calls).Perm
      (results s.calls ++ (t.events s a).filterMap Event.result) := by
  have stays : (results s.calls).Perm (results s.calls ++ []) := by rw [List.append_nil]
  have gets (i : Nat) (r : ρ) {before : Stage ν β} (there : s.calls[i]? = some (r, before))
      (unreturned : results [(r, before)] = []) :
      (results (s.calls.set i (r, .ofGot (t.get r s.shared).1))).Perm (results s.calls ++ []) := by
    have moved := results_set there unreturned (.ofGot (t.get r s.shared).1)
    cases got : (t.get r s.shared).1 with
    | none =>
        rw [got] at moved
        exact moved
    | some v =>
        rw [got] at moved
        exact moved
  cases a with
  | call r =>
      change (results (s.calls ++ [(r, .looking)])).Perm (results s.calls ++ [])
      rw [results, List.filterMap_append]
      exact List.Perm.refl _
  | look i =>
      simp only [step, events]
      split
      · next r called =>
          cases found : t.look r s.shared with
          | none => exact results_set called rfl .missed
          | some got =>
              have moved := gets i r called rfl
              have whole : t.get r s.shared = (some got.1, got.2) := by rw [SharedTable.get, found]
              rw [whole] at moved
              exact moved
      · exact stays
  | fill i =>
      simp only [step, events]
      split
      · next r called => exact gets i r called rfl
      · exact stays
  | use i =>
      simp only [step, events]
      split
      · next r v called => exact results_set called rfl _
      · exact stays
  | other o => exact stays

/-- What callers have returned with is what was done. -/
theorem results_run (s : Callers σ ρ ν β) (actions : List (Action ρ ω)) :
    (results (run (t.step act) s actions).calls).Perm
      (results s.calls ++ (movesOf (t.step act) t.events s actions).filterMap Event.result) := by
  induction actions generalizing s with
  | nil =>
      rw [movesOf, List.filterMap_nil, List.append_nil]
      exact List.Perm.refl _
  | cons a actions ih =>
      rw [run_cons, movesOf, List.filterMap_append, ← List.append_assoc]
      exact (ih (t.step act s a)).trans ((results_step s a).append_right _)

section Run

variable {τ : Type} {q : Sequential τ ρ β ω} {same : σ → τ → Prop} {ready : ρ → ν → σ → Prop}

/-- One step of the callers: the operations that it shows as. -/
theorem Linearizes.step (linearizes : Linearizes t act q same ready) {s : Callers σ ρ ν β} {u : τ}
    (related : same s.shared u) (all : AllReady ready s) (a : Action ρ ω) :
    same (t.step act s a).shared (run q.step u (t.events s a)) ∧
      AllReady ready (t.step act s a) ∧ Along q.step q.Answers u (t.events s a) := by
  have stays : same s.shared u ∧ AllReady ready s ∧ True := ⟨related, all, trivial⟩
  have gets (i : Nat) (r : ρ) :
      same (t.get r s.shared).2 (q.touch r u) ∧
        AllReady ready ⟨(t.get r s.shared).2,
          s.calls.set i (r, .ofGot (t.get r s.shared).1)⟩ ∧ (True ∧ True) := by
    refine ⟨linearizes.get r related, ?_, trivial, trivial⟩
    apply all.set
    · intro r' v before
      exact linearizes.ready_get r related before
    · intro v got
      apply linearizes.ready_got related
      cases found : (t.get r s.shared).1 with
      | none =>
          rw [found] at got
          cases got
      | some w =>
          rw [found] at got
          cases got
          rfl
  cases a with
  | call r =>
      refine ⟨related, ?_, trivial⟩
      intro i r' v there
      change (s.calls ++ [(r, Stage.looking)])[i]? = some (r', Stage.got v) at there
      by_cases before : i < s.calls.length
      · rw [List.getElem?_append_left before] at there
        exact all i r' v there
      · rw [List.getElem?_append_right (not_lt.mp before)] at there
        cases List.mem_singleton.mp (List.mem_of_getElem? there)
  | look i =>
      simp only [SharedTable.step, events]
      split
      · next r called =>
          cases found : t.look r s.shared with
          | none =>
              refine ⟨related, ?_, trivial⟩
              apply all.set
              · exact fun _ _ before => before
              · intro v got
                cases got
          | some got =>
              have whole : t.get r s.shared = (some got.1, got.2) := by rw [SharedTable.get, found]
              have result := gets i r
              rw [whole] at result
              exact result
      · exact stays
  | fill i =>
      simp only [SharedTable.step, events]
      split
      · next r called => exact gets i r
      · exact stays
  | use i =>
      simp only [SharedTable.step, events]
      split
      · next r v called =>
          have able := all i r v called
          obtain ⟨answers, after⟩ := linearizes.use related able
          refine ⟨after, ?_, answers, trivial⟩
          apply all.set
          · intro r' v' before
            exact linearizes.ready_use related before able
          · intro v' got
            cases got
      · exact stays
  | other o =>
      refine ⟨linearizes.other o related, ?_, trivial, trivial⟩
      intro i r v there
      exact linearizes.ready_other o related (all i r v there)

/-- Every run of callers is a run of the operations, one after the other, with the same
results. -/
theorem Linearizes.run (linearizes : Linearizes t act q same ready) {s : Callers σ ρ ν β} {u : τ}
    (related : same s.shared u) (all : AllReady ready s) (actions : List (Action ρ ω)) :
    same (Base.run (t.step act) s actions).shared
        (Base.run q.step u (movesOf (t.step act) t.events s actions)) ∧
      AllReady ready (Base.run (t.step act) s actions) ∧
      Along q.step q.Answers u (movesOf (t.step act) t.events s actions) := by
  induction actions generalizing s u with
  | nil => exact ⟨related, all, trivial⟩
  | cons a actions ih =>
      obtain ⟨next, ready, answered⟩ := linearizes.step related all a
      obtain ⟨final, allFinal, answers⟩ := ih next ready
      rw [movesOf, run_append]
      exact ⟨final, allFinal, along_append.mpr ⟨answered, answers⟩⟩

end Run

end SharedTable

end Heracles.Base
