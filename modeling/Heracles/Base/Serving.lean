import Heracles.Base.Runs
import Mathlib.Data.Multiset.AddSub
import Mathlib.Data.Multiset.MapFold

/-!
A queue and its servers.

Items arrive at a queue; a server that is free takes the first one, holds it for a
while and finishes it. Any number of servers may work at once, and they may come and
go while they hold nothing. `Accounted` says where every item is: waiting in order of
arrival, in the hands of one server, or finished, once. With one item held at a time,
items are finished in the order in which they arrived (`InOrder`).
-/

namespace Heracles.Base

/-- The queue, what each server holds, and the history: what has arrived, what was
taken and what was finished, each in order. -/
structure Serving (ι α : Type) where
  waiting : List α
  held : Multiset (ι × α)
  arrived : List α
  taken : List α
  finished : List α

namespace Serving

variable {ι α : Type}

def empty : Serving ι α := ⟨[], 0, [], [], []⟩

inductive Move (ι α : Type) where
  | arrive (x : α)
  | take (server : ι)
  | finish (server : ι) (x : α)

open Classical in
noncomputable def step (s : Serving ι α) : Move ι α → Serving ι α
  | .arrive x => { s with waiting := s.waiting ++ [x], arrived := s.arrived ++ [x] }
  | .take server =>
      match s.waiting with
      | [] => s
      | x :: rest =>
          { s with waiting := rest, held := (server, x) ::ₘ s.held, taken := s.taken ++ [x] }
  | .finish server x =>
      { s with held := s.held.erase (server, x), finished := s.finished ++ [x] }

/-- A free server takes, and a server finishes what it holds. -/
def Admitted (s : Serving ι α) : Move ι α → Prop
  | .arrive _ => True
  | .take server => ∀ p ∈ s.held, p.1 ≠ server
  | .finish server x => (server, x) ∈ s.held

/-- In addition, a server takes only when nothing is held. -/
def OneByOne (s : Serving ι α) : Move ι α → Prop
  | .take _ => s.held = 0
  | .arrive _ => True
  | .finish server x => (server, x) ∈ s.held

/-- Finishing an item leaves what else is held. -/
theorem step_finish {s : Serving ι α} {server : ι} {x : α} {others : Multiset (ι × α)}
    (holds : s.held = (server, x) ::ₘ others) :
    s.step (.finish server x) = { s with held := others, finished := s.finished ++ [x] } := by
  simp only [step, holds, Multiset.erase_cons_head]

/-- What has arrived and is not finished. -/
def pending (s : Serving ι α) : Multiset α := s.held.map Prod.snd + s.waiting

theorem pending_take (s : Serving ι α) (server : ι) :
    (s.step (.take server)).pending = s.pending := by
  simp only [step]
  split
  · rfl
  · next x rest queued =>
      simp only [pending, queued, Multiset.map_cons, Multiset.cons_add, ← Multiset.cons_coe,
        Multiset.add_cons]

theorem pending_finish {s : Serving ι α} {server : ι} {x : α} (holds : (server, x) ∈ s.held) :
    s.pending = x ::ₘ (s.step (.finish server x)).pending := by
  obtain ⟨others, holds⟩ := Multiset.exists_cons_of_mem holds
  rw [step_finish holds]
  simp only [pending, holds, Multiset.map_cons, Multiset.cons_add]

/-- What has arrived was taken, in order, or is waiting; what was taken is finished or
held; and no server holds two items. -/
structure Accounted (s : Serving ι α) : Prop where
  order : s.taken ++ s.waiting = s.arrived
  once : (s.taken : Multiset α) = s.finished + s.held.map Prod.snd
  apart : (s.held.map Prod.fst).Nodup

theorem Accounted.empty : Accounted (empty : Serving ι α) :=
  ⟨rfl, rfl, Multiset.nodup_zero⟩

theorem Accounted.step {s : Serving ι α} (accounted : Accounted s) {move : Move ι α}
    (admitted : s.Admitted move) : Accounted (s.step move) := by
  obtain ⟨order, once, apart⟩ := accounted
  cases move with
  | arrive x =>
      refine ⟨?_, once, apart⟩
      change s.taken ++ (s.waiting ++ [x]) = s.arrived ++ [x]
      rw [← List.append_assoc, order]
  | take server =>
      simp only [Serving.step]
      split
      · exact ⟨order, once, apart⟩
      · next x rest queued =>
          refine ⟨?_, ?_, ?_⟩
          · rw [← order, queued, List.append_assoc]
            rfl
          · rw [← Multiset.coe_add, once, Multiset.coe_singleton, Multiset.map_cons, add_assoc,
              add_comm (Multiset.map _ _), Multiset.singleton_add]
          · rw [Multiset.map_cons, Multiset.nodup_cons]
            refine ⟨fun taken => ?_, apart⟩
            obtain ⟨p, holds, same⟩ := Multiset.mem_map.mp taken
            exact admitted p holds same
  | finish server x =>
      obtain ⟨others, holds⟩ := Multiset.exists_cons_of_mem admitted
      rw [step_finish holds]
      rw [holds, Multiset.map_cons, ← Multiset.singleton_add] at once apart
      refine ⟨order, ?_, ?_⟩
      · rw [once, ← Multiset.coe_add, Multiset.coe_singleton, add_assoc]
      · rw [Multiset.singleton_add, Multiset.nodup_cons] at apart
        exact apart.2

/-- With nothing waiting and nothing held, every item that arrived is finished, once. -/
theorem Accounted.drained {s : Serving ι α} (accounted : Accounted s) (none : s.waiting = [])
    (free : s.held = 0) : s.finished.Perm s.arrived := by
  have once := accounted.once
  rw [free, Multiset.map_zero, add_zero] at once
  rw [← accounted.order, none, List.append_nil]
  exact (Multiset.coe_eq_coe.mp once).symm

/-- What is finished and what is held, at most one item, are what was taken, in order. -/
def InOrder (s : Serving ι α) : Prop :=
  (s.held = 0 ∧ s.finished = s.taken) ∨
    ∃ p, s.held = {p} ∧ s.finished ++ [p.2] = s.taken

theorem InOrder.step {s : Serving ι α} (order : InOrder s) {move : Move ι α}
    (admitted : s.OneByOne move) : InOrder (s.step move) := by
  cases move with
  | arrive x => exact order
  | take server =>
      simp only [Serving.step]
      split
      · exact order
      · next x rest queued =>
          rcases order with ⟨free, same⟩ | ⟨p, holds, _⟩
          · refine Or.inr ⟨(server, x), ?_, ?_⟩
            · rw [free]
              rfl
            · rw [same]
          · rw [OneByOne, holds] at admitted
            exact absurd admitted (Multiset.singleton_ne_zero p)
  | finish server x =>
      rcases order with ⟨free, _⟩ | ⟨p, holds, same⟩
      · rw [OneByOne, free] at admitted
        exact absurd admitted (Multiset.notMem_zero _)
      · rw [OneByOne, holds, Multiset.mem_singleton] at admitted
        subst admitted
        rw [@step_finish _ _ s server x 0 holds]
        exact Or.inl ⟨rfl, same⟩

end Serving

end Heracles.Base
