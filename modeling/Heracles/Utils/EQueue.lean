import Heracles.Base.Order

/-!
The queue between producers and consumers.

Every operation takes the queue's lock, so each is one function on the list of
queued items, oldest first. A timed pop that finds the queue empty has timed
out; both kinds of pop then report it and leave the queue alone.
-/

namespace Heracles.Utils.EQueue

variable {α : Type}

/-- `POP` of one item: `none` is the time-out on an empty queue. -/
def pop : List α → Option (α × List α)
  | [] => none
  | t :: items => some (t, items)

/-- `POP` of up to `maxCount` items: the items popped and the queue left. The
loop tests its bound after popping, so it takes one item even for a zero bound. -/
def popMany (maxCount : Nat) : List α → List α × List α
  | [] => ([], [])
  | t :: items =>
      if 1 < maxCount then
        let rest := popMany (maxCount - 1) items
        (t :: rest.1, rest.2)
      else ([t], items)

/-- `SHRINK_FRONT`: the oldest items go until `sz` are left. -/
def shrinkFront (sz : Nat) (items : List α) : List α :=
  if items.length ≤ sz then items else items.drop (items.length - sz)

/-- The items `SHRINK_FRONT` removes. -/
def shrunk (sz : Nat) (items : List α) : List α := items.take (items.length - sz)

theorem shrunk_append (sz : Nat) (items : List α) :
    shrunk sz items ++ shrinkFront sz items = items := by
  rw [shrunk, shrinkFront]
  split
  · next small => rw [Nat.sub_eq_zero_of_le small, List.take_zero, List.nil_append]
  · exact List.take_append_drop _ _

theorem length_shrinkFront {sz : Nat} {items : List α} (removes : shrunk sz items ≠ []) :
    (shrinkFront sz items).length = sz := by
  rw [shrinkFront]
  split
  · next small => simp [shrunk, Nat.sub_eq_zero_of_le small] at removes
  · next large =>
      rw [List.length_drop]
      omega

/-- A bulk pop splits the queue. -/
theorem popMany_append (maxCount : Nat) (items : List α) :
    (popMany maxCount items).1 ++ (popMany maxCount items).2 = items := by
  induction items generalizing maxCount with
  | nil => rfl
  | cons t items ih =>
      simp only [popMany]
      split
      · simp [ih]
      · rfl

theorem popMany_map {β : Type} (f : α → β) (maxCount : Nat) (items : List α) :
    popMany maxCount (items.map f) =
      ((popMany maxCount items).1.map f, (popMany maxCount items).2.map f) := by
  induction items generalizing maxCount with
  | nil => rfl
  | cons t items ih =>
      simp only [popMany, List.map_cons]
      split
      · simp [ih]
      · rfl

end Heracles.Utils.EQueue
