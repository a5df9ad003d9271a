import Heracles.Base.Order

/-!
Partial sorting: rearranging a sequence so that one position holds what it
would hold in the sorted sequence.

An `NthElement` is any such rearrangement. The order of the other elements is
left open, so a result that mentions only an arbitrary `NthElement` holds for
every implementation of the algorithm. `bySorting` is the one that sorts the
whole sequence.
-/

namespace Heracles.Base

/-- An implementation of `std::nth_element`. -/
structure NthElement (α : Type) where
  apply : (before : α → α → Prop) → [DecidableRel before] → Nat → List α → List α
  perm : ∀ (before : α → α → Prop) [DecidableRel before] (n : Nat) (l : List α),
    (apply before n l).Perm l
  sorted_at : ∀ (before : α → α → Prop) [DecidableRel before] [IsStrictTotalOrder α before]
    (n : Nat) (l : List α),
    (apply before n l)[n]? = (l.insertionSort fun a b => ¬ before b a)[n]?

section Ordered

variable {α : Type} [LinearOrder α]

/-- A sequence in ascending order. -/
def ordered (l : List α) : List α := l.insertionSort (· ≤ ·)

theorem ordered_perm (l : List α) : (ordered l).Perm l := List.perm_insertionSort _ l

@[simp] theorem length_ordered (l : List α) : (ordered l).length = l.length :=
  (ordered_perm l).length_eq

theorem pairwise_ordered (l : List α) : (ordered l).Pairwise (· ≤ ·) :=
  List.pairwise_insertionSort (r := (· ≤ ·)) l

/-- Whatever is in ascending order is the ascending order of what it rearranges. -/
theorem eq_ordered {l m : List α} (sorted : m.Pairwise (· ≤ ·)) (perm : m.Perm l) :
    m = ordered l :=
  List.Perm.eq_of_pairwise' sorted (pairwise_ordered l) (perm.trans (ordered_perm l).symm)

theorem ordered_congr {l m : List α} (perm : l.Perm m) : ordered l = ordered m :=
  eq_ordered (pairwise_ordered l) ((ordered_perm l).trans perm)

/-- Elements of the ascending order do not descend. -/
theorem ordered_mono {l : List α} {i j : Nat} (before : i ≤ j) (inside : j < l.length) (d : α) :
    (ordered l).getD i d ≤ (ordered l).getD j d := by
  have insideJ : j < (ordered l).length := by rwa [length_ordered]
  have insideI : i < (ordered l).length := Nat.lt_of_le_of_lt before insideJ
  rw [List.getD_eq_getElem _ _ insideI, List.getD_eq_getElem _ _ insideJ]
  rcases Nat.eq_or_lt_of_le before with rfl | less
  · exact le_refl _
  · exact List.pairwise_iff_getElem.mp (pairwise_ordered l) i j insideI insideJ less

theorem ordered_getD_mem {l : List α} {i : Nat} (inside : i < l.length) (d : α) :
    (ordered l).getD i d ∈ l := by
  have inside' : i < (ordered l).length := by rwa [length_ordered]
  rw [List.getD_eq_getElem _ _ inside']
  exact (ordered_perm l).mem_iff.mp (List.getElem_mem inside')

/-- The first and the last element of the ascending order are the extremes. -/
theorem ordered_extremes {l : List α} {a : α} (member : a ∈ l) (d : α) :
    (ordered l).getD 0 d ≤ a ∧ a ≤ (ordered l).getD (l.length - 1) d := by
  obtain ⟨i, inside, rfl⟩ := List.mem_iff_getElem.mp ((ordered_perm l).mem_iff.mpr member)
  have inside' : i < l.length := by rwa [length_ordered] at inside
  have here := List.getD_eq_getElem (ordered l) d inside
  rw [← here]
  exact ⟨ordered_mono (Nat.zero_le i) inside' d, ordered_mono (by omega) (by omega) d⟩

/-- What `sorted_at` sorts by `<` is in ascending order. -/
theorem insertionSort_not_lt (l : List α) :
    (l.insertionSort fun a b => ¬ b < a) = ordered l := by
  have total : Std.Total fun a b : α => ¬ b < a :=
    ⟨fun a b => (le_total a b).imp not_lt.mpr not_lt.mpr⟩
  have trans : IsTrans α fun a b : α => ¬ b < a :=
    ⟨fun _ _ _ first second => not_lt.mpr ((not_lt.mp first).trans (not_lt.mp second))⟩
  have sorted := List.pairwise_insertionSort (fun a b : α => ¬ b < a) l
  exact eq_ordered (sorted.imp not_lt.mp) (List.perm_insertionSort _ l)

/-- What it sorts by `>` is the reverse. -/
theorem insertionSort_not_gt (l : List α) :
    (l.insertionSort fun a b => ¬ b > a) = (ordered l).reverse := by
  have total : Std.Total fun a b : α => ¬ b > a :=
    ⟨fun a b => (le_total b a).imp not_lt.mpr not_lt.mpr⟩
  have trans : IsTrans α fun a b : α => ¬ b > a :=
    ⟨fun _ _ _ first second => not_lt.mpr ((not_lt.mp second).trans (not_lt.mp first))⟩
  have sorted := List.pairwise_insertionSort (fun a b : α => ¬ b > a) l
  have backwards := List.pairwise_reverse.mpr (sorted.imp not_lt.mp)
  have perm := (List.reverse_perm _).trans (List.perm_insertionSort (fun a b : α => ¬ b > a) l)
  rw [← eq_ordered backwards perm, List.reverse_reverse]

/-- `nth_element` with `<` puts the element of the ascending order at its place. -/
theorem NthElement.getElem?_apply_lt (nth : NthElement α) (n : Nat) (l : List α) :
    (nth.apply (· < ·) n l)[n]? = (ordered l)[n]? := by
  rw [nth.sorted_at, insertionSort_not_lt]

/-- `nth_element` with `>` at the front puts the last element of the ascending
order there. -/
theorem NthElement.getElem?_apply_gt (nth : NthElement α) (l : List α) :
    (nth.apply (· > ·) 0 l)[0]? = (ordered l)[l.length - 1]? := by
  rw [nth.sorted_at, insertionSort_not_gt, ← List.head?_eq_getElem?, List.head?_reverse,
    List.getLast?_eq_getElem?, length_ordered]

end Ordered

/-- Sorting the whole sequence puts every position right. -/
def NthElement.bySorting (α : Type) : NthElement α where
  apply before _ _ l := l.insertionSort fun a b => ¬ before b a
  perm _ _ _ l := List.perm_insertionSort _ l
  sorted_at _ _ _ _ _ := rfl

end Heracles.Base
