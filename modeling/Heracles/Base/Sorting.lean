import Mathlib.Data.List.Pairwise
import Mathlib.Data.List.Sort

/-!
Sorting by a comparison.

A comparison tells two elements apart when it answers differently both ways
round. `SortsDistinct` is what a sort promises about lists whose elements the
comparison tells apart; two sorts that keep the promise agree on these lists
(`SortsDistinct.eq`), whatever they do with equal keys.

`StrictWeakOn` is what `std::sort` asks of a comparison on the elements it is
given, and `SortsWeak` what it promises in return.
-/

namespace Heracles.Base

variable {α : Type}

/-- The comparison tells every two elements of the list apart. -/
def TellsApart (cmp : α → α → Bool) (l : List α) : Prop := l.Pairwise fun a b => cmp a b ≠ cmp b a

instance (cmp : α → α → Bool) (l : List α) : Decidable (TellsApart cmp l) :=
  inferInstanceAs (Decidable (List.Pairwise _ _))

/-- The sort gives the sorted permutation of a list without equal keys. -/
structure SortsDistinct (sort : (α → α → Bool) → List α → List α) : Prop where
  perm : ∀ cmp l, IsTrans α (fun a b => cmp a b = true) → TellsApart cmp l → (sort cmp l).Perm l
  sorted : ∀ cmp l, IsTrans α (fun a b => cmp a b = true) → TellsApart cmp l →
    (sort cmp l).Pairwise fun a b => cmp a b = true

theorem TellsApart.eq_of_both {cmp : α → α → Bool} {l : List α} (apart : TellsApart cmp l) {a b : α}
    (memberA : a ∈ l) (memberB : b ∈ l) (same : cmp a b = cmp b a) : a = b := by
  by_contra differ
  have : Std.Symm fun a b => cmp a b ≠ cmp b a := ⟨fun _ _ => Ne.symm⟩
  exact List.Pairwise.forall apart memberA memberB differ same

/-- There is one sorted permutation of a list without equal keys. -/
theorem SortsDistinct.eq {sort other : (α → α → Bool) → List α → List α}
    (sorts : SortsDistinct sort) (others : SortsDistinct other) {cmp : α → α → Bool}
    (trans : IsTrans α fun a b => cmp a b = true) {l : List α} (apart : TellsApart cmp l) :
    sort cmp l = other cmp l := by
  have permSort := sorts.perm cmp l trans apart
  have permOther := others.perm cmp l trans apart
  refine List.Perm.eq_of_pairwise ?_ (sorts.sorted cmp l trans apart)
    (others.sorted cmp l trans apart) (permSort.trans permOther.symm)
  intro a b memberA memberB before after
  exact apart.eq_of_both (permSort.mem_iff.mp memberA) (permOther.mem_iff.mp memberB)
    (before.trans after.symm)

/-! ### Insertion sort -/

theorem pairwise_orderedInsert {r : α → α → Prop} [DecidableRel r]
    {a : α} {l : List α} (trans : ∀ b ∈ l, ∀ c ∈ l, r a b → r b c → r a c) (sorted : l.Pairwise r)
    (comparable : ∀ b ∈ l, r a b ∨ r b a) : (l.orderedInsert r a).Pairwise r := by
  induction l with
  | nil => exact List.pairwise_singleton r a
  | cons b l ih =>
      obtain ⟨least, rest⟩ := List.pairwise_cons.mp sorted
      by_cases before : r a b
      · rw [List.orderedInsert_cons, if_pos before]
        refine List.pairwise_cons.mpr ⟨fun c member => ?_, sorted⟩
        rcases List.mem_cons.mp member with rfl | inside
        · exact before
        · exact trans b List.mem_cons_self c member before (least c inside)
      · rw [List.orderedInsert_cons, if_neg before]
        have later := ih (fun c inside d inside' =>
          trans c (List.mem_cons_of_mem b inside) d (List.mem_cons_of_mem b inside')) rest
          fun c inside => comparable c (List.mem_cons_of_mem b inside)
        refine List.pairwise_cons.mpr ⟨fun c member => ?_, later⟩
        rcases (List.mem_orderedInsert r).mp member with rfl | inside
        · exact (comparable b List.mem_cons_self).resolve_left before
        · exact least c inside

/-- Insertion sort keeps the promise. -/
theorem sortsDistinct_insertionSort :
    SortsDistinct fun (cmp : α → α → Bool) l => l.insertionSort fun a b => cmp a b = true := by
  refine ⟨fun cmp l _ _ => List.perm_insertionSort _ l, fun cmp l trans apart => ?_⟩
  induction l with
  | nil => exact List.Pairwise.nil
  | cons a l ih =>
      obtain ⟨first, rest⟩ := List.pairwise_cons.mp apart
      refine pairwise_orderedInsert (fun b _ c _ => trans.trans a b c) (ih rest)
        fun b member => ?_
      have differ := first b ((List.mem_insertionSort _).mp member)
      by_cases before : cmp a b = true
      · exact .inl before
      · rw [Bool.not_eq_true] at before
        rw [before] at differ
        exact .inr (Bool.eq_true_of_not_eq_false (Ne.symm differ))

/-! ### Strict weak orderings -/

/-- The comparison puts neither element before the other. -/
def Incomparable (cmp : α → α → Bool) (a b : α) : Prop := cmp a b = false ∧ cmp b a = false

/-- The comparison is a strict weak ordering of the elements. -/
structure StrictWeakOn (cmp : α → α → Bool) (s : Set α) : Prop where
  irrefl : ∀ a ∈ s, cmp a a = false
  trans : ∀ a ∈ s, ∀ b ∈ s, ∀ c ∈ s, cmp a b = true → cmp b c = true → cmp a c = true
  incomparable : ∀ a ∈ s, ∀ b ∈ s, ∀ c ∈ s,
    Incomparable cmp a b → Incomparable cmp b c → Incomparable cmp a c

/-- Given a strict weak ordering of the elements, the sort gives a permutation
in which no element comes before an earlier one. -/
structure SortsWeak (sort : (α → α → Bool) → List α → List α) : Prop where
  perm : ∀ cmp l, StrictWeakOn cmp {a | a ∈ l} → (sort cmp l).Perm l
  sorted : ∀ cmp l, StrictWeakOn cmp {a | a ∈ l} →
    (sort cmp l).Pairwise fun a b => cmp b a = false

theorem StrictWeakOn.mono {cmp : α → α → Bool} {s t : Set α} (weak : StrictWeakOn cmp t)
    (inside : s ⊆ t) : StrictWeakOn cmp s :=
  ⟨fun a ha => weak.irrefl a (inside ha),
    fun a ha b hb c hc => weak.trans a (inside ha) b (inside hb) c (inside hc),
    fun a ha b hb c hc => weak.incomparable a (inside ha) b (inside hb) c (inside hc)⟩

theorem StrictWeakOn.asymm {cmp : α → α → Bool} {s : Set α} (weak : StrictWeakOn cmp s) {a b : α}
    (memberA : a ∈ s) (memberB : b ∈ s) (before : cmp a b = true) : cmp b a = false := by
  by_contra after
  rw [Bool.not_eq_false] at after
  have reflexive := weak.trans a memberA b memberB a memberA before after
  rw [weak.irrefl a memberA] at reflexive
  cases reflexive

/-- Not coming after is transitive. -/
theorem StrictWeakOn.not_after_trans {cmp : α → α → Bool} {s : Set α} (weak : StrictWeakOn cmp s)
    {a b c : α} (memberA : a ∈ s) (memberB : b ∈ s) (memberC : c ∈ s) (first : cmp b a = false)
    (second : cmp c b = false) : cmp c a = false := by
  by_contra after
  rw [Bool.not_eq_false] at after
  have before := weak.asymm memberC memberA after
  -- b is before neither of a and c, nor after either
  have aboveA : cmp a b = false := by
    by_contra less
    rw [Bool.not_eq_false] at less
    have := weak.trans c memberC a memberA b memberB after less
    rw [second] at this
    cases this
  have belowC : cmp b c = false := by
    by_contra less
    rw [Bool.not_eq_false] at less
    have := weak.trans b memberB c memberC a memberA less after
    rw [first] at this
    cases this
  have same := (weak.incomparable a memberA b memberB c memberC ⟨aboveA, first⟩ ⟨belowC, second⟩).2
  rw [after] at same
  cases same

/-- Comparing by a key is a strict weak ordering. -/
theorem strictWeakOn_of_key {κ : Type} [LinearOrder κ] {cmp : α → α → Bool} {key : α → κ}
    (byKey : ∀ a b, cmp a b = true ↔ key a < key b) : StrictWeakOn cmp Set.univ := by
  have notBefore (a b : α) : cmp a b = false ↔ key b ≤ key a := by
    rw [← Bool.not_eq_true, byKey, not_lt]
  refine ⟨?_, ?_, ?_⟩
  · intro a _
    exact (notBefore a a).mpr (le_refl _)
  · intro a _ b _ c _ first second
    exact (byKey a c).mpr (((byKey a b).mp first).trans ((byKey b c).mp second))
  · rintro a _ b _ c _ ⟨ab, ba⟩ ⟨bc, cb⟩
    rw [notBefore] at ab ba bc cb
    exact ⟨(notBefore a c).mpr (bc.trans ab), (notBefore c a).mpr (ba.trans cb)⟩

/-- Insertion sort keeps the promise of `std::sort`. -/
theorem sortsWeak_insertionSort :
    SortsWeak fun (cmp : α → α → Bool) l => l.insertionSort fun a b => cmp b a = false := by
  refine ⟨fun cmp l _ => List.perm_insertionSort _ l, fun cmp l weak => ?_⟩
  induction l with
  | nil => exact List.Pairwise.nil
  | cons a l ih =>
      have inside : ∀ {b}, b ∈ l.insertionSort (fun a b => cmp b a = false) →
          b ∈ {b | b ∈ a :: l} := fun member =>
        List.mem_cons_of_mem a ((List.mem_insertionSort _).mp member)
      refine pairwise_orderedInsert ?_ (ih (weak.mono fun b => List.mem_cons_of_mem a)) ?_
      · intro b memberB c memberC
        exact weak.not_after_trans List.mem_cons_self (inside memberB) (inside memberC)
      · intro b member
        by_cases before : cmp b a = true
        · exact .inr (weak.asymm (inside member) List.mem_cons_self before)
        · exact .inl (Bool.not_eq_true _ ▸ before)

end Heracles.Base
