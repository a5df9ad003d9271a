import Heracles.Base.Sorting
import Heracles.Business.EventTypes

/-!
Ordering the groups of a result.

`doSort` picks the comparison for the requested key and direction. What
`std::sort` makes of a comparison is a parameter: the descending comparisons
negate the ascending ones and hold between equal keys. Lines with different keys
are ordered in one way, whatever the implementation (`doSort_eq`).
-/

namespace Heracles.Business.Sort

open Heracles.Base

/-- The ascending comparison of each key. -/
def ascending : OrderByType → EventInfo → EventInfo → Bool
  | .none => fun _ _ => false
  | .timestamp => fun lhs rhs => decide (lhs.timestamp < rhs.timestamp)
  | .tag => fun lhs rhs => decide (lhs.tag < rhs.tag)
  | .count => fun lhs rhs => decide (lhs.count < rhs.count)
  | .sum => fun lhs rhs => decide (lhs.valueSum < rhs.valueSum)
  | .avg => fun lhs rhs => decide (lhs.valueAvg < rhs.valueAvg)
  | .min => fun lhs rhs => decide (lhs.valueMin < rhs.valueMin)
  | .max => fun lhs rhs => decide (lhs.valueMax < rhs.valueMax)
  | .p10 => fun lhs rhs => decide (lhs.valueP10 < rhs.valueP10)
  | .p50 => fun lhs rhs => decide (lhs.valueP50 < rhs.valueP50)
  | .p90 => fun lhs rhs => decide (lhs.valueP90 < rhs.valueP90)

/-- The descending comparison of each key. -/
def descending (btp : OrderByType) (lhs rhs : EventInfo) : Bool := !ascending btp lhs rhs

/-- `do_sort` over an implementation of `std::sort`. -/
def doSort (stdSort : (EventInfo → EventInfo → Bool) → List EventInfo → List EventInfo)
    (info : List EventInfo) (btp : OrderByType) (tp : OrderType) : List EventInfo :=
  match btp, tp with
  | .none, _ => info
  | _, .desc => stdSort (descending btp) info
  | _, .asc => stdSort (ascending btp) info

/-- The ascending comparison of a key is that of its values. -/
theorem exists_key (btp : OrderByType) :
    ∃ (κ : Type) (_ : LinearOrder κ) (key : EventInfo → κ),
      ∀ lhs rhs, ascending btp lhs rhs = true ↔ key lhs < key rhs := by
  have byKey {κ : Type} [LinearOrder κ] [DecidableLT κ] (key : EventInfo → κ) :
      ∀ lhs rhs, decide (key lhs < key rhs) = true ↔ key lhs < key rhs :=
    fun _ _ => decide_eq_true_iff
  cases btp with
  | none => exact ⟨Unit, inferInstance, fun _ => (), fun _ _ => by simp [ascending]⟩
  | timestamp => exact ⟨Int64, inferInstance, EventInfo.timestamp, byKey _⟩
  | tag => exact ⟨Bytes, inferInstance, EventInfo.tag, byKey _⟩
  | count => exact ⟨Int32, inferInstance, EventInfo.count, byKey _⟩
  | sum => exact ⟨Int64, inferInstance, EventInfo.valueSum, byKey _⟩
  | avg => exact ⟨Int32, inferInstance, EventInfo.valueAvg, byKey _⟩
  | min => exact ⟨Int32, inferInstance, EventInfo.valueMin, byKey _⟩
  | max => exact ⟨Int32, inferInstance, EventInfo.valueMax, byKey _⟩
  | p10 => exact ⟨Int32, inferInstance, EventInfo.valueP10, byKey _⟩
  | p50 => exact ⟨Int32, inferInstance, EventInfo.valueP50, byKey _⟩
  | p90 => exact ⟨Int32, inferInstance, EventInfo.valueP90, byKey _⟩

theorem strictWeakOn_ascending (btp : OrderByType) : StrictWeakOn (ascending btp) Set.univ := by
  obtain ⟨κ, _, key, byKey⟩ := exists_key btp
  exact strictWeakOn_of_key byKey

/-! ### Lines with different keys -/

theorem transitive_ascending (btp : OrderByType) :
    IsTrans EventInfo fun lhs rhs => ascending btp lhs rhs = true := by
  have weak := strictWeakOn_ascending btp
  exact ⟨fun a b c => weak.trans a trivial b trivial c trivial⟩

theorem transitive_descending (btp : OrderByType) :
    IsTrans EventInfo fun lhs rhs => descending btp lhs rhs = true := by
  have weak := strictWeakOn_ascending btp
  refine ⟨fun a b c first second => ?_⟩
  rw [descending, Bool.not_eq_true'] at first second ⊢
  exact weak.not_after_trans (a := c) trivial trivial trivial second first

/-- The sort keys of the lines are pairwise different. -/
def DistinctKeys (btp : OrderByType) (info : List EventInfo) : Prop :=
  TellsApart (ascending btp) info

instance (btp : OrderByType) (info : List EventInfo) : Decidable (DistinctKeys btp info) :=
  inferInstanceAs (Decidable (TellsApart _ _))

theorem DistinctKeys.descending {btp : OrderByType} {info : List EventInfo}
    (distinct : DistinctKeys btp info) : TellsApart (descending btp) info :=
  List.Pairwise.imp (fun differ same => differ (Bool.not_inj same)) distinct

section Implementations

variable {stdSort other : (EventInfo → EventInfo → Bool) → List EventInfo → List EventInfo}
  {info : List EventInfo} {btp : OrderByType}

theorem doSort_perm (sorts : SortsDistinct stdSort) (distinct : DistinctKeys btp info)
    (tp : OrderType) : (doSort stdSort info btp tp).Perm info := by
  unfold doSort
  split
  · exact List.Perm.refl info
  · exact sorts.perm _ _ (transitive_descending btp) distinct.descending
  · exact sorts.perm _ _ (transitive_ascending btp) distinct

theorem doSort_eq (sorts : SortsDistinct stdSort) (others : SortsDistinct other)
    (distinct : DistinctKeys btp info) (tp : OrderType) :
    doSort stdSort info btp tp = doSort other info btp tp := by
  unfold doSort
  split
  · rfl
  · exact sorts.eq others (transitive_descending btp) distinct.descending
  · exact sorts.eq others (transitive_ascending btp) distinct

end Implementations

/-! ### The precondition of `std::sort` -/

/-- The comparison that `do_sort` passes to `std::sort`. -/
def comparison (btp : OrderByType) : OrderType → EventInfo → EventInfo → Bool
  | .desc => descending btp
  | .asc => ascending btp

theorem doSort_of_ne (stdSort : (EventInfo → EventInfo → Bool) → List EventInfo → List EventInfo)
    (info : List EventInfo) {btp : OrderByType} (asked : btp ≠ .none) (tp : OrderType) :
    doSort stdSort info btp tp = stdSort (comparison btp tp) info := by
  unfold doSort comparison
  split
  · exact absurd rfl asked
  · rfl
  · rfl

/-- One line comes before another in the requested direction. -/
def precedes (btp : OrderByType) : OrderType → EventInfo → EventInfo → Bool
  | .asc, lhs, rhs => ascending btp lhs rhs
  | .desc, lhs, rhs => ascending btp rhs lhs

/-- No line comes before an earlier one in the requested direction. -/
def InOrder (btp : OrderByType) (tp : OrderType) (info : List EventInfo) : Prop :=
  info.Pairwise fun earlier later => precedes btp tp later earlier = false

instance (btp : OrderByType) (tp : OrderType) (info : List EventInfo) :
    Decidable (InOrder btp tp info) := inferInstanceAs (Decidable (List.Pairwise _ _))

/-- The lines may be given to `std::sort` with the comparison, and every sort that
keeps the promise of `std::sort` puts them in the requested order. -/
structure SortsLines (btp : OrderByType) (tp : OrderType) (info : List EventInfo) : Prop where
  precondition : StrictWeakOn (comparison btp tp) {line | line ∈ info}
  perm : ∀ stdSort, SortsWeak stdSort → (doSort stdSort info btp tp).Perm info
  sorted : ∀ stdSort, SortsWeak stdSort → InOrder btp tp (doSort stdSort info btp tp)

/-- A negated comparison puts every line before itself. -/
theorem not_irrefl_descending (btp : OrderByType) (line : EventInfo) :
    comparison btp .desc line line = true := by
  rw [comparison, descending, (strictWeakOn_ascending btp).irrefl line trivial]
  rfl

/-- For every sort key, the comparison is a strict weak ordering of all lines
exactly in ascending order, and a list is sorted by it as `std::sort` promises
exactly in ascending order or when it is empty. -/
theorem sorts_lines_iff {btp : OrderByType} (asked : btp ≠ .none) (tp : OrderType)
    (info : List EventInfo) :
    (StrictWeakOn (comparison btp tp) Set.univ ↔ tp = .asc) ∧
      (SortsLines btp tp info ↔ tp = .asc ∨ info = []) := by
  have weak := strictWeakOn_ascending btp
  constructor
  · constructor
    · intro strict
      cases tp with
      | asc => rfl
      | desc =>
          have irreflexive := strict.irrefl .zero trivial
          rw [not_irrefl_descending] at irreflexive
          cases irreflexive
    · rintro rfl
      exact weak
  · constructor
    · intro sorts
      cases tp with
      | asc => exact .inl rfl
      | desc =>
          refine .inr (List.eq_nil_iff_forall_not_mem.mpr fun line member => ?_)
          have irreflexive := sorts.precondition.irrefl line member
          rw [not_irrefl_descending] at irreflexive
          cases irreflexive
    · have ofWeak (strict : StrictWeakOn (comparison btp tp) {line | line ∈ info})
          (order : ∀ lines : List EventInfo,
            lines.Pairwise (fun a b => comparison btp tp b a = false) → lines.Perm info →
              InOrder btp tp lines) : SortsLines btp tp info := by
        refine ⟨strict, fun stdSort keeps => ?_, fun stdSort keeps => ?_⟩
        · rw [doSort_of_ne stdSort info asked]
          exact keeps.perm _ _ strict
        · rw [doSort_of_ne stdSort info asked]
          exact order _ (keeps.sorted _ _ strict) (keeps.perm _ _ strict)
      rintro (rfl | rfl)
      · exact ofWeak (weak.mono (Set.subset_univ _)) fun _ sorted _ => sorted
      · refine ofWeak ⟨?_, ?_, ?_⟩ fun lines _ perm => ?_
        · exact fun a member => absurd member List.not_mem_nil
        · exact fun a member => absurd member List.not_mem_nil
        · exact fun a member => absurd member List.not_mem_nil
        · rw [perm.eq_nil]
          exact List.Pairwise.nil

private def counted (count : Int32) (tag : Bytes) : EventInfo :=
  { EventInfo.zero with count := count, tag := tag }

/-- Three groups, two of them with the same count. -/
theorem sorts_lines_tie :
    let info := [counted 7 (bytes "b"), counted 3 (bytes "c"), counted 7 (bytes "a")]
    SortsLines .count .asc info ∧
      InOrder .count .asc (doSort (fun cmp l => l.insertionSort fun a b => cmp b a = false) info
        .count .asc) := by
  intro info
  have both := (@sorts_lines_iff .count (by decide) .asc info).2.mpr (.inl rfl)
  exact ⟨both, both.sorted _ sortsWeak_insertionSort⟩

/-- Descending by count, a group comes before itself. -/
theorem descending_not_weak :
    ¬ ∀ (btp : OrderByType) (tp : OrderType), btp ≠ .none →
      StrictWeakOn (comparison btp tp) Set.univ ∧ ∀ info, SortsLines btp tp info := by
  intro always
  have irreflexive := (always .count .desc (by decide)).1.irrefl .zero trivial
  exact absurd irreflexive (by decide)

end Heracles.Business.Sort
