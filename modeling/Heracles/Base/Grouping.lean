import Heracles.Base.OrdMap

/-!
Grouping by key.

`accumulate` walks a list and folds every element into the entry of its key, as
a loop over an ordered map does. The entry of a key is the fold over the elements
with that key, in list order (`find?_accumulate`), and the groups together are the
list (`perm_groups`), so a sum over the list is the sum of the sums of the groups
(`sum_groups`).
-/

namespace Heracles.Base

variable {α κ υ : Type} [LinearOrder κ]

/-- The elements with a key. -/
def group (key : α → κ) (l : List α) (k : κ) : List α := l.filter fun a => key a = k

/-- Folds every element into the entry of its key, which starts as `init`. -/
def OrdMap.accumulate (key : α → κ) (init : υ) (add : υ → α → υ) (l : List α) : OrdMap κ υ :=
  l.foldl (fun m a => m.insert (key a) (add ((m.find? (key a)).getD init) a)) .empty

section Accumulate

variable {key : α → κ} {init : υ} {add : υ → α → υ}

@[simp] theorem group_append (l x : List α) (k : κ) :
    group key (l ++ x) k = group key l k ++ group key x k :=
  List.filter_append _ _

theorem mem_group {l : List α} {k : κ} {a : α} : a ∈ group key l k ↔ a ∈ l ∧ key a = k := by
  simp [group]

theorem group_eq_nil_iff {l : List α} {k : κ} : group key l k = [] ↔ ∀ a ∈ l, key a ≠ k := by
  simp [group, List.filter_eq_nil_iff]

theorem group_map {β : Type} (f : β → α) (l : List β) (k : κ) :
    group key (l.map f) k = (group (fun b => key (f b)) l k).map f := by
  rw [group, List.filter_map]
  rfl

theorem OrdMap.accumulate_append_one (l : List α) (a : α) :
    accumulate key init add (l ++ [a]) =
      (accumulate key init add l).insert (key a)
        (add (((accumulate key init add l).find? (key a)).getD init) a) := by
  simp [accumulate]

/-- The entry of a key is the fold over its group. -/
theorem OrdMap.find?_accumulate (l : List α) (k : κ) :
    (accumulate key init add l).find? k =
      if group key l k = [] then none else some ((group key l k).foldl add init) := by
  induction l using List.reverseRecOn with
  | nil => rfl
  | append_singleton l a ih =>
      rw [accumulate_append_one, find?_insert, group_append]
      by_cases same : k = key a
      · have last : group key [a] k = [a] := by simp [group, same]
        rw [if_pos same, ← same, ih, last]
        by_cases first : group key l k = []
        · simp [first]
        · simp [first]
      · have last : group key [a] k = [] := by simp [group, Ne.symm same]
        rw [if_neg same, ih, last, List.append_nil]

theorem OrdMap.mem_keys_accumulate {l : List α} {k : κ} :
    k ∈ (accumulate key init add l).keys ↔ ∃ a ∈ l, key a = k := by
  rw [mem_keys_iff, find?_accumulate]
  by_cases none : group key l k = []
  · have := group_eq_nil_iff.mp none
    simp only [none, if_true, reduceCtorEq, exists_false, false_iff, not_exists, not_and]
    exact this
  · simp only [none, if_false, Option.some.injEq, exists_eq', true_iff]
    obtain ⟨a, member⟩ := List.exists_mem_of_ne_nil _ none
    exact ⟨a, mem_group.mp member⟩

/-- The entries: the keys that occur, each with the fold over its group. -/
theorem OrdMap.mem_accumulate {l : List α} {e : κ × υ} :
    e ∈ (accumulate key init add l).entries ↔
      group key l e.1 ≠ [] ∧ e.2 = (group key l e.1).foldl add init := by
  obtain ⟨k, v⟩ := e
  rw [mem_entries_iff, find?_accumulate]
  by_cases none : group key l k = []
  · simp [none]
  · simp [none, eq_comm]

/-- The values are the folds over the groups, in key order. -/
theorem OrdMap.entries_accumulate (l : List α) :
    (accumulate key init add l).entries =
      (accumulate key init add l).keys.map fun k => (k, (group key l k).foldl add init) := by
  rw [keys, List.map_map]
  refine (List.map_id _).symm.trans (List.map_congr_left fun e member => ?_)
  have fold := (mem_accumulate.mp member).2
  exact Prod.ext rfl fold

end Accumulate

/-! ### The groups together -/

section Together

variable {key : α → κ}

/-- The groups of different keys that cover a list are a rearrangement of it. -/
theorem perm_groups {ks : List κ} (distinct : ks.Nodup) {l : List α}
    (covered : ∀ a ∈ l, key a ∈ ks) : (ks.flatMap (group key l)).Perm l := by
  induction ks generalizing l with
  | nil =>
      cases l with
      | nil => exact List.Perm.refl _
      | cons a l => exact absurd (covered a List.mem_cons_self) List.not_mem_nil
  | cons k ks ih =>
      obtain ⟨fresh, distinct⟩ := List.nodup_cons.mp distinct
      let others := l.filter fun a => !decide (key a = k)
      have kept : ∀ k' ∈ ks, group key l k' = group key others k' := by
        intro k' member
        have apart : k' ≠ k := fun same => fresh (same ▸ member)
        rw [group, group, List.filter_filter]
        refine List.filter_congr fun a _ => ?_
        by_cases same : key a = k'
        · simp [same, apart]
        · simp [same]
      have rest : (ks.flatMap (group key others)).Perm others := by
        refine ih distinct fun a member => ?_
        obtain ⟨inside, other⟩ := List.mem_filter.mp member
        rcases List.mem_cons.mp (covered a inside) with same | listed
        · simp [same] at other
        · exact listed
      have tail : ks.flatMap (group key l) = ks.flatMap (group key others) :=
        List.flatMap_congr kept
      rw [List.flatMap_cons, tail]
      exact (rest.append_left _).trans (List.filter_append_perm (fun a => decide (key a = k)) l)

/-- A list that is put together from groups has them as its groups. -/
theorem group_flatMap {ks : List κ} (distinct : ks.Nodup) {f : κ → List α}
    (keyed : ∀ k ∈ ks, ∀ a ∈ f k, key a = k) (k : κ) :
    group key (ks.flatMap f) k = if k ∈ ks then f k else [] := by
  induction ks with
  | nil => rfl
  | cons j ks ih =>
      obtain ⟨fresh, distinct⟩ := List.nodup_cons.mp distinct
      have head := keyed j List.mem_cons_self
      have rest := ih distinct fun k member => keyed k (List.mem_cons_of_mem j member)
      rw [List.flatMap_cons, group_append, rest]
      by_cases same : k = j
      · subst same
        have all : group key (f k) k = f k :=
          List.filter_eq_self.mpr fun a member => decide_eq_true (head a member)
        rw [all, if_neg fresh, if_pos List.mem_cons_self, List.append_nil]
      · have none : group key (f j) k = [] :=
          group_eq_nil_iff.mpr fun a member other => same (other.symm.trans (head a member))
        rw [none, List.nil_append]
        by_cases listed : k ∈ ks
        · rw [if_pos listed, if_pos (List.mem_cons_of_mem j listed)]
        · rw [if_neg listed, if_neg fun member => (List.mem_cons.mp member).elim same listed]

/-- A sum over a list is the sum over its groups. -/
theorem sum_groups {M : Type} [AddCommMonoid M] (f : α → M) {ks : List κ} (distinct : ks.Nodup)
    {l : List α} (covered : ∀ a ∈ l, key a ∈ ks) :
    (ks.map fun k => ((group key l k).map f).sum).sum = (l.map f).sum := by
  have whole := ((perm_groups distinct covered).map f).sum_eq
  rw [← whole, List.map_flatMap, List.flatMap_def, List.sum_flatten, List.map_map]
  rfl

/-- The groups of the keys of a map count every element once. -/
theorem OrdMap.sum_accumulate {υ M : Type} [AddCommMonoid M] (key : α → κ) (f : α → M)
    (init : υ) (add : υ → α → υ) (l : List α) :
    ((accumulate key init add l).keys.map fun k => ((group key l k).map f).sum).sum =
      (l.map f).sum :=
  sum_groups f (keys_nodup _) fun a member => mem_keys_accumulate.mpr ⟨a, member, rfl⟩

/-- Rearranging a list keeps its keys. -/
theorem OrdMap.keys_accumulate_perm {υ : Type} {init : υ} {add : υ → α → υ} {l m : List α}
    (perm : l.Perm m) :
    (accumulate key init add l).keys = (accumulate key init add m).keys := by
  refine keys_eq_iff.mpr fun k => ?_
  simp only [mem_keys_accumulate, perm.mem_iff]

end Together

end Heracles.Base
