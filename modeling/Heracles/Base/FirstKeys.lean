import Heracles.Base.Order

/-!
De-duplication by key.

`takeListed` walks a list with a set of keys still wanted: an element whose key
is wanted is kept and its key struck off. Started with all keys of the list it
keeps the first element of every key in list order (`firsts`). The laws say what
appending does: elements with known keys change nothing (`firsts_append_known`),
and two lists with the same first elements stay that way under any common
continuation (`firsts_append_congr`). `lasts` keeps the last element of every
key: what is left after later elements have overwritten earlier ones.
-/

namespace Heracles.Base

variable {α κ : Type} [DecidableEq κ]

/-- The set of keys that occur in a list. -/
def keySet (key : α → κ) (l : List α) : Finset κ := (l.map key).toFinset

@[simp] theorem mem_keySet {key : α → κ} {l : List α} {k : κ} :
    k ∈ keySet key l ↔ ∃ a ∈ l, key a = k := by
  simp [keySet]

@[simp] theorem keySet_append (key : α → κ) (l x : List α) :
    keySet key (l ++ x) = keySet key l ∪ keySet key x := by
  simp [keySet]

/-- Keeps the elements whose key is still wanted, striking each key off once. -/
def takeListed (key : α → κ) (wanted : Finset κ) : List α → List α
  | [] => []
  | a :: l =>
      if key a ∈ wanted then a :: takeListed key (wanted.erase (key a)) l
      else takeListed key wanted l

/-- The first element of every key, in list order. -/
def firsts (key : α → κ) (l : List α) : List α := takeListed key (keySet key l) l

variable {key : α → κ}

theorem takeListed_append (wanted : Finset κ) (l x : List α) :
    takeListed key wanted (l ++ x) =
      takeListed key wanted l ++ takeListed key (wanted \ keySet key l) x := by
  induction l generalizing wanted with
  | nil => simp [takeListed, keySet]
  | cons a l ih =>
      by_cases member : key a ∈ wanted
      · have rest : wanted.erase (key a) \ keySet key l = wanted \ keySet key (a :: l) := by
          ext k
          simp only [Finset.mem_sdiff, Finset.mem_erase, mem_keySet, List.mem_cons,
            exists_eq_or_imp]
          grind
        simp [takeListed, member, ih, rest]
      · have rest : wanted \ keySet key l = wanted \ keySet key (a :: l) := by
          ext k
          simp only [Finset.mem_sdiff, mem_keySet, List.mem_cons, exists_eq_or_imp]
          grind
        simp [takeListed, member, ih, rest]

/-- Only the wanted keys that occur in the list matter. -/
theorem takeListed_congr {wanted wanted' : Finset κ} {l : List α}
    (agree : ∀ a ∈ l, key a ∈ wanted ↔ key a ∈ wanted') :
    takeListed key wanted l = takeListed key wanted' l := by
  induction l generalizing wanted wanted' with
  | nil => rfl
  | cons a l ih =>
      have head := agree a List.mem_cons_self
      have tail := fun b member => agree b (List.mem_cons_of_mem a member)
      by_cases member : key a ∈ wanted
      · have erased : takeListed key (wanted.erase (key a)) l =
            takeListed key (wanted'.erase (key a)) l := by
          refine ih fun b inList => ?_
          rw [Finset.mem_erase, Finset.mem_erase, tail b inList]
        simp [takeListed, member, head.mp member, erased]
      · simp [takeListed, member, mt head.mpr member, ih tail]

theorem takeListed_of_disjoint {wanted : Finset κ} {l : List α}
    (apart : ∀ a ∈ l, key a ∉ wanted) : takeListed key wanted l = [] := by
  induction l with
  | nil => rfl
  | cons a l ih =>
      simp [takeListed, apart a List.mem_cons_self,
        ih fun b member => apart b (List.mem_cons_of_mem a member)]

theorem takeListed_sublist (wanted : Finset κ) (l : List α) :
    (takeListed key wanted l).Sublist l := by
  induction l generalizing wanted with
  | nil => exact .slnil
  | cons a l ih =>
      simp only [takeListed]
      split
      · exact (ih _).cons_cons a
      · exact (ih _).cons a

/-- Every wanted key of the list is kept, and only those. -/
theorem keySet_takeListed (wanted : Finset κ) (l : List α) :
    keySet key (takeListed key wanted l) = keySet key l ∩ wanted := by
  induction l generalizing wanted with
  | nil => simp [takeListed, keySet]
  | cons a l ih =>
      ext k
      by_cases member : key a ∈ wanted
      · simp only [takeListed, member, ↓reduceIte, mem_keySet, List.mem_cons, exists_eq_or_imp,
          Finset.mem_inter]
        have := congrArg (k ∈ ·) (ih (wanted.erase (key a)))
        simp only [mem_keySet, Finset.mem_inter, Finset.mem_erase] at this
        grind
      · simp only [takeListed, member, ↓reduceIte, mem_keySet, List.mem_cons, exists_eq_or_imp,
          Finset.mem_inter]
        have := congrArg (k ∈ ·) (ih wanted)
        simp only [mem_keySet, Finset.mem_inter] at this
        grind

@[simp] theorem keySet_firsts (l : List α) : keySet key (firsts key l) = keySet key l := by
  simp [firsts, keySet_takeListed]

theorem nodup_map_takeListed (wanted : Finset κ) (l : List α) :
    ((takeListed key wanted l).map key).Nodup := by
  induction l generalizing wanted with
  | nil => exact List.nodup_nil
  | cons a l ih =>
      by_cases member : key a ∈ wanted
      · have struck : key a ∉ (takeListed key (wanted.erase (key a)) l).map key := by
          intro again
          obtain ⟨b, inside, same⟩ := List.mem_map.mp again
          have kept : key b ∈ keySet key (takeListed key (wanted.erase (key a)) l) :=
            mem_keySet.mpr ⟨b, inside, rfl⟩
          rw [keySet_takeListed, same] at kept
          exact Finset.notMem_erase _ _ (Finset.mem_inter.mp kept).2
        simp only [takeListed, member, if_true, List.map_cons]
        exact List.nodup_cons.mpr ⟨struck, ih _⟩
      · simp only [takeListed, member, if_false]
        exact ih wanted

/-- There are as many first elements as keys. -/
theorem length_firsts (l : List α) : (firsts key l).length = (keySet key l).card := by
  rw [← keySet_firsts l, keySet, List.toFinset_card_of_nodup, List.length_map]
  exact nodup_map_takeListed _ l

/-- Appending to a list keeps its first elements and adds the new keys. -/
theorem firsts_append (l x : List α) :
    firsts key (l ++ x) = firsts key l ++ takeListed key (keySet key x \ keySet key l) x := by
  rw [firsts, takeListed_append, firsts]
  congr 1
  · exact takeListed_congr fun a member => by
      simp only [keySet_append, Finset.mem_union, mem_keySet]
      exact ⟨fun _ => ⟨a, member, rfl⟩, .inl⟩
  · exact takeListed_congr fun a member => by
      simp only [keySet_append, Finset.mem_sdiff, Finset.mem_union]
      tauto

/-- Elements whose keys the list already has change nothing. -/
theorem firsts_append_known {l x : List α} (known : ∀ a ∈ x, key a ∈ keySet key l) :
    firsts key (l ++ x) = firsts key l := by
  rw [firsts_append, takeListed_of_disjoint, List.append_nil]
  intro a member
  simp only [Finset.mem_sdiff, not_and, not_not]
  exact fun _ => known a member

/-- Lists with the same first elements keep them under a common continuation. -/
theorem firsts_append_congr {l m : List α} (same : firsts key l = firsts key m) (x : List α) :
    firsts key (l ++ x) = firsts key (m ++ x) := by
  have keys : keySet key l = keySet key m := by
    calc keySet key l = keySet key (firsts key l) := (keySet_firsts l).symm
      _ = keySet key (firsts key m) := by rw [same]
      _ = keySet key m := keySet_firsts m
  rw [firsts_append, firsts_append, same, keys]

/-- A list with as many keys as elements has nothing to drop. -/
theorem firsts_of_card {l : List α} (distinct : (keySet key l).card = l.length) :
    firsts key l = l := by
  have nodup : (l.map key).Nodup := by
    have lengths : (l.map key).dedup.length = (l.map key).length := by
      rw [← List.card_toFinset, List.length_map]
      exact distinct
    exact List.dedup_eq_self.mp ((List.dedup_sublist _).eq_of_length lengths)
  clear distinct
  suffices all : ∀ wanted : Finset κ, keySet key l ⊆ wanted → takeListed key wanted l = l from
    all _ (Finset.Subset.refl _)
  induction l with
  | nil => intro wanted _; rfl
  | cons a l ih =>
      intro wanted subset
      obtain ⟨fresh, nodupRest⟩ := List.nodup_cons.mp nodup
      have member : key a ∈ wanted := subset (mem_keySet.mpr ⟨a, List.mem_cons_self, rfl⟩)
      have rest : keySet key l ⊆ wanted.erase (key a) := by
        intro k inRest
        obtain ⟨b, inList, rfl⟩ := mem_keySet.mp inRest
        refine Finset.mem_erase.mpr ⟨fun same => fresh ?_, ?_⟩
        · exact same ▸ List.mem_map_of_mem inList
        · exact subset (mem_keySet.mpr ⟨b, List.mem_cons_of_mem a inList, rfl⟩)
      simp [takeListed, member, ih nodupRest _ rest]

/-- Dropping repeated keys twice drops no more than doing it once. -/
@[simp] theorem firsts_firsts (l : List α) : firsts key (firsts key l) = firsts key l :=
  firsts_of_card (by rw [keySet_firsts, length_firsts])

/-- A list without repeated keys is kept. -/
theorem firsts_of_nodup {l : List α} (distinct : (l.map key).Nodup) : firsts key l = l :=
  firsts_of_card (by rw [keySet, List.toFinset_card_of_nodup distinct, List.length_map])

/-! ### Last occurrences -/

/-- The elements that no later element shares its key with. -/
def lasts (key : α → κ) : List α → List α
  | [] => []
  | a :: l => if ∃ b ∈ l, key b = key a then lasts key l else a :: lasts key l

theorem lasts_sublist (l : List α) : (lasts key l).Sublist l := by
  induction l with
  | nil => exact .slnil
  | cons a l ih =>
      simp only [lasts]
      split
      · exact ih.cons a
      · exact ih.cons_cons a

/-- No two of them share a key. -/
theorem nodup_map_lasts (l : List α) : ((lasts key l).map key).Nodup := by
  induction l with
  | nil => exact .nil
  | cons a l ih =>
      simp only [lasts]
      split
      · exact ih
      · rename_i fresh
        refine List.nodup_cons.mpr ⟨fun member => fresh ?_, ih⟩
        obtain ⟨b, inLasts, same⟩ := List.mem_map.mp member
        exact ⟨b, (lasts_sublist l).subset inLasts, same⟩

theorem mem_lasts_iff {l : List α} {a : α} :
    a ∈ lasts key l ↔ ∃ before after, l = before ++ a :: after ∧ ∀ b ∈ after, key b ≠ key a := by
  induction l with
  | nil => simp [lasts]
  | cons c l ih =>
      have later : (∃ before after, l = before ++ a :: after ∧ ∀ b ∈ after, key b ≠ key a) →
          ∃ before after, c :: l = before ++ a :: after ∧ ∀ b ∈ after, key b ≠ key a := by
        rintro ⟨before, after, rfl, last⟩
        exact ⟨c :: before, after, rfl, last⟩
      simp only [lasts]
      split
      · rename_i repeated
        rw [ih]
        refine ⟨later, ?_⟩
        rintro ⟨before, after, shape, last⟩
        cases before with
        | nil =>
            obtain ⟨rfl, rfl⟩ := List.cons.inj shape
            obtain ⟨b, member, same⟩ := repeated
            exact absurd same (last b member)
        | cons d before => exact ⟨before, after, (List.cons.inj shape).2, last⟩
      · rename_i fresh
        rw [List.mem_cons, ih]
        constructor
        · rintro (rfl | found)
          · exact ⟨[], l, rfl, fun b member same => fresh ⟨b, member, same⟩⟩
          · exact later found
        · rintro ⟨before, after, shape, last⟩
          cases before with
          | nil => exact .inl (List.cons.inj shape).1.symm
          | cons d before => exact .inr ⟨before, after, (List.cons.inj shape).2, last⟩

/-- Only which keys are equal matters. -/
theorem lasts_congr {κ' : Type} [DecidableEq κ'] {key' : α → κ'} {l : List α}
    (agree : ∀ a ∈ l, ∀ b ∈ l, key b = key a ↔ key' b = key' a) : lasts key l = lasts key' l := by
  induction l with
  | nil => rfl
  | cons a l ih =>
      have head : (∃ b ∈ l, key b = key a) ↔ ∃ b ∈ l, key' b = key' a :=
        exists_congr fun b => and_congr_right fun member =>
          agree a List.mem_cons_self b (List.mem_cons_of_mem a member)
      have tail := ih fun b memberB c memberC =>
        agree b (List.mem_cons_of_mem a memberB) c (List.mem_cons_of_mem a memberC)
      simp only [lasts, head, tail]

/-- What depends on the key alone selects the last elements of what it selects. -/
theorem filter_lasts {kind : κ → Bool} (l : List α) :
    (lasts key l).filter (fun a => kind (key a)) = lasts key (l.filter fun a => kind (key a)) := by
  induction l with
  | nil => rfl
  | cons a l ih =>
      simp only [lasts, List.filter_cons]
      by_cases ofKind : kind (key a) = true
      · have kept : (∃ b ∈ l.filter fun c => kind (key c), key b = key a) ↔
            ∃ b ∈ l, key b = key a := by
          constructor
          · rintro ⟨b, member, same⟩
            exact ⟨b, List.mem_of_mem_filter member, same⟩
          · rintro ⟨b, member, same⟩
            exact ⟨b, List.mem_filter.mpr ⟨member, by rw [same, ofKind]⟩, same⟩
        rw [if_pos ofKind]
        simp only [lasts, kept]
        split
        · exact ih
        · rw [List.filter_cons, if_pos ofKind, ih]
      · rw [if_neg ofKind]
        split
        · exact ih
        · rw [List.filter_cons, if_neg ofKind, ih]

theorem lasts_map {β : Type} (f : β → α) (l : List β) :
    lasts key (l.map f) = (lasts (fun b => key (f b)) l).map f := by
  induction l with
  | nil => rfl
  | cons b l ih =>
      have head : (∃ a ∈ l.map f, key a = key (f b)) ↔ ∃ c ∈ l, key (f c) = key (f b) := by simp
      simp only [List.map_cons, lasts, head, ih]
      split
      · rfl
      · rfl

/-- Nothing is dropped when all keys differ. -/
theorem lasts_of_nodup {l : List α} (distinct : (l.map key).Nodup) : lasts key l = l := by
  induction l with
  | nil => rfl
  | cons a l ih =>
      obtain ⟨fresh, rest⟩ := List.nodup_cons.mp distinct
      have single : ¬ ∃ b ∈ l, key b = key a :=
        fun ⟨b, member, same⟩ => fresh (same ▸ List.mem_map_of_mem member)
      simp only [lasts, if_neg single, ih rest]

/-- A rearrangement of a mapped list is the mapping of a rearrangement. -/
theorem exists_perm_map_eq {β : Type} {f : α → β} {l : List α} {m : List β}
    (perm : m.Perm (l.map f)) : ∃ l' : List α, l'.Perm l ∧ l'.map f = m := by
  induction m generalizing l with
  | nil => exact ⟨l, List.Perm.refl l, (List.nil_perm.mp perm)⟩
  | cons b m ih =>
      obtain ⟨a, member, rfl⟩ := List.mem_map.mp (perm.subset List.mem_cons_self)
      obtain ⟨before, after, rfl⟩ := List.append_of_mem member
      have rest : m.Perm ((before ++ after).map f) := by
        refine List.Perm.cons_inv (a := f a) (perm.trans ?_)
        simp only [List.map_append, List.map_cons]
        exact List.perm_middle
      obtain ⟨l', permL, same⟩ := ih rest
      exact ⟨a :: l', (permL.cons a).trans List.perm_middle.symm, by rw [List.map_cons, same]⟩

end Heracles.Base
