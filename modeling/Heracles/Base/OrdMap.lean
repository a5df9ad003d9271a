import Heracles.Base.FirstKeys

/-!
Ordered maps: association lists in strictly ascending key order.

A map carries the proof that its entries are sorted, so a repeated key or a
disorder cannot be built. `insert` overwrites, `seek` lists the entries from the
first key that is not below the target, and `popWhile` cuts off the longest
initial run of entries whose keys satisfy a test. `mem_entries_iff` identifies
membership with lookup, and `popWhile_fst`/`popWhile_snd` say that a test which
every smaller key inherits splits the map exactly.
-/

namespace Heracles.Base

/-- A finite map whose entries are listed in strictly ascending key order. -/
structure OrdMap (κ υ : Type) [LinearOrder κ] where
  entries : List (κ × υ)
  sorted : entries.Pairwise fun a b => a.1 < b.1

namespace OrdMap

variable {κ υ : Type} [LinearOrder κ]

@[ext] theorem ext {m n : OrdMap κ υ} (same : m.entries = n.entries) : m = n := by
  cases m
  cases n
  cases same
  rfl

instance [DecidableEq υ] : DecidableEq (OrdMap κ υ) := fun m n =>
  decidable_of_iff (m.entries = n.entries) ⟨ext, fun h => h ▸ rfl⟩

/-- The map with no entries. -/
def empty : OrdMap κ υ := ⟨[], .nil⟩

instance : Inhabited (OrdMap κ υ) := ⟨empty⟩

/-- The keys in ascending order. -/
def keys (m : OrdMap κ υ) : List κ := m.entries.map Prod.fst

/-- The values in the order of their keys. -/
def values (m : OrdMap κ υ) : List υ := m.entries.map Prod.snd

/-- The value stored under `k`. -/
def find? (m : OrdMap κ υ) (k : κ) : Option υ :=
  (m.entries.find? fun e => decide (e.1 = k)).map Prod.snd

/-- Sorted insertion, replacing an entry with the same key. -/
def insertEntry (k : κ) (v : υ) : List (κ × υ) → List (κ × υ)
  | [] => [(k, v)]
  | e :: rest =>
      if k < e.1 then (k, v) :: e :: rest
      else if e.1 < k then e :: insertEntry k v rest
      else (k, v) :: rest

theorem mem_insertEntry {k : κ} {v : υ} {l : List (κ × υ)}
    (sorted : l.Pairwise fun a b => a.1 < b.1) {e : κ × υ} :
    e ∈ insertEntry k v l ↔ e = (k, v) ∨ (e.1 ≠ k ∧ e ∈ l) := by
  induction l with
  | nil => simp [insertEntry]
  | cons first rest ih =>
      obtain ⟨below, sortedRest⟩ := List.pairwise_cons.mp sorted
      simp only [insertEntry]
      split
      · rename_i before
        have apart : ∀ x ∈ first :: rest, x.1 ≠ k := by
          intro x member
          rcases List.mem_cons.mp member with rfl | member
          · exact ne_of_gt before
          · exact ne_of_gt (before.trans (below x member))
        constructor
        · intro member
          rcases List.mem_cons.mp member with same | member
          · exact .inl same
          · exact .inr ⟨apart e member, member⟩
        · rintro (same | ⟨_, member⟩)
          · exact List.mem_cons.mpr (.inl same)
          · exact List.mem_cons_of_mem _ member
      · split
        · rename_i after
          have firstApart : first.1 ≠ k := ne_of_lt after
          simp only [List.mem_cons, ih sortedRest]
          constructor
          · rintro (same | same | ⟨apart, member⟩)
            · exact .inr ⟨same ▸ firstApart, .inl same⟩
            · exact .inl same
            · exact .inr ⟨apart, .inr member⟩
          · rintro (same | ⟨apart, same | member⟩)
            · exact .inr (.inl same)
            · exact .inl same
            · exact .inr (.inr ⟨apart, member⟩)
        · rename_i notBefore notAfter
          have same : first.1 = k := le_antisymm (not_lt.mp notBefore) (not_lt.mp notAfter)
          simp only [List.mem_cons]
          constructor
          · rintro (here | member)
            · exact .inl here
            · exact .inr ⟨ne_of_gt (same ▸ below e member), .inr member⟩
          · rintro (here | ⟨apart, rfl | member⟩)
            · exact .inl here
            · exact absurd same apart
            · exact .inr member

theorem sorted_insertEntry {k : κ} {v : υ} {l : List (κ × υ)}
    (sorted : l.Pairwise fun a b => a.1 < b.1) :
    (insertEntry k v l).Pairwise fun a b => a.1 < b.1 := by
  induction l with
  | nil => simp [insertEntry]
  | cons first rest ih =>
      obtain ⟨below, sortedRest⟩ := List.pairwise_cons.mp sorted
      simp only [insertEntry]
      split
      · rename_i before
        refine List.pairwise_cons.mpr ⟨?_, sorted⟩
        intro x member
        rcases List.mem_cons.mp member with rfl | member
        · exact before
        · exact before.trans (below x member)
      · split
        · rename_i after
          refine List.pairwise_cons.mpr ⟨?_, ih sortedRest⟩
          intro x member
          rcases (mem_insertEntry sortedRest).mp member with rfl | ⟨_, member⟩
          · exact after
          · exact below x member
        · rename_i notBefore notAfter
          have same : first.1 = k := le_antisymm (not_lt.mp notBefore) (not_lt.mp notAfter)
          exact List.pairwise_cons.mpr ⟨fun x member => same ▸ below x member, sortedRest⟩

/-- The map with `k` bound to `v`, whatever was stored under `k` before. -/
def insert (m : OrdMap κ υ) (k : κ) (v : υ) : OrdMap κ υ :=
  ⟨insertEntry k v m.entries, sorted_insertEntry m.sorted⟩

/-- The entries from the first key that is not below `target`. -/
def seek (m : OrdMap κ υ) (target : κ) : List (κ × υ) :=
  m.entries.dropWhile fun e => decide (e.1 < target)

/-- Cuts off the longest initial run of entries whose keys pass the test. -/
def popWhile (m : OrdMap κ υ) (test : κ → Bool) : List υ × OrdMap κ υ :=
  ((m.entries.takeWhile fun e => test e.1).map Prod.snd,
    ⟨m.entries.dropWhile fun e => test e.1, m.sorted.sublist (List.dropWhile_sublist _)⟩)

/-! ### Lookup -/

theorem keys_nodup (m : OrdMap κ υ) : m.keys.Nodup := by
  refine List.pairwise_map.mpr ?_
  exact m.sorted.imp fun less => ne_of_lt less

theorem eq_of_mem {m : OrdMap κ υ} {k : κ} {v w : υ} (first : (k, v) ∈ m.entries)
    (second : (k, w) ∈ m.entries) : v = w := by
  have := List.inj_on_of_nodup_map m.keys_nodup first second rfl
  exact congrArg Prod.snd this

/-- An entry is listed exactly when lookup finds it. -/
theorem mem_entries_iff {m : OrdMap κ υ} {k : κ} {v : υ} :
    (k, v) ∈ m.entries ↔ m.find? k = some v := by
  unfold find?
  constructor
  · intro member
    cases found : m.entries.find? fun e => decide (e.1 = k) with
    | none =>
        have apart := List.find?_eq_none.mp found (k, v) member
        simp at apart
    | some e =>
        obtain ⟨key, value⟩ := e
        have here : key = k := by simpa using List.find?_some found
        subst here
        simp [eq_of_mem (List.mem_of_find?_eq_some found) member]
  · intro found
    obtain ⟨⟨key, value⟩, hit, rfl⟩ := Option.map_eq_some_iff.mp found
    have here : key = k := by simpa using List.find?_some hit
    exact here ▸ List.mem_of_find?_eq_some hit

theorem mem_keys_iff {m : OrdMap κ υ} {k : κ} : k ∈ m.keys ↔ ∃ v, m.find? k = some v := by
  simp only [keys, List.mem_map, Prod.exists, exists_and_right, exists_eq_right, mem_entries_iff]

theorem find?_eq_none_iff {m : OrdMap κ υ} {k : κ} : m.find? k = none ↔ k ∉ m.keys := by
  rw [mem_keys_iff, not_exists]
  cases m.find? k <;> simp

@[simp] theorem find?_empty (k : κ) : (empty : OrdMap κ υ).find? k = none := rfl

@[simp] theorem find?_insert_self (m : OrdMap κ υ) (k : κ) (v : υ) :
    (m.insert k v).find? k = some v :=
  mem_entries_iff.mp ((mem_insertEntry m.sorted).mpr (.inl rfl))

theorem find?_insert_of_ne (m : OrdMap κ υ) {k key : κ} (v : υ) (apart : key ≠ k) :
    (m.insert k v).find? key = m.find? key := by
  have same : ∀ w, (m.insert k v).find? key = some w ↔ m.find? key = some w := by
    intro w
    rw [← mem_entries_iff, ← mem_entries_iff]
    simp only [insert, mem_insertEntry m.sorted, Prod.mk.injEq, apart, false_and, false_or,
      ne_eq, not_false_eq_true, true_and]
  exact Option.ext same

theorem find?_insert (m : OrdMap κ υ) (k key : κ) (v : υ) :
    (m.insert k v).find? key = if key = k then some v else m.find? key := by
  split
  · rename_i same
    rw [same, find?_insert_self]
  · rename_i apart
    exact find?_insert_of_ne m v apart

theorem mem_keys_insert {m : OrdMap κ υ} {k key : κ} {v : υ} :
    key ∈ (m.insert k v).keys ↔ key = k ∨ key ∈ m.keys := by
  simp only [mem_keys_iff, find?_insert]
  by_cases same : key = k <;> simp [same]

/-- Two maps with the same lookups are the same map. -/
theorem ext_find? {m n : OrdMap κ υ} (same : ∀ k, m.find? k = n.find? k) : m = n := by
  refine ext (List.Pairwise.eq_of_mem_iff (r := fun a b : κ × υ => a.1 < b.1) m.sorted n.sorted ?_)
  rintro ⟨k, v⟩
  rw [mem_entries_iff, mem_entries_iff, same]

/-- Keys come in their order, so maps with the same keys list them alike. -/
theorem keys_eq_iff {ω : Type} {m : OrdMap κ υ} {n : OrdMap κ ω} :
    m.keys = n.keys ↔ ∀ k, k ∈ m.keys ↔ k ∈ n.keys := by
  constructor
  · intro same k
    rw [same]
  · exact List.Pairwise.eq_of_mem_iff (r := fun a b : κ => a < b)
      (List.pairwise_map.mpr m.sorted) (List.pairwise_map.mpr n.sorted)

/-- Storing what is already there changes nothing. -/
theorem insert_self {m : OrdMap κ υ} {k : κ} {v : υ} (present : m.find? k = some v) :
    m.insert k v = m := by
  refine ext_find? fun key => ?_
  rw [find?_insert]
  split
  · rename_i here
    rw [here, present]
  · rfl

/-- Of two values stored under one key the second counts. -/
theorem insert_insert (m : OrdMap κ υ) (k : κ) (v w : υ) :
    (m.insert k v).insert k w = m.insert k w := by
  refine ext_find? fun key => ?_
  simp only [find?_insert]
  split
  · rfl
  · rfl

/-! ### Insertion as a change of the entry list -/

theorem insertEntry_perm {k : κ} {v : υ} {l : List (κ × υ)}
    (sorted : l.Pairwise fun a b => a.1 < b.1) :
    (insertEntry k v l).Perm ((k, v) :: l.filter fun e => decide (e.1 ≠ k)) := by
  have nodup : ∀ {l : List (κ × υ)}, (l.Pairwise fun a b => a.1 < b.1) → l.Nodup :=
    fun sorted => sorted.imp fun less same => absurd less (by rw [same]; exact lt_irrefl _)
  have fresh : (k, v) ∉ l.filter fun e => decide (e.1 ≠ k) := by simp
  refine (List.perm_ext_iff_of_nodup (nodup (sorted_insertEntry sorted))
    (List.nodup_cons.mpr ⟨fresh, (nodup sorted).filter _⟩)).mpr fun e => ?_
  rw [mem_insertEntry sorted]
  simp only [List.mem_cons, List.mem_filter, decide_eq_true_eq, and_comm]

/-- A fresh key adds its value to the values of the map. -/
theorem values_insert_of_none {m : OrdMap κ υ} {k : κ} (v : υ) (absent : m.find? k = none) :
    (m.insert k v).values.Perm (v :: m.values) := by
  have all : (m.entries.filter fun e => decide (e.1 ≠ k)) = m.entries := by
    refine List.filter_eq_self.mpr fun e member => decide_eq_true fun same => ?_
    exact find?_eq_none_iff.mp absent (same ▸ List.mem_map_of_mem member)
  have := (insertEntry_perm (v := v) (k := k) m.sorted).map Prod.snd
  rw [all] at this
  exact this

/-- A known key replaces one value of the map and leaves the others. -/
theorem values_insert_of_some {m : OrdMap κ υ} {k : κ} {w : υ} (v : υ)
    (present : m.find? k = some w) :
    ∃ others, m.values.Perm (w :: others) ∧ (m.insert k v).values.Perm (v :: others) := by
  refine ⟨(m.entries.filter fun e : κ × υ => decide (e.1 ≠ k)).map Prod.snd, ?_,
    (insertEntry_perm (v := v) (k := k) m.sorted).map Prod.snd⟩
  have := (insertEntry_perm (v := w) (k := k) m.sorted).map Prod.snd
  change (m.insert k w).values.Perm _ at this
  rwa [insert_self present] at this

/-! ### Erasing -/

/-- The map without a key. -/
def erase (m : OrdMap κ υ) (k : κ) : OrdMap κ υ :=
  ⟨m.entries.filter fun e => decide (e.1 ≠ k), m.sorted.filter _⟩

theorem mem_erase {m : OrdMap κ υ} {k : κ} {e : κ × υ} :
    e ∈ (m.erase k).entries ↔ e ∈ m.entries ∧ e.1 ≠ k := by
  rw [erase, List.mem_filter, decide_eq_true_eq]

theorem find?_erase (m : OrdMap κ υ) (k key : κ) :
    (m.erase k).find? key = if key = k then none else m.find? key := by
  split
  · rename_i here
    rw [find?_eq_none_iff]
    rintro member
    obtain ⟨e, inside, same⟩ := List.mem_map.mp member
    exact (mem_erase.mp inside).2 (same.trans here)
  · rename_i apart
    refine Option.ext fun v => ?_
    rw [← mem_entries_iff, ← mem_entries_iff, mem_erase]
    exact and_iff_left apart

/-- An inserted entry stands beside those of the other keys. -/
theorem entries_insert_perm (m : OrdMap κ υ) (k : κ) (v : υ) :
    (m.insert k v).entries.Perm ((k, v) :: (m.erase k).entries) :=
  insertEntry_perm m.sorted

theorem entries_perm_erase {m : OrdMap κ υ} {k : κ} {v : υ} (present : m.find? k = some v) :
    m.entries.Perm ((k, v) :: (m.erase k).entries) := by
  have inserted := m.entries_insert_perm k v
  rwa [insert_self present] at inserted

theorem erase_of_none {m : OrdMap κ υ} {k : κ} (absent : m.find? k = none) : m.erase k = m := by
  refine ext_find? fun key => ?_
  rw [find?_erase]
  split
  · rename_i here
    rw [here, absent]
  · rfl

/-- The first key is the least. -/
theorem least_of_entries {m : OrdMap κ υ} {e : κ × υ} {rest : List (κ × υ)}
    (first : m.entries = e :: rest) {k : κ} {v : υ} (present : m.find? k = some v) : e.1 ≤ k := by
  have member := mem_entries_iff.mpr present
  have sorted := m.sorted
  rw [first] at member sorted
  rcases List.mem_cons.mp member with same | later
  · exact le_of_eq (congrArg Prod.fst same).symm
  · exact (List.rel_of_pairwise_cons sorted later).le

theorem of_find?_insert {m : OrdMap κ υ} {k key : κ} {v w : υ}
    (present : (m.insert k v).find? key = some w) :
    (key = k ∧ w = v) ∨ (key ≠ k ∧ m.find? key = some w) := by
  rw [find?_insert] at present
  split at present
  · rename_i here
    exact Or.inl ⟨here, (Option.some.inj present).symm⟩
  · rename_i apart
    exact Or.inr ⟨apart, present⟩

theorem of_find?_erase {m : OrdMap κ υ} {k key : κ} {v : υ}
    (present : (m.erase k).find? key = some v) : key ≠ k ∧ m.find? key = some v := by
  rw [find?_erase] at present
  split at present
  · cases present
  · rename_i apart
    exact ⟨apart, present⟩

theorem length_insert_of_none {m : OrdMap κ υ} {k : κ} (absent : m.find? k = none) (v : υ) :
    (m.insert k v).entries.length = m.entries.length + 1 := by
  rw [(m.entries_insert_perm k v).length_eq, erase_of_none absent, List.length_cons]

theorem length_erase {m : OrdMap κ υ} {k : κ} {v : υ} (present : m.find? k = some v) :
    (m.erase k).entries.length + 1 = m.entries.length := by
  rw [(entries_perm_erase present).length_eq, List.length_cons]

theorem length_insert_of_some {m : OrdMap κ υ} {k : κ} {w : υ} (present : m.find? k = some w)
    (v : υ) : (m.insert k v).entries.length = m.entries.length := by
  rw [(m.entries_insert_perm k v).length_eq, List.length_cons, length_erase present]

/-- With at least two entries there is a key other than a given one. -/
theorem exists_other_key {m : OrdMap κ υ} (many : 2 ≤ m.entries.length) (k : κ) :
    ∃ key v, key ≠ k ∧ m.find? key = some v := by
  match listed : m.entries with
  | [] => simp [listed] at many
  | [e] => simp [listed] at many
  | e :: e' :: rest =>
      have sorted := m.sorted
      rw [listed] at sorted
      have apart : e.1 < e'.1 := List.rel_of_pairwise_cons sorted List.mem_cons_self
      by_cases here : e.1 = k
      · refine ⟨e'.1, e'.2, (fun same => absurd apart ?_), ?_⟩
        · rw [here, same]
          exact lt_irrefl k
        · exact mem_entries_iff.mp (listed ▸ List.mem_cons_of_mem _ List.mem_cons_self)
      · exact ⟨e.1, e.2, here, mem_entries_iff.mp (listed ▸ List.mem_cons_self)⟩

/-! ### Inserting one element after another -/

/-- Inserts an entry for every element of a list, in order. -/
def insertAll {α : Type} (m : OrdMap κ υ) (key : α → κ) (val : α → υ) (l : List α) : OrdMap κ υ :=
  l.foldl (fun m a => m.insert (key a) (val a)) m

theorem find?_insertAll {α : Type} [DecidableEq κ] (m : OrdMap κ υ) (key : α → κ) (val : α → υ) (l : List α)
    (k : κ) (v : υ) : (m.insertAll key val l).find? k = some v ↔
      (∃ a ∈ lasts key l, key a = k ∧ val a = v) ∨
        ((∀ a ∈ l, key a ≠ k) ∧ m.find? k = some v) := by
  induction l generalizing m with
  | nil => simp [insertAll, lasts]
  | cons a l ih =>
      have step : m.insertAll key val (a :: l) = (m.insert (key a) (val a)).insertAll key val l := rfl
      rw [step, ih, find?_insert]
      by_cases repeated : ∃ b ∈ l, key b = key a
      · simp only [lasts, if_pos repeated]
        refine or_congr_right ?_
        obtain ⟨b, member, same⟩ := repeated
        constructor
        · rintro ⟨fresh, found⟩
          have apart : key a ≠ k := same ▸ fresh b member
          rw [if_neg (Ne.symm apart)] at found
          exact ⟨List.forall_mem_cons.mpr ⟨apart, fresh⟩, found⟩
        · rintro ⟨fresh, found⟩
          obtain ⟨apart, fresh⟩ := List.forall_mem_cons.mp fresh
          rw [if_neg (Ne.symm apart)]
          exact ⟨fresh, found⟩
      · simp only [lasts, if_neg repeated]
        by_cases here : k = key a
        · have fresh : ∀ c ∈ l, key c ≠ key a := fun c member same => repeated ⟨c, member, same⟩
          have none : ¬ ∃ c ∈ lasts key l, key c = key a ∧ val c = v := by
            rintro ⟨c, member, same, _⟩
            exact fresh c ((lasts_sublist l).subset member) same
          subst here
          simp [none]
          exact fun _ => fresh
        · simp [here, Ne.symm here]

theorem mem_keys_insertAll {α : Type} {m : OrdMap κ υ} {key : α → κ} {val : α → υ} {l : List α}
    {k : κ} : k ∈ (m.insertAll key val l).keys ↔ (∃ a ∈ l, key a = k) ∨ k ∈ m.keys := by
  induction l generalizing m with
  | nil => simp [insertAll]
  | cons a l ih =>
      have step : m.insertAll key val (a :: l) = (m.insert (key a) (val a)).insertAll key val l := rfl
      rw [step, ih, mem_keys_insert, or_left_comm, ← or_assoc, @eq_comm _ k]
      refine or_congr_left ?_
      simp only [List.mem_cons, exists_eq_or_imp]

/-- What an empty map holds after the insertions: the last element of each key. -/
theorem entries_insertAll_perm {α : Type} [DecidableEq κ] (key : α → κ) (val : α → υ) (l : List α) :
    ((empty : OrdMap κ υ).insertAll key val l).entries.Perm
      ((lasts key l).map fun a => (key a, val a)) := by
  have nodup (m : OrdMap κ υ) : m.entries.Nodup := m.keys_nodup.of_map
  have nodupLasts : ((lasts key l).map fun a => (key a, val a)).Nodup := by
    refine List.Nodup.of_map Prod.fst ?_
    rw [List.map_map]
    exact nodup_map_lasts l
  refine (List.perm_ext_iff_of_nodup (nodup _) nodupLasts).mpr ?_
  rintro ⟨k, v⟩
  rw [mem_entries_iff, find?_insertAll]
  simp

/-- The same for the entries of one kind in a map that had none of them. -/
theorem filter_insertAll_perm {α : Type} [DecidableEq κ] (m : OrdMap κ υ) (key : α → κ)
    (val : α → υ) (l : List α) {kind : κ → Bool} (fresh : ∀ k ∈ m.keys, kind k = false) :
    ((m.insertAll key val l).entries.filter fun e => kind e.1).Perm
      (((lasts key l).filter fun a => kind (key a)).map fun a => (key a, val a)) := by
  have nodup (n : OrdMap κ υ) : n.entries.Nodup := n.keys_nodup.of_map
  have nodupLasts : (((lasts key l).filter fun a => kind (key a)).map
      fun a => (key a, val a)).Nodup := by
    refine List.Nodup.of_map Prod.fst ?_
    rw [List.map_map]
    exact (nodup_map_lasts l).sublist (List.filter_sublist.map _)
  refine (List.perm_ext_iff_of_nodup ((nodup _).filter _) nodupLasts).mpr ?_
  rintro ⟨k, v⟩
  simp only [List.mem_filter, List.mem_map, mem_entries_iff, find?_insertAll, Prod.mk.injEq]
  constructor
  · rintro ⟨⟨a, member, rfl, rfl⟩ | ⟨_, old⟩, ofKind⟩
    · exact ⟨a, ⟨member, ofKind⟩, rfl, rfl⟩
    · rw [fresh k (mem_keys_iff.mpr ⟨v, old⟩)] at ofKind
      cases ofKind
  · rintro ⟨a, ⟨member, ofKind⟩, rfl, rfl⟩
    exact ⟨.inl ⟨a, member, rfl, rfl⟩, ofKind⟩

/-! ### Scans -/

/-- What is collected from the entries does not change with an entry from which
nothing is collected. -/
theorem filterMap_insert {ω : Type} (m : OrdMap κ υ) {k : κ} {f : κ × υ → Option ω}
    (silent : ∀ v, f (k, v) = none) (v : υ) :
    (m.insert k v).entries.filterMap f = m.entries.filterMap f := by
  have inserted (l : List (κ × υ)) : (insertEntry k v l).filterMap f = l.filterMap f := by
    induction l with
    | nil => simp [insertEntry, silent]
    | cons e rest ih =>
        rw [insertEntry]
        split
        · rw [List.filterMap_cons_none (silent v)]
        · rename_i notBelow
          split
          · simp only [List.filterMap_cons, ih]
          · rename_i notAbove
            have same : e.1 = k := le_antisymm (not_lt.mp notBelow) (not_lt.mp notAbove)
            have replaced : f (e.1, e.2) = none := same ▸ silent e.2
            rw [List.filterMap_cons_none (silent v), List.filterMap_cons_none replaced]
  exact inserted m.entries

theorem dropWhile_eq_filter_of_sorted {l : List (κ × υ)} (test : κ → Bool)
    (sorted : l.Pairwise fun a b => a.1 < b.1)
    (inherits : ∀ e ∈ l, ∀ f ∈ l, e.1 < f.1 → test f.1 = true → test e.1 = true) :
    (l.dropWhile fun e => test e.1) = l.filter (fun e => !test e.1) ∧
      (l.takeWhile fun e => test e.1) = l.filter fun e => test e.1 := by
  induction l with
  | nil => simp
  | cons first rest ih =>
      obtain ⟨below, sortedRest⟩ := List.pairwise_cons.mp sorted
      have restInherits := ih sortedRest fun e he f hf => inherits e (List.mem_cons_of_mem _ he) f
        (List.mem_cons_of_mem _ hf)
      cases passes : test first.1 with
      | true => simp [passes, restInherits.1, restInherits.2]
      | false =>
          have none : ∀ e ∈ rest, test e.1 = false := by
            intro e member
            by_contra passed
            have := inherits first List.mem_cons_self e (List.mem_cons_of_mem _ member)
              (below e member) (by simpa using passed)
            simp [passes] at this
          simp only [passes, Bool.false_eq_true, not_false_eq_true, List.dropWhile_cons_of_neg,
            List.takeWhile_cons_of_neg, List.filter_cons_of_neg, Bool.not_false,
            List.filter_cons_of_pos, List.cons.injEq, true_and]
          exact ⟨(List.filter_eq_self.mpr fun e member => by simp [none e member]).symm,
            (List.filter_eq_nil_iff.mpr fun e member => by simp [none e member]).symm⟩

/-- `seek` lists exactly the entries that are not below the target. -/
theorem seek_eq_filter (m : OrdMap κ υ) (target : κ) :
    m.seek target = m.entries.filter fun e => decide (¬ e.1 < target) := by
  have split := (dropWhile_eq_filter_of_sorted (fun k => decide (k < target)) m.sorted
    (fun e _ f _ less below => by simpa using less.trans (by simpa using below))).1
  simpa only [seek, decide_not] using split

/-- The first entry that passes a test has the least key of those that do. -/
theorem first_entry {m : OrdMap κ υ} {test : κ × υ → Bool} {e : κ × υ}
    (found : m.entries.find? test = some e) :
    e ∈ m.entries ∧ test e = true ∧ ∀ other ∈ m.entries, test other = true → ¬ other.1 < e.1 := by
  obtain ⟨passes, before, after, split, failed⟩ := List.find?_eq_some_iff_append.mp found
  have sorted := m.sorted
  rw [split] at sorted ⊢
  obtain ⟨later, _⟩ := List.pairwise_cons.mp (List.pairwise_append.mp sorted).2.1
  refine ⟨List.mem_append_right before List.mem_cons_self, passes, fun other member pass less => ?_⟩
  rcases List.mem_append.mp member with early | late
  · have refused := failed other early
    rw [pass] at refused
    cases refused
  · rcases List.mem_cons.mp late with rfl | inside
    · exact lt_irrefl _ less
    · exact lt_asymm less (later other inside)

/-- Behind entries below the target, `seek` passes over nothing but others below it. -/
theorem seek_append {m : OrdMap κ υ} {before rest : List (κ × υ)} {target : κ}
    (entries : m.entries = before ++ rest) (below : ∀ e ∈ before, e.1 < target) :
    (m.seek target).Sublist rest ∧ ∀ e ∈ rest, e ∈ m.seek target ∨ e.1 < target := by
  have onward : m.seek target = rest.dropWhile fun e => decide (e.1 < target) := by
    rw [seek, entries]
    exact List.dropWhile_append_of_pos fun e member => decide_eq_true (below e member)
  rw [onward]
  refine ⟨List.dropWhile_sublist _, fun e member => ?_⟩
  rw [← List.takeWhile_append_dropWhile (p := fun e => decide (e.1 < target)) (l := rest),
    List.mem_append] at member
  rcases member with skipped | kept
  · have passed := List.mem_takeWhile_imp (p := fun e : κ × υ => decide (e.1 < target)) skipped
    exact .inr (of_decide_eq_true passed)
  · exact .inl kept

theorem sorted_seek (m : OrdMap κ υ) (target : κ) :
    (m.seek target).Pairwise fun a b => a.1 < b.1 :=
  m.sorted.sublist (List.dropWhile_sublist _)

/-- What `popWhile` cuts off, in ascending key order, when every smaller key
inherits the test. -/
theorem popWhile_fst {m : OrdMap κ υ} {test : κ → Bool}
    (inherits : ∀ j ∈ m.keys, ∀ k ∈ m.keys, j < k → test k = true → test j = true) :
    (m.popWhile test).1 = (m.entries.filter fun e => test e.1).map Prod.snd := by
  have split := dropWhile_eq_filter_of_sorted test m.sorted fun e he f hf =>
    inherits e.1 (List.mem_map_of_mem he) f.1 (List.mem_map_of_mem hf)
  simp [popWhile, split.2]

/-- What `popWhile` leaves, under the same assumption. -/
theorem popWhile_snd {m : OrdMap κ υ} {test : κ → Bool}
    (inherits : ∀ j ∈ m.keys, ∀ k ∈ m.keys, j < k → test k = true → test j = true) :
    (m.popWhile test).2.entries = m.entries.filter fun e => !test e.1 := by
  have split := dropWhile_eq_filter_of_sorted test m.sorted fun e he f hf =>
    inherits e.1 (List.mem_map_of_mem he) f.1 (List.mem_map_of_mem hf)
  simp [popWhile, split.1]

/-- Cut-off and rest together are the map. -/
theorem values_popWhile (m : OrdMap κ υ) (test : κ → Bool) :
    (m.popWhile test).1 ++ (m.popWhile test).2.values = m.values := by
  simp only [popWhile, values, ← List.map_append, List.takeWhile_append_dropWhile]

/-! ### Mapping the values -/

section MapVal

variable {ω : Type}

/-- The map with `f` applied to every value. -/
def mapVal (f : υ → ω) (m : OrdMap κ υ) : OrdMap κ ω :=
  ⟨m.entries.map fun e => (e.1, f e.2), List.pairwise_map.mpr m.sorted⟩

@[simp] theorem keys_mapVal (f : υ → ω) (m : OrdMap κ υ) : (m.mapVal f).keys = m.keys := by
  simp [keys, mapVal]

@[simp] theorem find?_mapVal (f : υ → ω) (m : OrdMap κ υ) (k : κ) :
    (m.mapVal f).find? k = (m.find? k).map f := by
  simp only [find?, mapVal, List.find?_map, Option.map_map]
  rfl

theorem mapVal_insert (f : υ → ω) (m : OrdMap κ υ) (k : κ) (v : υ) :
    (m.insert k v).mapVal f = (m.mapVal f).insert k (f v) := by
  refine ext_find? fun key => ?_
  simp only [find?_mapVal, find?_insert]
  split
  · rfl
  · rfl

theorem mapVal_mapVal {ψ : Type} (g : ω → ψ) (f : υ → ω) (m : OrdMap κ υ) :
    (m.mapVal f).mapVal g = m.mapVal (g ∘ f) := by
  refine ext ?_
  simp [mapVal]

theorem popWhile_mapVal (f : υ → ω) (m : OrdMap κ υ) (test : κ → Bool) :
    (m.mapVal f).popWhile test =
      ((m.popWhile test).1.map f, (m.popWhile test).2.mapVal f) := by
  simp only [popWhile, mapVal, List.takeWhile_map, List.dropWhile_map, List.map_map]
  rfl

@[simp] theorem length_mapVal (f : υ → ω) (m : OrdMap κ υ) :
    (m.mapVal f).entries.length = m.entries.length :=
  List.length_map _

/-- The values that `f` picks, under their keys. -/
def collect (f : υ → Option ω) (m : OrdMap κ υ) : OrdMap κ ω where
  entries := m.entries.filterMap fun e => (f e.2).map (e.1, ·)
  sorted := by
    refine List.Pairwise.filterMap _ (fun e e' less b picked b' picked' => ?_) m.sorted
    obtain ⟨v, _, rfl⟩ := Option.map_eq_some_iff.mp picked
    obtain ⟨v', _, rfl⟩ := Option.map_eq_some_iff.mp picked'
    exact less

@[simp] theorem find?_collect (f : υ → Option ω) (m : OrdMap κ υ) (k : κ) :
    (m.collect f).find? k = (m.find? k).bind f := by
  refine Option.ext fun v => ?_
  rw [← mem_entries_iff, Option.bind_eq_some_iff]
  simp only [collect, List.mem_filterMap, Option.map_eq_some_iff, Prod.mk.injEq]
  constructor
  · rintro ⟨e, member, w, picked, rfl, rfl⟩
    exact ⟨e.2, mem_entries_iff.mp member, picked⟩
  · rintro ⟨w, present, picked⟩
    exact ⟨(k, w), mem_entries_iff.mpr present, v, picked, rfl, rfl⟩

end MapVal

end OrdMap

end Heracles.Base
