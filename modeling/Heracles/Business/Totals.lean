import Heracles.Business.Groups
import Heracles.Business.StoreFaithful

/-!
What a grouped query is for.

A line of a result stands for some records: it carries the sums of their counts
and values and their extremes (`Totals`). A grouped result has one line for each
key of the records, and a summary of all of them (`Summarises`). Two results that
summarise the same records agree, whatever store they come from
(`Summarises.agrees`).
-/

namespace Heracles.Business

open Heracles.Base
open Heracles.Business.StoreLevelDB

/-- The sum of the value sums of records, as an integer. -/
def valueSum (records : List EventInsert) : Int := (records.map fun r => r.valueSum.toInt).sum

theorem valueSum_perm {a b : List EventInsert} (perm : a.Perm b) : valueSum a = valueSum b :=
  (perm.map _).sum_eq

/-- The line carries the sums and the extremes of some records. -/
structure Totals (records : List EventInsert) (line : EventInfo) : Prop where
  count : line.count.toInt = (countSum records).bmod (2 ^ 32)
  valueSum : line.valueSum.toInt = (valueSum records).bmod (2 ^ 64)
  none : records = [] → line.valueMin = 0 ∧ line.valueMax = 0
  least : records ≠ [] → (∃ r ∈ records, line.valueMin = r.valueMin) ∧
    ∀ r ∈ records, line.valueMin ≤ r.valueMin
  greatest : records ≠ [] → (∃ r ∈ records, line.valueMax = r.valueMax) ∧
    ∀ r ∈ records, r.valueMax ≤ line.valueMax

/-- The numbers of a line that both stores have. -/
def core (line : EventInfo) : Int32 × Int64 × Int32 × Int32 :=
  (line.count, line.valueSum, line.valueMin, line.valueMax)

/-- Totals of the same records are the same numbers. -/
theorem Totals.core_eq {records others : List EventInsert} {line other : EventInfo}
    (totals : Totals records line) (totals' : Totals others other) (perm : records.Perm others) :
    core line = core other := by
  have count : line.count = other.count := by
    rw [← Int32.toInt_inj, totals.count, totals'.count, countSum_perm perm]
  have sum : line.valueSum = other.valueSum := by
    rw [← Int64.toInt_inj, totals.valueSum, totals'.valueSum, valueSum_perm perm]
  have extremes : line.valueMin = other.valueMin ∧ line.valueMax = other.valueMax := by
    by_cases none : records = []
    · have none' : others = [] := (none ▸ perm).nil_eq.symm
      rw [(totals.none none).1, (totals.none none).2, (totals'.none none').1, (totals'.none none').2]
      exact ⟨rfl, rfl⟩
    · have none' : others ≠ [] := fun empty => none (empty ▸ perm).eq_nil
      obtain ⟨⟨a, inA, minA⟩, leastA⟩ := totals.least none
      obtain ⟨⟨b, inB, minB⟩, leastB⟩ := totals'.least none'
      obtain ⟨⟨c, inC, maxC⟩, greatestC⟩ := totals.greatest none
      obtain ⟨⟨d, inD, maxD⟩, greatestD⟩ := totals'.greatest none'
      constructor
      · exact le_antisymm (minB ▸ leastA b (perm.mem_iff.mpr inB))
          (minA ▸ leastB a (perm.mem_iff.mp inA))
      · exact le_antisymm (maxC ▸ greatestD c (perm.mem_iff.mp inC))
          (maxD ▸ greatestC d (perm.mem_iff.mpr inD))
  rw [core, core, count, sum, extremes.1, extremes.2]

/-! ### Grouped results -/

/-- The lines of a result are the groups of some records by a key. -/
structure GroupLines (keyOf : EventInsert → Int64 × Bytes) (records : List EventInsert)
    (info : List EventInfo) : Prop where
  sound : ∀ line ∈ info, (∃ r ∈ records, keyOf r = (line.timestamp, line.tag)) ∧
    Totals (records.filter fun r => decide (keyOf r = (line.timestamp, line.tag))) line
  complete : ∀ r ∈ records, ∃ line ∈ info, (line.timestamp, line.tag) = keyOf r

/-- A result for some records, grouped by a key. -/
structure Summarises (keyOf : EventInsert → Int64 × Bytes) (records : List EventInsert)
    (out : EventSelect) : Prop where
  summary : Totals records out.summary
  info : GroupLines keyOf records out.info

/-- Two results have the same numbers in their summaries, and the same groups with
the same numbers. -/
structure Agrees (out other : EventSelect) : Prop where
  summary : core out.summary = core other.summary
  info : ∀ group : (Int64 × Bytes) × Int32 × Int64 × Int32 × Int32,
    group ∈ out.info.map (fun line => ((line.timestamp, line.tag), core line)) ↔
      group ∈ other.info.map fun line => ((line.timestamp, line.tag), core line)

theorem GroupLines.subset {keyOf : EventInsert → Int64 × Bytes} {records others : List EventInsert}
    {info info' : List EventInfo} (lines : GroupLines keyOf records info)
    (lines' : GroupLines keyOf others info') (perm : records.Perm others) :
    info.map (fun line => ((line.timestamp, line.tag), core line)) ⊆
      info'.map fun line => ((line.timestamp, line.tag), core line) := by
  intro group member
  obtain ⟨line, inInfo, rfl⟩ := List.mem_map.mp member
  obtain ⟨⟨r, inRecords, key⟩, totals⟩ := lines.sound line inInfo
  obtain ⟨line', inInfo', key'⟩ := lines'.complete r (perm.mem_iff.mp inRecords)
  refine List.mem_map.mpr ⟨line', inInfo', ?_⟩
  have same : (line'.timestamp, line'.tag) = (line.timestamp, line.tag) := key'.trans key
  have totals' := (lines'.sound line' inInfo').2
  rw [same] at totals' ⊢
  rw [totals.core_eq totals' (perm.filter _)]

/-- Results for the same records agree. -/
theorem Summarises.agrees {keyOf : EventInsert → Int64 × Bytes} {records others : List EventInsert}
    {out other : EventSelect} (result : Summarises keyOf records out)
    (result' : Summarises keyOf others other) (perm : records.Perm others) : Agrees out other :=
  ⟨result.summary.core_eq result'.summary perm, fun _ =>
    ⟨fun member => result.info.subset result'.info perm member,
      fun member => result'.info.subset result.info perm.symm member⟩⟩

/-! ### Folding records -/

/-- A field that keeps the better of two values ends as the best one. -/
theorem foldl_addItem_best {r : Int32 → Int32 → Prop} (refl : ∀ a, r a a)
    (trans : ∀ a b c, r a b → r b c → r a c) {f : EventInfo → Int32}
    (step : ∀ total item, r (f (addItem total item)) (f total) ∧
      r (f (addItem total item)) (f item) ∧
      (f (addItem total item) = f total ∨ f (addItem total item) = f item))
    (total : EventInfo) (items : List EventInfo) :
    r (f (items.foldl addItem total)) (f total) ∧
      (∀ item ∈ items, r (f (items.foldl addItem total)) (f item)) ∧
      (f (items.foldl addItem total) = f total ∨
        ∃ item ∈ items, f (items.foldl addItem total) = f item) := by
  induction items generalizing total with
  | nil => exact ⟨refl _, fun _ member => absurd member List.not_mem_nil, .inl rfl⟩
  | cons item items ih =>
      obtain ⟨fromTotal, fromItem, taken⟩ := step total item
      obtain ⟨first, rest, attained⟩ := ih (addItem total item)
      refine ⟨trans _ _ _ first fromTotal, ?_, ?_⟩
      · intro other member
        rcases List.mem_cons.mp member with rfl | inside
        · exact trans _ _ _ first fromItem
        · exact rest other inside
      · rcases attained with start | ⟨other, inside, same⟩
        · rcases taken with kept | replaced
          · exact .inl (start.trans kept)
          · exact .inr ⟨item, List.mem_cons_self, start.trans replaced⟩
        · exact .inr ⟨other, List.mem_cons_of_mem item inside, same⟩

theorem foldl_addItem_valueMin (total : EventInfo) (items : List EventInfo) :
    (items.foldl addItem total).valueMin ≤ total.valueMin ∧
      (∀ item ∈ items, (items.foldl addItem total).valueMin ≤ item.valueMin) ∧
      ((items.foldl addItem total).valueMin = total.valueMin ∨
        ∃ item ∈ items, (items.foldl addItem total).valueMin = item.valueMin) := by
  refine foldl_addItem_best (f := EventInfo.valueMin) (fun _ => le_refl _) (fun _ _ _ => le_trans)
    (fun total item => ?_) total items
  have minimum : (addItem total item).valueMin = min item.valueMin total.valueMin :=
    (min_def_lt _ _).symm
  rw [minimum]
  exact ⟨min_le_right _ _, min_le_left _ _, (min_choice _ _).symm⟩

theorem foldl_addItem_valueMax (total : EventInfo) (items : List EventInfo) :
    total.valueMax ≤ (items.foldl addItem total).valueMax ∧
      (∀ item ∈ items, item.valueMax ≤ (items.foldl addItem total).valueMax) ∧
      ((items.foldl addItem total).valueMax = total.valueMax ∨
        ∃ item ∈ items, (items.foldl addItem total).valueMax = item.valueMax) := by
  refine foldl_addItem_best (f := EventInfo.valueMax) (r := fun a b => b ≤ a)
    (fun _ => le_refl _) (fun _ _ _ first second => le_trans second first) (fun total item => ?_) total items
  have maximum : (addItem total item).valueMax = max total.valueMax item.valueMax :=
    (max_def_lt _ _).symm
  rw [maximum]
  exact ⟨le_max_left _ _, le_max_right _ _, max_choice _ _⟩

/-- A line before anything is added to it, whatever its key. -/
structure Blank (start : EventInfo) : Prop where
  count : start.count = 0
  valueSum : start.valueSum = 0
  valueMin : start.valueMin = Int32.maxValue
  valueMax : start.valueMax = Int32.minValue

/-- The line of a record has its values. -/
structure LineOf (item : EventInsert → EventInfo) : Prop where
  count : ∀ r, (item r).count = r.count
  valueSum : ∀ r, (item r).valueSum = r.valueSum
  valueMin : ∀ r, (item r).valueMin = r.valueMin
  valueMax : ∀ r, (item r).valueMax = r.valueMax

theorem totals_foldl {start : EventInfo} (empty : Blank start) {item : EventInsert → EventInfo}
    (lineOf : LineOf item) {records : List EventInsert} (nonempty : records ≠ []) :
    Totals records ((records.map item).foldl addItem start) := by
  have zero32 : (0 : Int32).toInt = 0 := by decide
  have zero64 : (0 : Int64).toInt = 0 := by decide
  obtain ⟨belowMax, least, attainedMin⟩ := foldl_addItem_valueMin start (records.map item)
  obtain ⟨aboveMin, greatest, attainedMax⟩ := foldl_addItem_valueMax start (records.map item)
  obtain ⟨first, inside⟩ := List.exists_mem_of_ne_nil records nonempty
  refine ⟨?_, ?_, fun none => absurd none nonempty, fun _ => ⟨?_, ?_⟩, fun _ => ⟨?_, ?_⟩⟩
  · rw [@toInt_foldl_addItem32 EventInfo.count (fun _ _ => rfl), empty.count, zero32, zero_add,
      List.map_map, countSum]
    simp only [Function.comp_def, lineOf.count]
  · rw [toInt_foldl_addItem_valueSum, empty.valueSum, zero64, zero_add, List.map_map, valueSum]
    simp only [Function.comp_def, lineOf.valueSum]
  · rcases attainedMin with start | ⟨other, member, same⟩
    · refine ⟨first, inside, le_antisymm ?_ ?_⟩
      · rw [← lineOf.valueMin]
        exact least _ (List.mem_map_of_mem inside)
      · rw [start, empty.valueMin]
        exact Int32.le_maxValue _
    · obtain ⟨r, inRecords, rfl⟩ := List.mem_map.mp member
      exact ⟨r, inRecords, same.trans (lineOf.valueMin r)⟩
  · intro r member
    rw [← lineOf.valueMin]
    exact least _ (List.mem_map_of_mem member)
  · rcases attainedMax with start | ⟨other, member, same⟩
    · refine ⟨first, inside, le_antisymm ?_ ?_⟩
      · rw [start, empty.valueMax]
        exact Int32.minValue_le _
      · rw [← lineOf.valueMax]
        exact greatest _ (List.mem_map_of_mem inside)
    · obtain ⟨r, inRecords, rfl⟩ := List.mem_map.mp member
      exact ⟨r, inRecords, same.trans (lineOf.valueMax r)⟩
  · intro r member
    rw [← lineOf.valueMax]
    exact greatest _ (List.mem_map_of_mem member)

/-- The numbers of a line say what it is the totals of. -/
theorem Totals.of_core {records : List EventInsert} {line other : EventInfo}
    (totals : Totals records line) (same : core other = core line) : Totals records other := by
  simp only [core, Prod.mk.injEq] at same
  obtain ⟨count, sum, least, greatest⟩ := same
  exact ⟨count ▸ totals.count, sum ▸ totals.valueSum, least ▸ greatest ▸ totals.none,
    least ▸ totals.least, greatest ▸ totals.greatest⟩

/-! ### Records with positive counts -/

/-- Records with positive counts whose sum is a 32-bit integer. -/
structure Countable (records : List EventInsert) : Prop where
  positive : ∀ r ∈ records, 0 < r.count
  fits : Fits32 (countSum records)

theorem countSum_nonneg {records : List EventInsert} (positive : ∀ r ∈ records, 0 < r.count) :
    0 ≤ countSum records := by
  refine List.sum_nonneg fun count member => ?_
  obtain ⟨r, inside, rfl⟩ := List.mem_map.mp member
  exact (Int32.lt_iff_toInt_lt.mp (positive r inside)).le

theorem countSum_append (a b : List EventInsert) : countSum (a ++ b) = countSum a + countSum b := by
  rw [countSum, List.map_append, List.sum_append]
  rfl

theorem Countable.sublist {records part : List EventInsert} (countable : Countable records)
    (sublist : part.Sublist records) : Countable part := by
  obtain ⟨rest, perm⟩ := sublist.exists_perm_append
  have positive : ∀ r ∈ part, 0 < r.count := fun r member =>
    countable.positive r (sublist.subset member)
  have others := @countSum_nonneg rest fun r member =>
    countable.positive r (perm.mem_iff.mpr (List.mem_append_right part member))
  have nonneg := countSum_nonneg positive
  have together := countSum_perm perm
  rw [countSum_append] at together
  obtain ⟨low, high⟩ := countable.fits
  exact ⟨positive, by omega, by omega⟩

theorem Countable.filter {records : List EventInsert} (countable : Countable records)
    (test : EventInsert → Bool) : Countable (records.filter test) :=
  countable.sublist List.filter_sublist

theorem Countable.perm {records others : List EventInsert} (countable : Countable records)
    (perm : others.Perm records) : Countable others :=
  ⟨fun r member => countable.positive r (perm.subset member),
    (countSum_perm perm).symm ▸ countable.fits⟩

theorem Countable.countSum_pos {records : List EventInsert} (countable : Countable records)
    (nonempty : records ≠ []) : 0 < countSum records := by
  cases records with
  | nil => exact absurd rfl nonempty
  | cons r rest =>
      have first := Int32.lt_iff_toInt_lt.mp (countable.positive r List.mem_cons_self)
      have tail := countSum_nonneg fun s member =>
        countable.positive s (List.mem_cons_of_mem r member)
      have zero : (0 : Int32).toInt = 0 := by decide
      have split := countSum_append [r] rest
      have single : countSum [r] = r.count.toInt := by simp [countSum]
      rw [List.singleton_append] at split
      omega

/-- Some of the records count as much as all of them only if they are all. -/
theorem Countable.perm_of_countSum_eq {records part : List EventInsert}
    (countable : Countable records) (distinct : part.Nodup) (inside : part ⊆ records)
    (same : countSum part = countSum records) : part.Perm records := by
  obtain ⟨chosen, perm, sublist⟩ := distinct.subperm inside
  obtain ⟨rest, whole⟩ := sublist.exists_perm_append
  have together := countSum_perm whole
  rw [countSum_append, countSum_perm perm, same] at together
  have others := (countable.perm whole.symm).sublist (List.sublist_append_right chosen rest)
  have none : rest = [] := by
    by_contra nonempty
    have positive := others.countSum_pos nonempty
    omega
  rw [none, List.append_nil] at whole
  exact perm.symm.trans whole.symm

theorem Totals.count_pos {records : List EventInsert} {line : EventInfo}
    (totals : Totals records line) (countable : Countable records) (nonempty : records ≠ []) :
    0 < line.count := by
  have zero : (0 : Int32).toInt = 0 := by decide
  rw [Int32.lt_iff_toInt_lt, totals.count, bmod32_eq_iff.mpr countable.fits, zero]
  exact countable.countSum_pos nonempty

end Heracles.Business
