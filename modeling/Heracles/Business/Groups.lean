import Heracles.Base.Grouping
import Heracles.Business.StoreScan

/-!
The groups of a select and its summary.

Both grouped selects collect the lines of the scan in an ordered map and reduce
each list to one line; the summary is folded from all lines beside it. The
groups are the entries with their key, so they split the entries of the summary
(`groups_partition`). A group that holds all entries is reduced by other
divisions than the summary: `divBySize_eq_div_iff` says when they agree.
-/

namespace Heracles.Business.StoreLevelDB

open Heracles.Base

/-- A matched record: the fields of its key and its value. -/
abbrev Entry := KeyFields × LeveldbInternalLayout

/-- The records a select matches, none if the database cannot be opened. -/
def matched (s : StoreLevelDB) (env : LeveldbEnv) (cond : EventCond) (stat : EventSelect) :
    List Entry :=
  match s.getLeveldbHandler env cond.service with
  | (none, _) => []
  | (some path, s) => scan (s.content path) cond stat

/-- The timestamp of a matched record. -/
def timestampOf (entry : Entry) : Int64 := timestampExchange (atoll entry.1.time)

theorem matched_none {s : StoreLevelDB} {env : LeveldbEnv} {cond : EventCond}
    (failed : (s.getLeveldbHandler env cond.service).1 = none) (stat : EventSelect) :
    s.matched env cond stat = [] := by
  unfold matched
  split
  · rfl
  · rename_i opened
    rw [opened] at failed
    cases failed

/-- A select leaves its result alone if the database cannot be opened, and
folds the matched records otherwise. -/
theorem selectWith_matched (item : Entry → EventInfo)
    (fold : List EventInfo → EventSelect → EventSelect) (s : StoreLevelDB) (env : LeveldbEnv)
    (cond : EventCond) (stat : EventSelect) :
    (selectWith item fold s env cond stat).2.1 =
      if (s.getLeveldbHandler env cond.service).1 = none then stat
      else fold ((s.matched env cond stat).map item) stat := by
  unfold selectWith matched
  split
  · rename_i failed
    rw [failed, if_pos rfl]
  · rename_i opened
    rw [opened, if_neg (Option.some_ne_none _)]

/-! ### Lines of the groups -/

section Lines

variable {κ : Type} [LinearOrder κ] {key : EventInfo → κ} {line : κ → EventInfo}

theorem foldl_append_one (start items : List EventInfo) :
    items.foldl (fun l item => l ++ [item]) start = start ++ items := by
  induction items generalizing start with
  | nil => exact (List.append_nil start).symm
  | cons item items ih => rw [List.foldl_cons, ih, List.append_assoc, List.singleton_append]

/-- The collected lists are the groups. -/
theorem groupBy_entries (items : List EventInfo) :
    (groupBy key items).entries =
      (groupBy key items).keys.map fun k => (k, group key items k) := by
  have whole := @OrdMap.entries_accumulate _ _ _ _ key [] (fun l item => l ++ [item]) items
  simp only [foldl_append_one, List.nil_append] at whole
  exact whole

/-- The lines of the groups, one for each key in ascending order. -/
theorem lines_eq (items : List EventInfo) :
    (groupBy key items).entries.map (fun (k, group) => collectGroup (line k) group) =
      (groupBy key items).keys.map fun k => collectGroup (line k) (group key items k) := by
  rw [groupBy_entries, List.map_map]
  rfl

theorem mem_keys_groupBy {items : List EventInfo} {k : κ} :
    k ∈ (groupBy key items).keys ↔ ∃ item ∈ items, key item = k :=
  @OrdMap.mem_keys_accumulate _ _ _ _ key [] (fun l item => l ++ [item]) items k

end Lines

/-! ### Sums of the groups -/

/-- The sum of a 32-bit value over matched records, as an integer. -/
def sum32 (field : LeveldbInternalLayout → Int32) (entries : List Entry) : Int :=
  (entries.map fun entry => (field entry.2).toInt).sum

/-- There are no more elements than the sum of a positive number over them. -/
theorem length_le_sum {α : Type} {count : α → Int32} {l : List α}
    (positive : ∀ a ∈ l, 0 < count a) : (l.length : Int) ≤ (l.map fun a => (count a).toInt).sum := by
  have least := List.card_nsmul_le_sum (l.map fun a => (count a).toInt) 1 (by
    intro n member
    obtain ⟨a, inside, rfl⟩ := List.mem_map.mp member
    exact Int32.lt_iff_toInt_lt.mp (positive a inside))
  simpa using least

/-- The sum of the sums of matched records, as an integer. -/
def sum64 (entries : List Entry) : Int := (entries.map fun entry => entry.2.sum.toInt).sum

theorem toInt_collectGroup_count (line : EventInfo) (items : List EventInfo) :
    (collectGroup line items).count.toInt =
      ((items.map fun item : EventInfo => item.count.toInt).sum).bmod (2 ^ 32) := by
  have total := @toInt_foldl_addItem32 EventInfo.count (fun _ _ => rfl)
    { blank with timestamp := line.timestamp, tag := line.tag } items
  have zero : blank.count.toInt = 0 := by decide
  simp only [zero, zero_add] at total
  rw [← total, collectGroup]
  split
  · rfl
  · rfl

theorem toInt_collectGroup_valueSum (line : EventInfo) (items : List EventInfo) :
    (collectGroup line items).valueSum.toInt =
      ((items.map fun item : EventInfo => item.valueSum.toInt).sum).bmod (2 ^ 64) := by
  have total := toInt_foldl_addItem_valueSum
    { blank with timestamp := line.timestamp, tag := line.tag } items
  have zero : blank.valueSum.toInt = 0 := by decide
  simp only [zero, zero_add] at total
  rw [← total, collectGroup]
  split
  · rfl
  · rfl

theorem bmod_sum_bmod {α : Type} (f : α → Int) (m : Nat) (l : List α) :
    ((l.map fun a => (f a).bmod m).sum).bmod m = ((l.map f).sum).bmod m := by
  induction l with
  | nil => rfl
  | cons a l ih =>
      rw [List.map_cons, List.map_cons, List.sum_cons, List.sum_cons, Int.bmod_add_bmod]
      rw [← Int.add_bmod_bmod, ih, Int.add_bmod_bmod]

/-- The lines of a result are the groups of matched records by a key: one line
for each key that occurs, in ascending order, with the count and the sum of the
records that have it. Together the lines are the summary. -/
structure Partitions {κ : Type} [LinearOrder κ] (key : EventInfo → κ) (keyOf : Entry → κ)
    (entries : List Entry) (out : EventSelect) : Prop where
  ascending : (out.info.map key).Pairwise (· < ·)
  keys : ∀ k, k ∈ out.info.map key ↔ ∃ entry ∈ entries, keyOf entry = k
  count : ∀ line ∈ out.info, line.count.toInt =
    (sum32 LeveldbInternalLayout.count (group keyOf entries (key line))).bmod (2 ^ 32)
  valueSum : ∀ line ∈ out.info, line.valueSum.toInt =
    (sum64 (group keyOf entries (key line))).bmod (2 ^ 64)
  counts : ((out.info.map fun line : EventInfo => line.count.toInt).sum).bmod (2 ^ 32) =
    out.summary.count.toInt
  sums : ((out.info.map fun line : EventInfo => line.valueSum.toInt).sum).bmod (2 ^ 64) =
    out.summary.valueSum.toInt

/-- The values of a line, without its key. -/
def bare (line : EventInfo) : EventInfo := { line with timestamp := 0, tag := [] }

/-- A line of an entry has its key and its values, and the line of a group its key. -/
structure Keyed {κ : Type} (key : EventInfo → κ) (keyOf : Entry → κ) (item : Entry → EventInfo)
    (line : κ → EventInfo) : Prop where
  ofItem : ∀ entry, key (item entry) = keyOf entry
  values : ∀ entry, bare (item entry) = itemOf entry.2
  ofLine : ∀ k items, key (collectGroup (line k) items) = k

theorem Keyed.field {κ α : Type} {key : EventInfo → κ} {keyOf : Entry → κ}
    {item : Entry → EventInfo} {line : κ → EventInfo} (keyed : Keyed key keyOf item line)
    {field : EventInfo → α} (ofValues : ∀ i, field i = field (bare i)) (entry : Entry) :
    field (item entry) = field (itemOf entry.2) := by
  rw [ofValues, keyed.values]

theorem Keyed.partitions {κ : Type} [LinearOrder κ] {key : EventInfo → κ} {keyOf : Entry → κ}
    {item : Entry → EventInfo} {line : κ → EventInfo} (keyed : Keyed key keyOf item line)
    (entries : List Entry) {out : EventSelect}
    (summary : out.summary = summarize (entries.map item))
    (info : out.info = (groupBy key (entries.map item)).entries.map
      fun (k, group) => collectGroup (line k) group) :
    Partitions key keyOf entries out := by
  set ks := (groupBy key (entries.map item)).keys with ks_def
  have mem_ks (k : κ) : k ∈ ks ↔ ∃ entry ∈ entries, keyOf entry = k := by
    simp only [ks_def, mem_keys_groupBy, List.mem_map, exists_exists_and_eq_and, keyed.ofItem]
  have lines : out.info = ks.map fun k => collectGroup (line k)
      ((group keyOf entries k).map item) := by
    rw [info, lines_eq]
    simp only [group_map, keyed.ofItem, ks_def]
  have keys : out.info.map key = ks := by
    rw [lines, List.map_map]
    exact (List.map_congr_left fun k _ => keyed.ofLine k _).trans (List.map_id ks)
  have counts := keyed.field (fun i : EventInfo => (rfl : i.count = (bare i).count))
  have sums := keyed.field (fun i : EventInfo => (rfl : i.valueSum = (bare i).valueSum))
  have count (k : κ) : (collectGroup (line k) ((group keyOf entries k).map item)).count.toInt =
      (sum32 LeveldbInternalLayout.count (group keyOf entries k)).bmod (2 ^ 32) := by
    rw [toInt_collectGroup_count, List.map_map, sum32]
    simp only [Function.comp_def, counts, itemOf]
  have valueSum (k : κ) :
      (collectGroup (line k) ((group keyOf entries k).map item)).valueSum.toInt =
      (sum64 (group keyOf entries k)).bmod (2 ^ 64) := by
    rw [toInt_collectGroup_valueSum, List.map_map, sum64]
    simp only [Function.comp_def, sums, itemOf]
  have covered : ∀ entry ∈ entries, keyOf entry ∈ ks := fun entry member =>
    (mem_ks _).mpr ⟨entry, member, rfl⟩
  have distinct : ks.Nodup := OrdMap.keys_nodup _
  refine ⟨?_, ?_, ?_, ?_, ?_, ?_⟩
  · rw [keys]
    exact List.pairwise_map.mpr (groupBy key (entries.map item)).sorted
  · intro k
    rw [keys, mem_ks]
  · intro l member
    rw [lines] at member
    obtain ⟨k, _, rfl⟩ := List.mem_map.mp member
    rw [keyed.ofLine, count]
  · intro l member
    rw [lines] at member
    obtain ⟨k, _, rfl⟩ := List.mem_map.mp member
    rw [keyed.ofLine, valueSum]
  · rw [summary, toInt_summarize_count, lines, List.map_map, List.map_map]
    simp only [Function.comp_def, count, counts, itemOf]
    rw [bmod_sum_bmod]
    exact congrArg (Int.bmod · _) (sum_groups _ distinct covered)
  · rw [summary, toInt_summarize_valueSum, lines, List.map_map, List.map_map]
    simp only [Function.comp_def, valueSum, sums, itemOf]
    rw [bmod_sum_bmod]
    exact congrArg (Int.bmod · _) (sum_groups _ distinct covered)

/-- Adding lines up changes neither the timestamp nor the tag. -/
theorem foldl_addItem_names (total : EventInfo) (items : List EventInfo) :
    (items.foldl addItem total).timestamp = total.timestamp ∧
      (items.foldl addItem total).tag = total.tag := by
  induction items generalizing total with
  | nil => exact ⟨rfl, rfl⟩
  | cons item items ih => exact ih (addItem total item)

theorem collectGroup_names (line : EventInfo) (items : List EventInfo) :
    (collectGroup line items).timestamp = line.timestamp ∧
      (collectGroup line items).tag = line.tag := by
  unfold collectGroup
  dsimp only
  split
  · exact foldl_addItem_names _ items
  · exact foldl_addItem_names _ items

theorem keyed_tag : Keyed EventInfo.tag (fun entry => entry.1.tag) itemByTag
    (fun tag => { EventInfo.zero with tag := tag }) :=
  ⟨fun _ => rfl, fun _ => rfl, fun _ items => (collectGroup_names _ items).2⟩

theorem keyed_timestamp : Keyed EventInfo.timestamp timestampOf itemByTimestamp
    (fun timestamp => { EventInfo.zero with timestamp := timestamp }) :=
  ⟨fun _ => rfl, fun _ => rfl, fun _ items => (collectGroup_names _ items).1⟩

/-- The key of a line plays no part in the summary. -/
theorem Keyed.summarize_eq {κ : Type} {key : EventInfo → κ} {keyOf : Entry → κ}
    {item : Entry → EventInfo} {line : κ → EventInfo} (keyed : Keyed key keyOf item line)
    (entries : List Entry) :
    summarize (entries.map item) = summarize (entries.map fun entry => itemOf entry.2) := by
  have added (total : EventInfo) (entry : Entry) :
      addItem total (item entry) = addItem total (itemOf entry.2) := by
    rw [← keyed.values]
    rfl
  unfold summarize
  simp only [List.foldl_map, List.length_map, added]

/-- Two quotients whose dividends add up to `m * m` are together a multiple of `m`
exactly when both divisions leave nothing and `m` is a multiple of the divisor. -/
theorem dvd_quotients_iff {m n p : Nat} (positive : 0 < n) (small : 2 * n ≤ m) (le : p ≤ m * m) :
    m ∣ (m * m - p) / n + p / n ↔ n ∣ p ∧ n ∣ m := by
  have first := Nat.div_add_mod (m * m - p) n
  have second := Nat.div_add_mod p n
  have lessFirst := Nat.mod_lt (m * m - p) positive
  have lessSecond := Nat.mod_lt p positive
  have whole : n * ((m * m - p) / n + p / n) + ((m * m - p) % n + p % n) = m * m := by
    rw [Nat.mul_add]
    omega
  constructor
  · rintro ⟨c, quotients⟩
    rw [quotients] at whole
    have rest : m ∣ (m * m - p) % n + p % n := by
      have product : m ∣ n * (m * c) := ⟨n * c, by ring⟩
      exact (Nat.dvd_add_right product).mp ⟨m, whole⟩
    have none : (m * m - p) % n + p % n = 0 := Nat.eq_zero_of_dvd_of_lt rest (by omega)
    have exact : n * c = m := by
      have product : m * (n * c) = m * m := by
        rw [← whole, none]
        ring
      exact Nat.eq_of_mul_eq_mul_left (by omega) product
    exact ⟨Nat.dvd_of_mod_eq_zero (by omega), c, exact.symm⟩
  · rintro ⟨divides, c, multiple⟩
    have square : n ∣ m * m := ⟨c * m, by rw [← Nat.mul_assoc, ← multiple]⟩
    have noSecond := Nat.mod_eq_zero_of_dvd divides
    have noFirst := Nat.mod_eq_zero_of_dvd (Nat.dvd_sub square divides)
    rw [noFirst, noSecond] at whole
    refine ⟨c, Nat.eq_of_mul_eq_mul_left positive ?_⟩
    rw [← Nat.add_zero (n * _), whole]
    nth_rewrite 1 [multiple]
    ring

/-- An `int32_t` converted to `uint64_t`. -/
theorem toNat_unsigned (total : Int32) :
    total.toInt64.toUInt64.toNat =
      if 0 ≤ total.toInt then total.toInt.toNat else 2 ^ 64 - (-total.toInt).toNat := by
  have low := total.le_toInt
  have high := total.toInt_lt
  have cond := BitVec.toInt_eq_toNat_cond total.toInt64.toBitVec
  have bound := total.toInt64.toUInt64.toNat_lt
  have same : total.toInt64.toBitVec.toInt = total.toInt := Int32.toInt_toInt64 total
  rw [same, Int64.toNat_toBitVec] at cond
  split
  · split at cond
    · omega
    · omega
  · split at cond
    · omega
    · omega

/-- The condition under which a sum `total` of `n` values is divided alike by a
`size_t` and by an `int`. -/
def DividesAlike (n : Nat) (total : Int) : Prop := 0 ≤ total ∨ (n : Int) ∣ total ∧ n ∣ 2 ^ 32

theorem divBySize_eq_div_iff (total : Int32) {n : Nat} (positive : 0 < n) (small : n < 2 ^ 31) :
    divBySize total n = total / Int32.ofNat n ↔ DividesAlike n total.toInt := by
  have low := total.le_toInt
  have high := total.toInt_lt
  have unsigned := toNat_unsigned total
  set quotient := total.toInt64.toUInt64.toNat / n with quotient_def
  have bySize : (divBySize total n).toInt = (quotient : Int).bmod (2 ^ 32) := by
    set word := total.toInt64.toUInt64 / UInt64.ofNat n with word_def
    have value : word.toNat = quotient := by
      rw [word_def, UInt64.toNat_div, UInt64.toNat_ofNat_of_lt' (by
        have : UInt64.size = 2 ^ 64 := rfl
        omega)]
    have signed : word.toInt64.toInt = (word.toNat : Int).bmod (2 ^ 64) :=
      BitVec.toInt_eq_toNat_bmod word.toBitVec
    rw [divBySize, ← word_def, Int64.toInt_toInt32, signed, value]
    exact Int.bmod_bmod_of_dvd (by decide)
  have byInt : (total / Int32.ofNat n).toInt = (total.toInt.tdiv n).bmod (2 ^ 32) := by
    rw [Int32.toInt_div, Int32.toInt_ofNat_of_lt small]
  rw [← Int32.toInt_inj, bySize, byInt, Int.bmod_eq_bmod_iff_bmod_sub_eq_zero,
    ← Int.dvd_iff_bmod_eq_zero]
  by_cases nonneg : 0 ≤ total.toInt
  · obtain ⟨p, value⟩ := Int.eq_ofNat_of_zero_le nonneg
    have same : (quotient : Int) - total.toInt.tdiv n = 0 := by
      rw [quotient_def, unsigned, if_pos nonneg, value, Int.toNat_natCast, Int.natCast_div,
        Int.tdiv_eq_ediv_of_nonneg (Int.natCast_nonneg p), sub_self]
    rw [same]
    exact ⟨fun _ => .inl nonneg, fun _ => dvd_zero _⟩
  · obtain ⟨p, value⟩ := Int.eq_ofNat_of_zero_le (a := -total.toInt) (by omega)
    have negative : total.toInt = -(p : Int) := by omega
    have sum : (quotient : Int) - total.toInt.tdiv n =
        (((2 ^ 32 * 2 ^ 32 - p) / n + p / n : Nat) : Int) := by
      rw [quotient_def, unsigned, if_neg nonneg, value, Int.toNat_natCast, negative,
        Int.neg_tdiv, Int.tdiv_eq_ediv_of_nonneg (Int.natCast_nonneg p), sub_neg_eq_add]
      norm_num
    rw [sum, Int.natCast_dvd_natCast, dvd_quotients_iff positive (by omega) (by omega),
      DividesAlike, negative, Int.dvd_neg, Int.natCast_dvd_natCast]
    constructor
    · exact .inr
    · rintro (zero | divides)
      · omega
      · exact divides

/-! ### A single group -/

/-- There is one line, and it has the values of the summary. -/
def SingleAgrees (out : EventSelect) : Prop := out.info.map bare = [bare out.summary]

instance (out : EventSelect) : Decidable (SingleAgrees out) := inferInstanceAs (Decidable (_ = _))

/-- The sums over matched records fit their types. -/
structure SumsFit (entries : List Entry) : Prop where
  count : Fits32 (sum32 LeveldbInternalLayout.count entries)
  valueSum : Fits64 (sum64 entries)
  p10 : Fits32 (sum32 LeveldbInternalLayout.p10 entries)
  p50 : Fits32 (sum32 LeveldbInternalLayout.p50 entries)
  p90 : Fits32 (sum32 LeveldbInternalLayout.p90 entries)

/-- The percentiles of matched records are divided alike in the line of a group
and in the summary. -/
def PercentilesDivideAlike (entries : List Entry) : Prop :=
  DividesAlike entries.length (sum32 LeveldbInternalLayout.p10 entries) ∧
    DividesAlike entries.length (sum32 LeveldbInternalLayout.p50 entries) ∧
    DividesAlike entries.length (sum32 LeveldbInternalLayout.p90 entries)

theorem foldl_addItem_named (total : EventInfo) (timestamp : Int64) (tag : Bytes)
    (items : List EventInfo) :
    items.foldl addItem { total with timestamp := timestamp, tag := tag } =
      { items.foldl addItem total with timestamp := timestamp, tag := tag } := by
  induction items generalizing total with
  | nil => rfl
  | cons item items ih => exact ih (addItem total item)

/-- With a positive count, a group and a summary of the same lines differ at
most in how they divide the percentiles. -/
theorem bare_collectGroup_iff (line : EventInfo) {items : List EventInfo}
    (positive : 0 < (items.foldl addItem blank).count) (some : Int32.ofNat items.length ≠ 0) :
    bare (collectGroup line items) = bare (summarize items) ↔
      divBySize (items.foldl addItem blank).valueP10 items.length =
          (items.foldl addItem blank).valueP10 / Int32.ofNat items.length ∧
        divBySize (items.foldl addItem blank).valueP50 items.length =
          (items.foldl addItem blank).valueP50 / Int32.ofNat items.length ∧
        divBySize (items.foldl addItem blank).valueP90 items.length =
          (items.foldl addItem blank).valueP90 / Int32.ofNat items.length := by
  have counted : (items.foldl addItem blank).count ≠ 0 := fun zero => by
    rw [zero] at positive
    exact absurd positive (by decide)
  unfold collectGroup summarize
  simp only [foldl_addItem_named]
  rw [if_pos positive, if_pos ⟨counted, some⟩]
  simp only [bare, EventInfo.mk.injEq, true_and]

theorem keys_single {κ : Type} [LinearOrder κ] {key : EventInfo → κ} {k : κ}
    {items : List EventInfo} (some : items ≠ []) (same : ∀ item ∈ items, key item = k) :
    (groupBy key items).keys = [k] := by
  refine List.perm_singleton.mp ?_
  refine (List.perm_ext_iff_of_nodup (OrdMap.keys_nodup _) (List.nodup_singleton k)).mpr fun j => ?_
  rw [mem_keys_groupBy, List.mem_singleton]
  constructor
  · rintro ⟨item, member, rfl⟩
    exact same item member
  · rintro rfl
    obtain ⟨item, member⟩ := List.exists_mem_of_ne_nil items some
    exact ⟨item, member, same item member⟩

theorem toInt_sum32 {field : EventInfo → Int32} {value : LeveldbInternalLayout → Int32}
    (adds : ∀ total item, field (addItem total item) = field total + field item)
    (blankZero : (field blank).toInt = 0) {item : Entry → EventInfo} {entries : List Entry}
    (values : ∀ entry, field (item entry) = value entry.2) (fits : Fits32 (sum32 value entries)) :
    (field ((entries.map item).foldl addItem blank)).toInt = sum32 value entries := by
  rw [toInt_foldl_addItem32 adds, blankZero, zero_add, List.map_map]
  simp only [Function.comp_def, values]
  exact bmod32_eq_iff.mpr fits

/-- A single group is the summary exactly when the percentiles divide alike. -/
theorem Keyed.singleAgrees_iff {κ : Type} [LinearOrder κ] {key : EventInfo → κ}
    {keyOf : Entry → κ} {item : Entry → EventInfo} {line : κ → EventInfo}
    (keyed : Keyed key keyOf item line) {entries : List Entry} {k : κ} (nonempty : entries ≠ [])
    (positive : ∀ entry ∈ entries, 0 < entry.2.count) (fit : SumsFit entries)
    (single : ∀ entry ∈ entries, keyOf entry = k) {out : EventSelect}
    (summary : out.summary = summarize (entries.map item))
    (info : out.info = (groupBy key (entries.map item)).entries.map
      fun (k, group) => collectGroup (line k) group) :
    SingleAgrees out ↔ PercentilesDivideAlike entries := by
  have same : ∀ i ∈ entries.map item, key i = k := by
    intro i member
    obtain ⟨entry, inside, rfl⟩ := List.mem_map.mp member
    exact (keyed.ofItem entry).trans (single entry inside)
  have keys := keys_single (fun none => nonempty (List.map_eq_nil_iff.mp none)) same
  have all : group key (entries.map item) k = entries.map item :=
    List.filter_eq_self.mpr fun i member => decide_eq_true (same i member)
  have lengths : (entries.map item).length = entries.length := List.length_map item
  have some : 0 < entries.length := List.length_pos_of_ne_nil nonempty
  have counts := @toInt_sum32 EventInfo.count LeveldbInternalLayout.count (fun _ _ => rfl)
    (by decide) item entries
    (keyed.field (fun i : EventInfo => (rfl : i.count = (bare i).count))) fit.count
  have long : (entries.length : Int) ≤ sum32 LeveldbInternalLayout.count entries :=
    length_le_sum positive
  have short : entries.length < 2 ^ 31 := by
    have := fit.count.2
    omega
  have counted : 0 < ((entries.map item).foldl addItem blank).count := by
    rw [Int32.lt_iff_toInt_lt, counts]
    exact lt_of_lt_of_le (Int.natCast_pos.mpr some) long
  have divisor : Int32.ofNat (entries.map item).length ≠ 0 := by
    intro zero
    have value := congrArg Int32.toInt zero
    rw [lengths, Int32.toInt_ofNat_of_lt short] at value
    exact absurd value (by simpa using nonempty)
  have p10 := @toInt_sum32 EventInfo.valueP10 LeveldbInternalLayout.p10 (fun _ _ => rfl)
    (by decide) item entries
    (keyed.field (fun i : EventInfo => (rfl : i.valueP10 = (bare i).valueP10))) fit.p10
  have p50 := @toInt_sum32 EventInfo.valueP50 LeveldbInternalLayout.p50 (fun _ _ => rfl)
    (by decide) item entries
    (keyed.field (fun i : EventInfo => (rfl : i.valueP50 = (bare i).valueP50))) fit.p50
  have p90 := @toInt_sum32 EventInfo.valueP90 LeveldbInternalLayout.p90 (fun _ _ => rfl)
    (by decide) item entries
    (keyed.field (fun i : EventInfo => (rfl : i.valueP90 = (bare i).valueP90))) fit.p90
  rw [SingleAgrees, info, summary, lines_eq, keys, List.map_singleton, List.map_singleton, all,
    List.singleton_inj, bare_collectGroup_iff _ counted divisor, lengths,
    divBySize_eq_div_iff _ some short, divBySize_eq_div_iff _ some short,
    divBySize_eq_div_iff _ some short, p10, p50, p90, PercentilesDivideAlike]

/-- A select that matches something has opened its database. -/
theorem handler_of_matched {s : StoreLevelDB} {env : LeveldbEnv} {cond : EventCond}
    {stat : EventSelect} (nonempty : s.matched env cond stat ≠ []) :
    (s.getLeveldbHandler env cond.service).1 ≠ none :=
  fun failed => nonempty (matched_none failed stat)

/-- Matched records with positive counts and one tag give one line with the
values of the summary exactly when their percentiles divide alike, and so do
records with one timestamp. -/
theorem single_group_iff (s : StoreLevelDB) (env : LeveldbEnv) (cond : EventCond)
    (lingerHint : Int64)
    (nonempty : s.matched env cond (prepare env.now lingerHint cond .zero) ≠ [])
    (positive : ∀ entry ∈ s.matched env cond (prepare env.now lingerHint cond .zero),
      0 < entry.2.count)
    (fit : SumsFit (s.matched env cond (prepare env.now lingerHint cond .zero))) :
    let stat := prepare env.now lingerHint cond .zero
    let entries := s.matched env cond stat
    ((∃ tag, ∀ entry ∈ entries, entry.1.tag = tag) →
      (SingleAgrees (s.selectEvStatByTag env cond stat).2.1 ↔ PercentilesDivideAlike entries)) ∧
    ((∃ timestamp, ∀ entry ∈ entries, timestampOf entry = timestamp) →
      (SingleAgrees (s.selectEvStatByTimestamp env cond stat).2.1 ↔
        PercentilesDivideAlike entries)) := by
  intro stat entries
  have opened := handler_of_matched nonempty
  constructor
  · rintro ⟨tag, single⟩
    rw [selectEvStatByTag, selectWith_matched, if_neg opened]
    exact keyed_tag.singleAgrees_iff nonempty positive fit single rfl (List.nil_append _)
  · rintro ⟨timestamp, single⟩
    rw [selectEvStatByTimestamp, selectWith_matched, if_neg opened]
    exact keyed_timestamp.singleAgrees_iff nonempty positive fit single rfl (List.nil_append _)

private def groupEnv : LeveldbEnv := ⟨fun _ => ⟨119, 1⟩, 1550000100, true, true⟩

private def groupCond : EventCond :=
  ⟨3600, bytes "svc", bytes "m", 0, [], [], .byTag, .none, .desc, 0⟩

/-- A store with one record, of the percentiles -1, for each entity. -/
private def stored (entities : List Bytes) : StoreLevelDB :=
  run insertStep (init (bytes "db") (bytes "heracles")) (entities.map fun entityIdx =>
    (groupEnv, ⟨bytes "svc", entityIdx, 1550000000, 10, bytes "m", bytes "a", 3, -3, -1, -1, -1,
      -1, -1, -1⟩))

theorem single_group_iff_pair :
    let s := stored [bytes "1", bytes "2"]
    let stat := prepare groupEnv.now 10 groupCond .zero
    (SingleAgrees (s.selectEvStatByTag groupEnv groupCond stat).2.1 ↔
      PercentilesDivideAlike (s.matched groupEnv groupCond stat)) ∧
    (SingleAgrees (s.selectEvStatByTimestamp groupEnv groupCond stat).2.1 ↔
      PercentilesDivideAlike (s.matched groupEnv groupCond stat)) := by
  have both := single_group_iff (stored [bytes "1", bytes "2"]) groupEnv groupCond 10
    (by decide +kernel) (by decide +kernel)
    ⟨by decide +kernel, by decide +kernel, by decide +kernel, by decide +kernel,
      by decide +kernel⟩
  exact ⟨both.1 ⟨bytes "a", by decide +kernel⟩, both.2 ⟨1550000000, by decide +kernel⟩⟩

/-- Three records with the percentiles -1: the summary has the percentiles -1 and
the line of their tag 1431655764. -/
theorem negative_percentiles_differ :
    ¬ ∀ (s : StoreLevelDB) (env : LeveldbEnv) (cond : EventCond) (lingerHint : Int64),
      s.matched env cond (prepare env.now lingerHint cond .zero) ≠ [] →
      (∀ entry ∈ s.matched env cond (prepare env.now lingerHint cond .zero),
        0 < entry.2.count) →
      SumsFit (s.matched env cond (prepare env.now lingerHint cond .zero)) →
      ((∃ tag, ∀ entry ∈ s.matched env cond (prepare env.now lingerHint cond .zero),
          entry.1.tag = tag) →
        SingleAgrees
          (s.selectEvStatByTag env cond (prepare env.now lingerHint cond .zero)).2.1) ∧
      ((∃ timestamp, ∀ entry ∈ s.matched env cond (prepare env.now lingerHint cond .zero),
          timestampOf entry = timestamp) →
        SingleAgrees
          (s.selectEvStatByTimestamp env cond (prepare env.now lingerHint cond .zero)).2.1) := by
  intro always
  have wrong := (always (stored [bytes "1", bytes "2", bytes "3"]) groupEnv groupCond 10
    (by decide +kernel) (by decide +kernel)
    ⟨by decide +kernel, by decide +kernel, by decide +kernel, by decide +kernel,
      by decide +kernel⟩).1 ⟨bytes "a", by decide +kernel⟩
  exact absurd wrong (by decide +kernel)

end Heracles.Business.StoreLevelDB
