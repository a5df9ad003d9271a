import Heracles.Business.OrderStats
import Heracles.Business.Totals

/-!
When the summary of a select is exact.

Counts and percentiles of the matched records are added up in `int32_t` before
anything is divided. `summary_exact_iff`: for records that are consistent in
themselves, the summary has the sum of the counts and the means of the
percentiles exactly when these sums are 32-bit integers, however many records
there are; the average is then between the extremes.
-/

namespace Heracles.Business.StoreLevelDB

open Heracles.Base

/-! ### Division of a wrapped sum -/

/-- Dividing by fewer than 2^31 shows whether a sum was wrapped. -/
theorem tdiv_wrapped_iff {total : Int} {n : Nat} (positive : 0 < n) (small : n < 2 ^ 31) :
    (total.bmod (2 ^ 32)).tdiv n = total.tdiv n ↔ Fits32 total := by
  constructor
  · intro same
    have divisor : (0 : Int) < n := Int.natCast_pos.mpr positive
    have wrapped := Int.mul_tdiv_add_tmod (total.bmod (2 ^ 32)) n
    have whole := Int.mul_tdiv_add_tmod total n
    rw [same] at wrapped
    -- both are the same multiple of n, up to a remainder each
    have aboveWrapped := Int.lt_tmod_of_pos (total.bmod (2 ^ 32)) divisor
    have belowWrapped := Int.tmod_lt_of_pos (total.bmod (2 ^ 32)) divisor
    have above := Int.lt_tmod_of_pos total divisor
    have below := Int.tmod_lt_of_pos total divisor
    obtain ⟨turns, multiple⟩ : (2 ^ 32 : Int) ∣ total.bmod (2 ^ 32) - total := Int.dvd_bmod_sub_self
    set product := (n : Int) * total.tdiv n
    refine bmod32_eq_iff.mp ?_
    omega
  · intro fits
    rw [bmod32_eq_iff.mpr fits]

/-- A 32-bit number divided by a positive `int`. -/
theorem toInt_div_ofNat (total : Int32) {n : Nat} (positive : 0 < n) (small : n < 2 ^ 31) :
    (total / Int32.ofNat n).toInt = total.toInt.tdiv n := by
  have low := total.le_toInt
  have high := total.toInt_lt
  have between := @tdiv_between (-2 ^ 31) (2 ^ 31 - 1) total.toInt n (Int.natCast_pos.mpr positive)
    (by omega) (by omega)
  rw [Int32.toInt_div, Int32.toInt_ofNat_of_lt small]
  exact bmod32_eq_iff.mpr ⟨between.1, by omega⟩

/-! ### Consistent records -/

/-- A stored record whose mean and percentiles lie between its extremes. -/
structure Consistent (data : LeveldbInternalLayout) : Prop where
  positive : 0 < data.count
  low : data.count.toInt * data.min.toInt ≤ data.sum.toInt
  high : data.sum.toInt ≤ data.count.toInt * data.max.toInt
  p10 : data.min ≤ data.p10 ∧ data.p10 ≤ data.max
  p50 : data.min ≤ data.p50 ∧ data.p50 ≤ data.max
  p90 : data.min ≤ data.p90 ∧ data.p90 ≤ data.max

instance (data : LeveldbInternalLayout) : Decidable (Consistent data) :=
  decidable_of_iff (0 < data.count ∧ data.count.toInt * data.min.toInt ≤ data.sum.toInt ∧
      data.sum.toInt ≤ data.count.toInt * data.max.toInt ∧
      (data.min ≤ data.p10 ∧ data.p10 ≤ data.max) ∧
      (data.min ≤ data.p50 ∧ data.p50 ≤ data.max) ∧ data.min ≤ data.p90 ∧ data.p90 ≤ data.max)
    ⟨fun ⟨positive, low, high, p10, p50, p90⟩ => ⟨positive, low, high, p10, p50, p90⟩,
      fun ok => ⟨ok.positive, ok.low, ok.high, ok.p10, ok.p50, ok.p90⟩⟩

/-- The summary has the sum of the counts and the means of the percentiles, and
its average is between its extremes. -/
structure ExactSummary (entries : List Entry) (summary : EventInfo) : Prop where
  count : summary.count.toInt = sum32 LeveldbInternalLayout.count entries
  p10 : summary.valueP10.toInt = (sum32 LeveldbInternalLayout.p10 entries).tdiv entries.length
  p50 : summary.valueP50.toInt = (sum32 LeveldbInternalLayout.p50 entries).tdiv entries.length
  p90 : summary.valueP90.toInt = (sum32 LeveldbInternalLayout.p90 entries).tdiv entries.length
  average : summary.valueMin ≤ summary.valueAvg ∧ summary.valueAvg ≤ summary.valueMax

/-- The sums that are built up in `int32_t` are 32-bit integers. -/
structure SumsFit32 (entries : List Entry) : Prop where
  count : Fits32 (sum32 LeveldbInternalLayout.count entries)
  p10 : Fits32 (sum32 LeveldbInternalLayout.p10 entries)
  p50 : Fits32 (sum32 LeveldbInternalLayout.p50 entries)
  p90 : Fits32 (sum32 LeveldbInternalLayout.p90 entries)

section Entries

variable {entries : List Entry}

theorem length_le_counts (consistent : ∀ entry ∈ entries, Consistent entry.2) :
    (entries.length : Int) ≤ sum32 LeveldbInternalLayout.count entries :=
  length_le_sum fun entry member => (consistent entry member).positive

/-- The sum of the sums lies between the sum of the counts times the bounds of
all values. -/
theorem sum64_between (consistent : ∀ entry ∈ entries, Consistent entry.2) {least greatest : Int}
    (bounds : ∀ entry ∈ entries, least ≤ entry.2.min.toInt ∧ entry.2.max.toInt ≤ greatest) :
    sum32 LeveldbInternalLayout.count entries * least ≤ sum64 entries ∧
      sum64 entries ≤ sum32 LeveldbInternalLayout.count entries * greatest := by
  induction entries with
  | nil => simp [sum32, sum64]
  | cons entry entries ih =>
      have tail := ih (fun e member => consistent e (List.mem_cons_of_mem entry member))
        (fun e member => bounds e (List.mem_cons_of_mem entry member))
      have ok := consistent entry List.mem_cons_self
      have head := bounds entry List.mem_cons_self
      have counted : 0 ≤ entry.2.count.toInt := (Int32.lt_iff_toInt_lt.mp ok.positive).le
      have low := (mul_le_mul_of_nonneg_left head.1 counted).trans ok.low
      have high := ok.high.trans (mul_le_mul_of_nonneg_left head.2 counted)
      simp only [sum32, sum64, List.map_cons, List.sum_cons, add_mul] at tail ⊢
      exact ⟨add_le_add low tail.1, add_le_add high tail.2⟩

/-- The average of a summary whose count is not wrapped is between its extremes. -/
theorem average_between (nonempty : entries ≠ [])
    (consistent : ∀ entry ∈ entries, Consistent entry.2)
    (fits : Fits32 (sum32 LeveldbInternalLayout.count entries)) :
    let total := (entries.map fun entry => itemOf entry.2).foldl addItem blank
    total.valueMin ≤ (total.valueSum / total.count.toInt64).toInt32 ∧
      (total.valueSum / total.count.toInt64).toInt32 ≤ total.valueMax := by
  intro total
  have some : (0 : Int) < entries.length :=
    Int.natCast_pos.mpr (List.length_pos_of_ne_nil nonempty)
  have long := length_le_counts consistent
  have count : total.count.toInt = sum32 LeveldbInternalLayout.count entries :=
    @toInt_sum32 EventInfo.count _ (fun _ _ => rfl) (by decide) _ _ (fun _ => rfl) fits
  obtain ⟨_, least, _⟩ := foldl_addItem_valueMin blank (entries.map fun entry => itemOf entry.2)
  obtain ⟨_, greatest, _⟩ := foldl_addItem_valueMax blank (entries.map fun entry => itemOf entry.2)
  have between := sum64_between consistent fun entry member =>
    ⟨Int32.le_iff_toInt_le.mp (least _ (List.mem_map_of_mem member)),
      Int32.le_iff_toInt_le.mp (greatest _ (List.mem_map_of_mem member))⟩
  have mean : total.valueMin.toInt ≤ _ ∧ _ ≤ total.valueMax.toInt :=
    tdiv_between (some.trans_le long) between.1 between.2
  have lowest := total.valueMin.le_toInt
  have highest := total.valueMax.toInt_lt
  have sum : total.valueSum.toInt = sum64 entries := by
    have wrapped := toInt_foldl_addItem_valueSum blank (entries.map fun entry => itemOf entry.2)
    have zero : blank.valueSum.toInt = 0 := by decide
    rw [zero, zero_add, List.map_map] at wrapped
    refine wrapped.trans (bmod_of_fits (n := sum64 entries) ?_)
    obtain ⟨_, below⟩ := fits
    constructor
    · nlinarith [between.1]
    · nlinarith [between.2]
  have average : (total.valueSum / total.count.toInt64).toInt32.toInt =
      (sum64 entries).tdiv (sum32 LeveldbInternalLayout.count entries) := by
    rw [Int64.toInt_toInt32, Int64.toInt_div, Int32.toInt_toInt64, sum, count,
      Int.bmod_bmod_of_dvd (by norm_num)]
    exact bmod32_eq_iff.mpr ⟨by omega, by omega⟩
  rw [Int32.le_iff_toInt_le, Int32.le_iff_toInt_le, average]
  exact mean

/-- A percentile of a summary is exact exactly when its sum is not wrapped. -/
theorem percentile_iff {field : EventInfo → Int32} {value : LeveldbInternalLayout → Int32}
    (adds : ∀ total item, field (addItem total item) = field total + field item)
    (blankZero : (field blank).toInt = 0) (values : ∀ data, field (itemOf data) = value data)
    (some : 0 < entries.length) (small : entries.length < 2 ^ 31) :
    (field ((entries.map fun entry => itemOf entry.2).foldl addItem blank) /
        Int32.ofNat entries.length).toInt = (sum32 value entries).tdiv entries.length ↔
      Fits32 (sum32 value entries) := by
  have total : (field ((entries.map fun entry => itemOf entry.2).foldl addItem blank)).toInt =
      (sum32 value entries).bmod (2 ^ 32) := by
    rw [toInt_foldl_addItem32 adds, blankZero, zero_add, List.map_map, sum32]
    simp only [Function.comp_def, values]
  rw [toInt_div_ofNat _ some small, total, tdiv_wrapped_iff some small]

/-- The summary of consistent records is exact exactly when the sums fit. -/
theorem summarize_exact_iff (consistent : ∀ entry ∈ entries, Consistent entry.2) :
    ExactSummary entries (summarize (entries.map fun entry => itemOf entry.2)) ↔
      SumsFit32 entries := by
  by_cases nonempty : entries = []
  · subst nonempty
    exact ⟨fun _ => ⟨by decide, by decide, by decide, by decide⟩,
      fun _ => ⟨rfl, by decide, by decide, by decide, by decide⟩⟩
  · have some := List.length_pos_of_ne_nil nonempty
    have long := length_le_counts consistent
    have counted : (summarize (entries.map fun entry => itemOf entry.2)).count.toInt =
        (sum32 LeveldbInternalLayout.count entries).bmod (2 ^ 32) := by
      rw [toInt_summarize_count, List.map_map]
      rfl
    by_cases fits : Fits32 (sum32 LeveldbInternalLayout.count entries)
    · have small : entries.length < 2 ^ 31 := by
        have := fits.2
        omega
      set total := (entries.map fun entry => itemOf entry.2).foldl addItem blank with total_def
      have count : total.count.toInt = sum32 LeveldbInternalLayout.count entries :=
        @toInt_sum32 EventInfo.count _ (fun _ _ => rfl) (by decide) _ _ (fun _ => rfl) fits
      have divides : total.count ≠ 0 ∧ Int32.ofNat entries.length ≠ 0 := by
        constructor
        · intro zero
          rw [zero] at count
          change 0 = _ at count
          omega
        · intro zero
          have value := congrArg Int32.toInt zero
          rw [Int32.toInt_ofNat_of_lt small] at value
          change (entries.length : Int) = 0 at value
          omega
      have p10 := @percentile_iff entries EventInfo.valueP10 _ (fun _ _ => rfl) (by decide)
        (fun _ => rfl) some small
      have p50 := @percentile_iff entries EventInfo.valueP50 _ (fun _ _ => rfl) (by decide)
        (fun _ => rfl) some small
      have p90 := @percentile_iff entries EventInfo.valueP90 _ (fun _ _ => rfl) (by decide)
        (fun _ => rfl) some small
      rw [summarize, List.length_map, if_pos divides]
      constructor
      · rintro ⟨_, exact10, exact50, exact90, _⟩
        exact ⟨fits, p10.mp exact10, p50.mp exact50, p90.mp exact90⟩
      · rintro ⟨_, fits10, fits50, fits90⟩
        exact ⟨count, p10.mpr fits10, p50.mpr fits50, p90.mpr fits90,
          average_between nonempty consistent fits⟩
    · constructor
      · intro exact
        exact absurd (bmod32_eq_iff.mp (counted.symm.trans exact.count)) fits
      · intro fit
        exact absurd fit.count fits

end Entries

/-! ### Selects -/

/-- The summary of every select is folded from the matched records. -/
theorem summary_selectEvStat
    (stdSort : (EventInfo → EventInfo → Bool) → List EventInfo → List EventInfo)
    (s : StoreLevelDB) (env : LeveldbEnv) (cond : EventCond) (lingerHint : Int64) :
    (s.selectEvStat stdSort env cond .zero lingerHint).2.1.summary =
      summarize ((s.matched env cond (prepare env.now lingerHint cond .zero)).map
        fun entry => itemOf entry.2) := by
  have nothing : EventInfo.zero = summarize [] := by decide
  by_cases failed : (s.getLeveldbHandler env cond.service).1 = none
  · rw [matched_none failed, List.map_nil, ← nothing, selectEvStat]
    split
    · rfl
    · cases cond.groupby with
      | none => rw [selectEvStatByNone, selectWith_matched, if_pos failed]; rfl
      | byTimestamp =>
          simp only [selectEvStatByTimestamp, selectWith_matched, if_pos failed]
          rfl
      | byTag =>
          simp only [selectEvStatByTag, selectWith_matched, if_pos failed]
          rfl
  · have named : cond.service ≠ [] := by
      intro anonymous
      rw [anonymous] at failed
      exact failed rfl
    rw [selectEvStat, if_neg named]
    cases cond.groupby with
    | none =>
        rw [selectEvStatByNone, selectWith_matched, if_neg failed]
        rfl
    | byTimestamp =>
        simp only [selectEvStatByTimestamp, selectWith_matched, if_neg failed]
        exact keyed_timestamp.summarize_eq _
    | byTag =>
        simp only [selectEvStatByTag, selectWith_matched, if_neg failed]
        exact keyed_tag.summarize_eq _

/-- The summary of a select that matches consistent records is exact exactly when
the sums of their counts and of their percentiles are 32-bit integers. -/
theorem summary_exact_iff
    (stdSort : (EventInfo → EventInfo → Bool) → List EventInfo → List EventInfo)
    (s : StoreLevelDB) (env : LeveldbEnv) (cond : EventCond) (lingerHint : Int64)
    (consistent : ∀ entry ∈ s.matched env cond (prepare env.now lingerHint cond .zero),
      Consistent entry.2) :
    ExactSummary (s.matched env cond (prepare env.now lingerHint cond .zero))
        (s.selectEvStat stdSort env cond .zero lingerHint).2.1.summary ↔
      SumsFit32 (s.matched env cond (prepare env.now lingerHint cond .zero)) := by
  rw [summary_selectEvStat]
  exact summarize_exact_iff consistent

private def busyEnv : LeveldbEnv := ⟨fun _ => ⟨119, 1⟩, 1550000100, true, true⟩

private def busyCond : EventCond :=
  ⟨3600, bytes "svc", bytes "m", 0, [], [], .none, .none, .desc, 0⟩

/-- A store with one event of the same value for each entity. -/
private def busy (value : Int32) (entities : List Bytes) : StoreLevelDB :=
  run insertStep (init (bytes "db") (bytes "heracles")) (entities.map fun entityIdx =>
    (busyEnv, ⟨bytes "svc", entityIdx, 1550000000, 10, bytes "m", bytes "a", 1, value.toInt64,
      value, value, value, value, value, value⟩))

theorem summary_exact_iff_pair :
    let s := busy 1000000000 [bytes "1", bytes "2"]
    let entries := s.matched busyEnv busyCond (prepare busyEnv.now 10 busyCond .zero)
    entries.length = 2 ∧
      (ExactSummary entries
          (s.selectEvStat (fun _ l => l) busyEnv busyCond .zero 10).2.1.summary ↔
        SumsFit32 entries) :=
  ⟨by decide +kernel, summary_exact_iff (fun _ l => l) (busy 1000000000 [bytes "1", bytes "2"])
    busyEnv busyCond 10 (by decide +kernel)⟩

/-- Two events with the value 2^31 - 1: the percentiles of the summary are -1. -/
theorem percentiles_wrap :
    ¬ ∀ (stdSort : (EventInfo → EventInfo → Bool) → List EventInfo → List EventInfo)
      (s : StoreLevelDB) (env : LeveldbEnv) (cond : EventCond) (lingerHint : Int64),
      (∀ entry ∈ s.matched env cond (prepare env.now lingerHint cond .zero),
        Consistent entry.2) →
      ExactSummary (s.matched env cond (prepare env.now lingerHint cond .zero))
        (s.selectEvStat stdSort env cond .zero lingerHint).2.1.summary := by
  intro always
  have exact := always (fun _ l => l) (busy 2147483647 [bytes "1", bytes "2"]) busyEnv busyCond 10
    (by decide +kernel)
  exact absurd exact.p10 (by decide +kernel)

end Heracles.Business.StoreLevelDB
