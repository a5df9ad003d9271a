import Heracles.Business.SlotRecords

/-!
What the statistics of a record say about its events.

The extremes and percentiles are the order statistics of the collected 32-bit
values, unless the counter has come back to zero (`orderStats_iff`). Against the
64-bit values that were reported, a record is truthful only when nothing was cut:
the step fits into eight bits and every value into 32 (`truthful_iff`).
-/

namespace Heracles.Business

open Heracles.Base

/-! ### Order statistics -/

/-- The extremes and percentiles of values: the elements at the given places of
their ascending order, places that all lie inside. -/
structure OrderStats (values : List Int32) (stat : StatInfo) : Prop where
  inside : 0 < values.length ∧ values.length / 10 < values.length ∧
    values.length / 2 < values.length ∧ 9 * values.length / 10 < values.length
  min : (ordered values)[0]? = some stat.valueMin
  max : (ordered values)[values.length - 1]? = some stat.valueMax
  p10 : (ordered values)[values.length / 10]? = some stat.valueP10
  p50 : (ordered values)[values.length / 2]? = some stat.valueP50
  p90 : (ordered values)[9 * values.length / 10]? = some stat.valueP90
  ascending : stat.valueMin ≤ stat.valueP10 ∧ stat.valueP10 ≤ stat.valueP50 ∧
    stat.valueP50 ≤ stat.valueP90 ∧ stat.valueP90 ≤ stat.valueMax

theorem getElem?_ordered {values : List Int32} {i : Nat} (inside : i < values.length) :
    (ordered values)[i]? = some ((ordered values).getD i 0) := by
  have inside' : i < (ordered values).length := by rwa [length_ordered]
  rw [List.getD_eq_getElem _ _ inside', List.getElem?_eq_getElem inside']

/-- Statistics read off the ascending order are order statistics. -/
theorem orderStats_of_getD {values : List Int32} {stat : StatInfo} (some : 0 < values.length)
    (min : stat.valueMin = (ordered values).getD 0 0)
    (max : stat.valueMax = (ordered values).getD (values.length - 1) 0)
    (p10 : stat.valueP10 = (ordered values).getD (values.length / 10) 0)
    (p50 : stat.valueP50 = (ordered values).getD (values.length / 2) 0)
    (p90 : stat.valueP90 = (ordered values).getD (9 * values.length / 10) 0) :
    OrderStats values stat where
  inside := ⟨some, by omega, by omega, by omega⟩
  min := by rw [min, getElem?_ordered some]
  max := by rw [max, getElem?_ordered (by omega)]
  p10 := by rw [p10, getElem?_ordered (by omega)]
  p50 := by rw [p50, getElem?_ordered (by omega)]
  p90 := by rw [p90, getElem?_ordered (by omega)]
  ascending := by
    rw [min, max, p10, p50, p90]
    exact ⟨ordered_mono (by omega) (by omega) 0, ordered_mono (by omega) (by omega) 0,
      ordered_mono (by omega) (by omega) 0, ordered_mono (by omega) (by omega) 0⟩

theorem orderStats_emitted {values : List Int32} {stat : StatInfo} :
    OrderStats values stat.emitted ↔ OrderStats values stat :=
  ⟨fun h => ⟨h.inside, h.min, h.max, h.p10, h.p50, h.p90, h.ascending⟩,
    fun h => ⟨h.inside, h.min, h.max, h.p10, h.p50, h.p90, h.ascending⟩⟩

/-- The collected values of events. -/
def valuesOf (items : List EventData) : List Int32 := items.map fun item => item.value.toInt32

theorem gather_values_eq (items : List EventData) : (gather items).values = valuesOf items :=
  gather_values items

/-- With a counter that is not zero the statistics are those of the ascending
order. -/
theorem statOf_of_counted {items : List EventData} (counted : ¬ 2 ^ 32 ∣ items.length) :
    statOf items =
      { gather items with
        valueAvg := ((gather items).valueSum / (gather items).count.toInt64).toInt32
        valueMin := (ordered (valuesOf items)).getD 0 0
        valueMax := (ordered (valuesOf items)).getD ((valuesOf items).length - 1) 0
        valueP10 := (ordered (valuesOf items)).getD ((valuesOf items).length / 10) 0
        valueP50 := (ordered (valuesOf items)).getD ((valuesOf items).length / 2) 0
        valueP90 := (ordered (valuesOf items)).getD (9 * (valuesOf items).length / 10) 0
        values := [] } := by
  unfold statOf
  dsimp only
  rw [if_neg (mt (gather_count_eq_zero_iff items).mp counted), gather_values_eq, length_ordered]

/-- With a counter of zero nothing is computed. -/
theorem statOf_of_wrapped {items : List EventData} (wrapped : 2 ^ 32 ∣ items.length) :
    statOf items = { StatInfo.zero with valueSum := (gather items).valueSum } := by
  have zero := (gather_count_eq_zero_iff items).mpr wrapped
  unfold statOf
  dsimp only
  rw [if_pos zero, StatInfo.emitted, gather_eq, zero]
  rfl

/-- The emitted statistics are order statistics, unless the counter is zero and a
value is not. -/
theorem orderStats_statOf_iff {items : List EventData} (some : items ≠ []) :
    OrderStats (valuesOf items) (statOf items) ↔
      ¬ 2 ^ 32 ∣ items.length ∨ ∀ x ∈ valuesOf items, x = 0 := by
  have length : 0 < (valuesOf items).length := by
    rw [valuesOf, List.length_map]
    exact List.length_pos_iff.mpr some
  by_cases wrapped : 2 ^ 32 ∣ items.length
  · rw [statOf_of_wrapped wrapped]
    constructor
    · intro stats
      refine .inr fun x member => ?_
      have extremes := ordered_extremes member 0
      have min := stats.min
      have max := stats.max
      rw [getElem?_ordered length] at min
      rw [getElem?_ordered (by omega)] at max
      rw [Option.some.inj min, Option.some.inj max] at extremes
      exact le_antisymm extremes.2 extremes.1
    · rintro (counted | zeros)
      · exact absurd wrapped counted
      · have zeroAt {i : Nat} (inside : i < (valuesOf items).length) :
            0 = (ordered (valuesOf items)).getD i 0 :=
          (zeros _ (ordered_getD_mem inside 0)).symm
        exact orderStats_of_getD length (zeroAt length) (zeroAt (by omega)) (zeroAt (by omega))
          (zeroAt (by omega)) (zeroAt (by omega))
  · rw [statOf_of_counted wrapped]
    constructor
    · intro _
      exact .inl wrapped
    · intro _
      exact orderStats_of_getD length rfl rfl rfl rfl rfl

/-- The entry of a tag holds the statistics of its kept events. -/
theorem emitted_of_find? {nth : NthElement Int32} {data : List EventData} {tag : Bytes}
    {stat : StatInfo} (found : (calcEventInfoEachMetric nth data).find? tag = some stat) :
    group EventData.tag (firsts EventData.msgid data) tag ≠ [] ∧
      stat.emitted = statOf (group EventData.tag (firsts EventData.msgid data) tag) := by
  rw [calcEventInfoEachMetric_eq, OrdMap.find?_mapVal, OrdMap.find?_accumulate] at found
  by_cases none : group EventData.tag (firsts EventData.msgid data) tag = []
  · rw [if_pos none] at found
    cases found
  · rw [if_neg none] at found
    cases found
    exact ⟨none, emitted_calcStat nth _⟩

/-- The statistics of a tag are the order statistics of the values collected for
it exactly when the counter is not back at zero, or every value is zero. -/
theorem orderStats_iff (nth : NthElement Int32) (data : List EventData) (tag : Bytes)
    (stat : StatInfo) (found : (calcEventInfoEachMetric nth data).find? tag = some stat) :
    OrderStats (valuesOf (group EventData.tag (firsts EventData.msgid data) tag)) stat ↔
      ¬ 2 ^ 32 ∣ (group EventData.tag (firsts EventData.msgid data) tag).length ∨
        ∀ x ∈ valuesOf (group EventData.tag (firsts EventData.msgid data) tag), x = 0 := by
  obtain ⟨some, emitted⟩ := emitted_of_find? found
  rw [← orderStats_emitted, emitted]
  exact orderStats_statOf_iff some

/-- Three events of one tag. -/
theorem orderStats_crowd :
    OrderStats (valuesOf (group EventData.tag (firsts EventData.msgid (crowd 3)) []))
        ⟨3, 3, 1, 1, 1, 1, 1, 1, [1, 1, 1]⟩ ↔
      ¬ 2 ^ 32 ∣ (group EventData.tag (firsts EventData.msgid (crowd 3)) []).length ∨
        ∀ x ∈ valuesOf (group EventData.tag (firsts EventData.msgid (crowd 3)) []), x = 0 :=
  orderStats_iff (.bySorting Int32) (crowd 3) [] ⟨3, 3, 1, 1, 1, 1, 1, 1, [1, 1, 1]⟩
    (by decide +kernel)

theorem one_mem_crowd {n : Nat} (some : 0 < n) : 1 ∈ valuesOf (crowd n) :=
  List.mem_map.mpr ⟨_, mem_crowd some, rfl⟩

/-- Of 2^32 events with the value 1 the least value is said to be 0. -/
theorem crowd_without_stats :
    ∃ stat, (calcEventInfoEachMetric (.bySorting Int32) (crowd (2 ^ 32))).find? [] = some stat ∧
      ¬ OrderStats (valuesOf (crowd (2 ^ 32))) stat := by
  have kept : firsts EventData.msgid (crowd (2 ^ 32)) = crowd (2 ^ 32) :=
    firsts_of_nodup (crowd_distinct (by norm_num))
  have some : crowd (2 ^ 32) ≠ [] := by
    rw [← List.length_pos_iff, length_crowd]
    norm_num
  refine ⟨calcStat (.bySorting Int32) (gather (crowd (2 ^ 32))), ?_, ?_⟩
  · rw [calcEventInfoEachMetric_eq, kept, OrdMap.find?_mapVal, OrdMap.find?_accumulate, group_crowd,
      if_neg some]
    rfl
  · intro stats
    have emitted := orderStats_emitted.mpr stats
    rw [emitted_calcStat] at emitted
    rcases (orderStats_statOf_iff some).mp emitted with counted | zeros
    · rw [length_crowd] at counted
      exact counted (dvd_refl _)
    · exact absurd (zeros 1 (one_mem_crowd (by norm_num))) (by decide)

/-! ### What is narrowed -/

/-- The 64-bit values of events. -/
def reported (items : List EventData) : Set Int := {x | ∃ item ∈ items, item.value.toInt = x}

/-- A record says the truth about the step and the values of its slot. -/
structure Truthful (slot : EventsByTime) (r : EventInsert) : Prop where
  step : (r.step.toNat : Int) = slot.step.toInt
  min : IsLeast (reported (slot.tagged r.metric r.tag)) r.valueMin.toInt
  max : IsGreatest (reported (slot.tagged r.metric r.tag)) r.valueMax.toInt
  avg : r.valueMin ≤ r.valueAvg ∧ r.valueAvg ≤ r.valueMax

/-- The mean of values, computed with a 64-bit sum and a 32-bit count. -/
def wrappedMean (items : List EventData) : Int :=
  (((exactSum items).bmod (2 ^ 64)).tdiv ((items.length : Int).bmod (2 ^ 32))).bmod (2 ^ 32)

/-- The mean lies between the values: there are fewer than 2^31 of them, or the
wrapped mean of more happens to, or all are zero. -/
def MeanInside (items : List EventData) : Prop :=
  items.length < 2 ^ 31 ∨
  (¬ 2 ^ 32 ∣ items.length ∧ (∃ a ∈ items, a.value.toInt ≤ wrappedMean items) ∧
    ∃ b ∈ items, wrappedMean items ≤ b.value.toInt) ∨
  ∀ item ∈ items, item.value.toInt = 0

/-- A truncated quotient lies between the bounds of the exact one. -/
theorem tdiv_between {low high sum n : Int} (positive : 0 < n) (lower : n * low ≤ sum)
    (upper : sum ≤ n * high) : low ≤ sum.tdiv n ∧ sum.tdiv n ≤ high := by
  rcases Int.le_total 0 sum with above | below
  · rw [Int.tdiv_eq_ediv_of_nonneg above]
    exact ⟨Int.le_ediv_of_mul_le positive (by rwa [mul_comm] at lower),
      Int.ediv_le_of_le_mul positive (by rwa [mul_comm] at upper)⟩
  · have flipped : sum.tdiv n = -((-sum) / n) := by
      rw [← Int.tdiv_eq_ediv_of_nonneg (by omega), Int.neg_tdiv, neg_neg]
    have first : (-sum) / n ≤ -low := Int.ediv_le_of_le_mul positive (by linarith)
    have second : -high ≤ (-sum) / n := Int.le_ediv_of_mul_le positive (by linarith)
    rw [flipped]
    exact ⟨by omega, by omega⟩

theorem exactSum_bounds {items : List EventData} {low high : Int}
    (bounds : ∀ item ∈ items, low ≤ item.value.toInt ∧ item.value.toInt ≤ high) :
    items.length * low ≤ exactSum items ∧ exactSum items ≤ items.length * high := by
  induction items with
  | nil => simp [exactSum]
  | cons item items ih =>
      have head := bounds item List.mem_cons_self
      have tail := ih fun i member => bounds i (List.mem_cons_of_mem item member)
      simp only [exactSum, List.map_cons, List.sum_cons, List.length_cons, Nat.cast_add,
        Nat.cast_one, add_mul, one_mul] at tail ⊢
      exact ⟨by linarith [tail.1], by linarith [tail.2]⟩

/-- Fewer than 2^31 values of 32 bits have their mean between them. -/
theorem wrappedMean_inside {items : List EventData} (some : items ≠ [])
    (few : items.length < 2 ^ 31) {low high : Int} (range : Fits32 low ∧ Fits32 high)
    (bounds : ∀ item ∈ items, low ≤ item.value.toInt ∧ item.value.toInt ≤ high) :
    low ≤ wrappedMean items ∧ wrappedMean items ≤ high := by
  have positive : (0 : Int) < items.length := by exact_mod_cast List.length_pos_iff.mpr some
  have small : (items.length : Int) < 2 ^ 31 := by exact_mod_cast few
  obtain ⟨lower, upper⟩ := exactSum_bounds bounds
  obtain ⟨⟨low32, _⟩, ⟨_, high32⟩⟩ := range
  have sum : Fits64 (exactSum items) := by
    constructor
    · nlinarith
    · nlinarith
  have count : Fits32 (items.length : Int) := ⟨by omega, small⟩
  have between := tdiv_between positive lower upper
  rw [wrappedMean, bmod_of_fits sum, bmod32_eq_iff.mpr count, bmod32_eq_iff.mpr]
  · exact between
  · exact ⟨by omega, by omega⟩

section Truth

variable {items : List EventData}

theorem isLeast_reported_iff {x : Int} :
    IsLeast (reported items) x ↔
      (∃ item ∈ items, item.value.toInt = x) ∧ ∀ item ∈ items, x ≤ item.value.toInt := by
  simp [IsLeast, reported, lowerBounds]

theorem isGreatest_reported_iff {x : Int} :
    IsGreatest (reported items) x ↔
      (∃ item ∈ items, item.value.toInt = x) ∧ ∀ item ∈ items, item.value.toInt ≤ x := by
  simp [IsGreatest, reported, upperBounds]

/-- Values between two that fit fit. -/
theorem fits_of_extremes {low high : Int32} (least : IsLeast (reported items) low.toInt)
    (greatest : IsGreatest (reported items) high.toInt) :
    ∀ item ∈ items, Fits32 item.value.toInt := by
  intro item member
  have lower := (isLeast_reported_iff.mp least).2 item member
  have upper := (isGreatest_reported_iff.mp greatest).2 item member
  have lowBound := low.le_toInt
  have highBound := high.toInt_lt
  exact ⟨by omega, by omega⟩

theorem toInt_toInt32_of_fits {v : Int64} (fits : Fits32 v.toInt) : v.toInt32.toInt = v.toInt := by
  rw [Int64.toInt_toInt32, bmod32_eq_iff.mpr fits]

/-- The extremes of the collected values are those of values that fit. -/
theorem extremes_of_fits (some : items ≠ []) (fits : ∀ item ∈ items, Fits32 item.value.toInt) :
    IsLeast (reported items) ((ordered (valuesOf items)).getD 0 0).toInt ∧
      IsGreatest (reported items)
        ((ordered (valuesOf items)).getD ((valuesOf items).length - 1) 0).toInt := by
  have length : 0 < (valuesOf items).length := by
    rw [valuesOf, List.length_map]
    exact List.length_pos_iff.mpr some
  have found {i : Nat} (inside : i < (valuesOf items).length) :
      ∃ item ∈ items, item.value.toInt = ((ordered (valuesOf items)).getD i 0).toInt := by
    obtain ⟨item, member, same⟩ := List.mem_map.mp (ordered_getD_mem inside 0)
    exact ⟨item, member, by rw [← same, toInt_toInt32_of_fits (fits item member)]⟩
  have between : ∀ item ∈ items, _ := fun item member =>
    ordered_extremes (List.mem_map_of_mem (f := fun i : EventData => i.value.toInt32) member) 0
  refine ⟨isLeast_reported_iff.mpr ⟨found length, fun item member => ?_⟩,
    isGreatest_reported_iff.mpr ⟨found (by omega), fun item member => ?_⟩⟩
  · rw [← toInt_toInt32_of_fits (fits item member)]
    exact Int32.le_iff_toInt_le.mp (between item member).1
  · rw [← toInt_toInt32_of_fits (fits item member)]
    exact Int32.le_iff_toInt_le.mp (between item member).2

/-- The average of a counter that is not zero is the wrapped mean. -/
theorem toInt_average :
    ((gather items).valueSum / (gather items).count.toInt64).toInt32.toInt = wrappedMean items := by
  rw [Int64.toInt_toInt32, Int64.toInt_div, Int32.toInt_toInt64, toInt_gather_sum,
    toInt_gather_count, wrappedMean]
  exact Int.bmod_bmod_of_dvd (by norm_num)

/-- What of `Truthful` is about the values. -/
structure TruthfulValues (items : List EventData) (stat : StatInfo) : Prop where
  min : IsLeast (reported items) stat.valueMin.toInt
  max : IsGreatest (reported items) stat.valueMax.toInt
  avg : stat.valueMin ≤ stat.valueAvg ∧ stat.valueAvg ≤ stat.valueMax

/-- Statistics that were not computed are those of zeros. -/
theorem truthfulValues_zero_iff (some : items ≠ []) {stat : StatInfo}
    (zero : stat.valueMin = 0 ∧ stat.valueMax = 0 ∧ stat.valueAvg = 0) :
    TruthfulValues items stat ↔ ∀ item ∈ items, item.value.toInt = 0 := by
  obtain ⟨min, max, avg⟩ := zero
  constructor
  · intro truthful item member
    have lower := (isLeast_reported_iff.mp truthful.min).2 item member
    have upper := (isGreatest_reported_iff.mp truthful.max).2 item member
    rw [min] at lower
    rw [max] at upper
    exact Int.le_antisymm upper lower
  · intro zeros
    obtain ⟨item, member⟩ := List.exists_mem_of_ne_nil _ some
    refine ⟨?_, ?_, ?_⟩
    · rw [min]
      exact isLeast_reported_iff.mpr ⟨⟨item, member, zeros item member⟩,
        fun i inside => (zeros i inside).ge⟩
    · rw [max]
      exact isGreatest_reported_iff.mpr ⟨⟨item, member, zeros item member⟩,
        fun i inside => (zeros i inside).le⟩
    · rw [min, max, avg]
      exact ⟨le_refl _, le_refl _⟩

/-- The extremes and the average of a record are true exactly when every value
fits into 32 bits and the mean is between them. -/
theorem truthfulValues_iff (some : items ≠ []) :
    TruthfulValues items (statOf items) ↔
      (∀ item ∈ items, Fits32 item.value.toInt) ∧ MeanInside items := by
  constructor
  · intro truthful
    have fits := fits_of_extremes truthful.min truthful.max
    refine ⟨fits, ?_⟩
    by_cases wrapped : 2 ^ 32 ∣ items.length
    · refine .inr (.inr ?_)
      rw [statOf_of_wrapped wrapped] at truthful
      exact (truthfulValues_zero_iff some ⟨rfl, rfl, rfl⟩).mp truthful
    · refine .inr (.inl ⟨wrapped, ?_⟩)
      obtain ⟨a, insideA, least⟩ := (isLeast_reported_iff.mp truthful.min).1
      obtain ⟨b, insideB, greatest⟩ := (isGreatest_reported_iff.mp truthful.max).1
      have avg := truthful.avg
      rw [Int32.le_iff_toInt_le, Int32.le_iff_toInt_le, ← least, ← greatest,
        statOf_of_counted wrapped] at avg
      dsimp only at avg
      rw [toInt_average] at avg
      exact ⟨⟨a, insideA, avg.1⟩, ⟨b, insideB, avg.2⟩⟩
  · rintro ⟨fits, inside⟩
    by_cases wrapped : 2 ^ 32 ∣ items.length
    · rw [statOf_of_wrapped wrapped]
      refine (truthfulValues_zero_iff some ⟨rfl, rfl, rfl⟩).mpr ?_
      have length := List.length_pos_iff.mpr some
      rcases inside with few | ⟨counted, _⟩ | zeros
      · obtain ⟨k, multiple⟩ := wrapped
        omega
      · exact absurd wrapped counted
      · exact zeros
    · obtain ⟨least, greatest⟩ := extremes_of_fits some fits
      rw [statOf_of_counted wrapped]
      refine ⟨least, greatest, ?_⟩
      rw [Int32.le_iff_toInt_le, Int32.le_iff_toInt_le, toInt_average]
      have lower := (isLeast_reported_iff.mp least).2
      have upper := (isGreatest_reported_iff.mp greatest).2
      have range (x : Int32) : Fits32 x.toInt := ⟨x.le_toInt, x.toInt_lt⟩
      rcases inside with few | ⟨_, ⟨a, insideA, above⟩, ⟨b, insideB, below⟩⟩ | zeros
      · exact wrappedMean_inside some few ⟨range _, range _⟩ fun item member =>
          ⟨lower item member, upper item member⟩
      · exact ⟨(lower a insideA).trans above, below.trans (upper b insideB)⟩
      · obtain ⟨item, member⟩ := List.exists_mem_of_ne_nil _ some
        have sum := @exactSum_bounds items 0 0 fun item member =>
          ⟨(zeros item member).ge, (zeros item member).le⟩
        have zero : exactSum items = 0 := by
          rw [mul_zero] at sum
          exact Int.le_antisymm sum.2 sum.1
        have mean : wrappedMean items = 0 := by
          rw [wrappedMean, zero]
          simp
        rw [mean, ← zeros item member]
        exact ⟨lower item member, upper item member⟩

end Truth

/-- Cutting to eight bits keeps exactly the numbers they hold. -/
theorem toNat_cut_iff (n : Int64) :
    (n.toUInt64.toUInt8.toNat : Int) = n.toInt ↔ 0 ≤ n.toInt ∧ n.toInt < 256 := by
  have bound := n.toUInt64.toUInt8.toNat_lt
  constructor
  · intro same
    omega
  · rintro ⟨low, high⟩
    have nonneg : 0 ≤ n := Int64.le_iff_toInt_le.mpr low
    have clamped := Int64.toNat_toUInt64_of_le nonneg
    rw [Int64.toNatClampNeg] at clamped
    rw [UInt64.toNat_toUInt8, clamped]
    omega

/-- A record of a slot is truthful exactly when the step fits into eight bits, the
values of its events fit into 32, and their mean is between them. -/
theorem truthful_iff (nth : NthElement Int32) (service entityIdx : Bytes) (slot : EventsByTime)
    (r : EventInsert) (member : r ∈ doProcessEvent nth slot (statFor service entityIdx slot)) :
    Truthful slot r ↔
      (0 ≤ slot.step.toInt ∧ slot.step.toInt < 256) ∧
      (∀ item ∈ slot.tagged r.metric r.tag, Fits32 item.value.toInt) ∧
      MeanInside (slot.tagged r.metric r.tag) := by
  obtain ⟨some, form⟩ := (mem_doProcessEvent nth slot _).mp member
  have step : r.step = slot.step.toUInt64.toUInt8 := by
    rw [form]
    rfl
  have stepFits : (r.step.toNat : Int) = slot.step.toInt ↔
      0 ≤ slot.step.toInt ∧ slot.step.toInt < 256 := by
    rw [step]
    exact toNat_cut_iff slot.step
  have values : TruthfulValues (slot.tagged r.metric r.tag) (statOf (slot.tagged r.metric r.tag)) ↔
      IsLeast (reported (slot.tagged r.metric r.tag)) r.valueMin.toInt ∧
      IsGreatest (reported (slot.tagged r.metric r.tag)) r.valueMax.toInt ∧
      (r.valueMin ≤ r.valueAvg ∧ r.valueAvg ≤ r.valueMax) := by
    have fields : r.valueMin = (statOf (slot.tagged r.metric r.tag)).valueMin ∧
        r.valueMax = (statOf (slot.tagged r.metric r.tag)).valueMax ∧
        r.valueAvg = (statOf (slot.tagged r.metric r.tag)).valueAvg := by
      rw [form]
      exact ⟨rfl, rfl, rfl⟩
    rw [fields.1, fields.2.1, fields.2.2]
    exact ⟨fun h => ⟨h.min, h.max, h.avg⟩, fun h => ⟨h.1, h.2.1, h.2.2⟩⟩
  rw [← truthfulValues_iff some, values, ← stepFits]
  exact ⟨fun h => ⟨h.step, h.min, h.max, h.avg⟩, fun h => ⟨h.1, h.2.1, h.2.2.1, h.2.2.2⟩⟩

theorem truthful_iff_crowded :
    Truthful (crowded 3) ⟨bytes "s", [], 3, 3, bytes "m", [], 3, 3, 1, 1, 1, 1, 1, 1⟩ ↔
      (0 ≤ (crowded 3).step.toInt ∧ (crowded 3).step.toInt < 256) ∧
      (∀ item ∈ (crowded 3).tagged (bytes "m") [], Fits32 item.value.toInt) ∧
      MeanInside ((crowded 3).tagged (bytes "m") []) :=
  truthful_iff (.bySorting Int32) (bytes "s") [] (crowded 3)
    ⟨bytes "s", [], 3, 3, bytes "m", [], 3, 3, 1, 1, 1, 1, 1, 1⟩ (by decide +kernel)

/-- A slot of 300 seconds with one event of the value 2^32 + 5. -/
def wide : EventsByTime :=
  ⟨0, 300, 300,
    ⟨[(bytes "m", [⟨1, bytes "m", [], 4294967301⟩])], List.pairwise_singleton _ _⟩⟩

/-- Its record has the step 44 and the extremes 5. -/
theorem wide_narrowed :
    ∃ r ∈ doProcessEvent (.bySorting Int32) wide (statFor (bytes "s") [] wide),
      r.step = 44 ∧ r.valueMin = 5 ∧ r.valueMax = 5 ∧ ¬ Truthful wide r := by
  refine ⟨⟨bytes "s", [], 300, 44, bytes "m", [], 1, 4294967301, 5, 5, 5, 5, 5, 5⟩,
    by decide +kernel, rfl, rfl, rfl, fun truthful => ?_⟩
  exact absurd truthful.step (by decide)

end Heracles.Business
