import Heracles.Business.StoreScan

/-!
Keys of the LevelDB store and the order of their parts.

`keyText` is the text a key is made of before it is cut to the buffer. Without
`#` in its fields it splits into them again (`splitKey_keyText`). Timestamps from
0 to 8999999999 have ten-digit inverses (`length_invTime`), so within one metric
keys are ordered by descending timestamp, and the two bounds of a scan cut out
the half-open window `start - interval < timestamp ≤ start` of that metric and
nothing else (`inWindow_keyText_iff`).
-/

namespace Heracles.Business.StoreLevelDB

open Heracles.Base

/-! ### The text of a key -/

/-- The text of a key. -/
def keyText (metric : Bytes) (time : Nat) (tag entityIdx : Bytes) : Bytes :=
  metric ++ 35 :: (decimal time ++ 35 :: (tag ++ 35 :: entityIdx))

/-- The inverted timestamp as `%lu` prints it. -/
def invTime (t : Int64) : Nat := (timestampExchange t).toUInt64.toNat

theorem cstrKey_eq (stat : EventInsert) :
    cstrKey stat = snprintf 4096 (keyText (cstr stat.metric) (invTime stat.timestamp)
      (cstr (storedTag stat)) (cstr stat.entityIdx)) := by
  have separator : bytes "#" = [35] := by decide
  rw [cstrKey, separator, keyText, invTime]
  rw [List.append_assoc, List.append_assoc, List.append_assoc, List.append_assoc, List.append_assoc,
    List.singleton_append, List.singleton_append, List.singleton_append]

theorem hash_not_mem_decimal (n : Nat) : (35 : UInt8) ∉ decimal n := fun member =>
  absurd (isDigit_of_mem_decimal member) (by decide)

section Fields

variable {metric tag entityIdx : Bytes} (metricPlain : 35 ∉ metric) (tagPlain : 35 ∉ tag)
  (entityPlain : 35 ∉ entityIdx)

include metricPlain tagPlain entityPlain

theorem splitOn_keyText (time : Nat) :
    (keyText metric time tag entityIdx).splitOn 35 = [metric, decimal time, tag, entityIdx] := by
  rw [keyText, List.splitOn_append_cons_self_of_not_mem metricPlain,
    List.splitOn_append_cons_self_of_not_mem (hash_not_mem_decimal time),
    List.splitOn_append_cons_self_of_not_mem tagPlain, List.splitOn_eq_singleton entityPlain]

/-- A key text is read as the fields it was made of. -/
theorem splitKey_keyText (time : Nat) (metric_ne : metric ≠ []) (tag_ne : tag ≠ []) :
    splitKey (keyText metric time tag entityIdx) =
      some ⟨metric, decimal time, tag, entityIdx⟩ := by
  have fields := splitOn_keyText metricPlain tagPlain entityPlain time
  simp [splitKey, fields, metric_ne, tag_ne, decimal_ne_nil]

theorem keyText_injective {metric' tag' entityIdx' : Bytes} {time time' : Nat}
    (metricPlain' : 35 ∉ metric') (tagPlain' : 35 ∉ tag') (entityPlain' : 35 ∉ entityIdx')
    (same : keyText metric time tag entityIdx = keyText metric' time' tag' entityIdx') :
    metric = metric' ∧ time = time' ∧ tag = tag' ∧ entityIdx = entityIdx' := by
  have fields := splitOn_keyText metricPlain tagPlain entityPlain time
  have fields' := splitOn_keyText metricPlain' tagPlain' entityPlain' time'
  rw [same, fields'] at fields
  simp only [List.cons.injEq, and_true] at fields
  exact ⟨fields.1.symm, (decimal_injective fields.2.1).symm, fields.2.2.1.symm,
    fields.2.2.2.symm⟩

end Fields

/-! ### Inverted timestamps -/

theorem toInt_timestampExchange {t : Int64} (lower : 0 ≤ t.toInt) :
    (timestampExchange t).toInt = 9999999999 - t.toInt := by
  have upper := t.toInt_lt
  have bound : (9999999999 : Int64).toInt = 9999999999 := by decide
  rw [timestampExchange, toInt_sub_of_fits] <;> rw [bound]
  exact ⟨by omega, by omega⟩

theorem invTime_eq {t : Int64} (lower : 0 ≤ t.toInt) (upper : t.toInt ≤ 9999999999) :
    invTime t = (9999999999 - t.toInt).toNat := by
  have value := toInt_timestampExchange lower
  have nonneg : 0 ≤ timestampExchange t := by
    rw [Int64.le_iff_toInt_le, value]
    have : (0 : Int64).toInt = 0 := by decide
    omega
  rw [invTime, Int64.toNat_toUInt64_of_le nonneg, Int64.toNatClampNeg, value]

theorem timestampExchangeStr_eq {t : Int64} (lower : 0 ≤ t.toInt) (upper : t.toInt ≤ 9999999999) :
    timestampExchangeStr t = decimal (invTime t) := by
  have nonneg : 0 ≤ (timestampExchange t).toInt := by
    rw [toInt_timestampExchange lower]
    omega
  rw [invTime_eq lower upper, timestampExchangeStr]
  change signedDecimal (timestampExchange t).toInt = _
  rw [signedDecimal_of_nonneg nonneg, toInt_timestampExchange lower]

/-- Timestamps up to 8999999999 have ten-digit inverses. -/
theorem length_invTime {t : Int64} (lower : 0 ≤ t.toInt) (upper : t.toInt ≤ 8999999999) :
    (decimal (invTime t)).length = 10 := by
  refine length_decimal (k := 9) ?_ ?_ <;> rw [invTime_eq lower (by omega)] <;> omega

/-- Inverted timestamps have the opposite order. -/
theorem decimal_invTime_lt_iff {t u : Int64} (lowerT : 0 ≤ t.toInt) (upperT : t.toInt ≤ 8999999999)
    (lowerU : 0 ≤ u.toInt) (upperU : u.toInt ≤ 8999999999) :
    decimal (invTime t) < decimal (invTime u) ↔ u.toInt < t.toInt := by
  rw [decimal_lt_decimal (by rw [length_invTime lowerT upperT, length_invTime lowerU upperU]),
    invTime_eq lowerT (by omega), invTime_eq lowerU (by omega)]
  omega

/-- The timestamp read back from a key. -/
theorem timestampExchange_atoll {t : Int64} (lower : 0 ≤ t.toInt) (upper : t.toInt ≤ 9999999999) :
    timestampExchange (atoll (decimal (invTime t))) = t := by
  have value : (atoll (decimal (invTime t))).toInt = 9999999999 - t.toInt := by
    rw [atoll_decimal] <;> rw [invTime_eq lower upper] <;> omega
  rw [← Int64.toInt_inj, toInt_timestampExchange (by omega), value]
  omega

/-- A key that is not below the first key of a window is not after its start. -/
theorem le_of_not_lt_str {start t : Int64} (startLower : 0 ≤ start.toInt) (lower : 0 ≤ t.toInt)
    (upper : t.toInt ≤ 8999999999) {tail : Bytes}
    (reached : ¬ decimal (invTime t) ++ tail < timestampExchangeStr start) : t ≤ start := by
  rw [Int64.le_iff_toInt_le]
  by_contra after
  rw [timestampExchangeStr_eq startLower (by omega)] at reached
  have width : (decimal (invTime t)).length = (decimal (invTime start)).length := by
    rw [length_invTime lower upper, length_invTime startLower (by omega)]
  have order := append_lt_append_of_length width tail []
  rw [List.append_nil] at order
  refine reached (order.mpr (.inl ?_))
  exact (decimal_invTime_lt_iff lower upper startLower (by omega)).mpr (by omega)

/-- A key that is not above the last key of a window is after its end. -/
theorem lt_of_not_str_lt {last t : Int64} (lastUpper : last.toInt ≤ 8999999999)
    (lower : 1 ≤ t.toInt) (upper : t.toInt ≤ 8999999999) {tail : Bytes}
    (within : ¬ timestampExchangeStr last < decimal (invTime t) ++ 35 :: tail) : last < t := by
  rw [Int64.lt_iff_toInt_lt]
  by_contra before
  have lastLower : 0 ≤ last.toInt := by omega
  rw [timestampExchangeStr_eq lastLower (by omega)] at within
  have width : (decimal (invTime last)).length = (decimal (invTime t)).length := by
    rw [length_invTime lastLower lastUpper, length_invTime (by omega) upper]
  have order := append_lt_append_of_length width [] (35 :: tail)
  rw [List.append_nil] at order
  refine within (order.mpr ?_)
  rcases Int.lt_or_eq_of_le (not_lt.mp before) with less | same
  · exact .inl ((decimal_invTime_lt_iff lastLower lastUpper (by omega) upper).mpr less)
  · exact .inr ⟨by rw [Int64.toInt_inj.mp same], List.nil_lt_cons _ _⟩

/-! ### The window -/

section Window

variable {cond : EventCond} {stat : EventSelect}

/-- The bounds of a query that the key format can express: a metric without `#`,
a start with a ten-digit inverse and an interval that does not reach below 0. -/
structure Expressible (cond : EventCond) (stat : EventSelect) : Prop where
  metric : 35 ∉ cond.metric
  lower : 0 ≤ stat.timestamp.toInt
  upper : stat.timestamp.toInt ≤ 8999999999
  interval : stat.tmInterval = cond.tmInterval
  nonneg : 0 ≤ cond.tmInterval.toInt
  reach : cond.tmInterval.toInt ≤ stat.timestamp.toInt

theorem Expressible.toInt_end (ok : Expressible cond stat) :
    (stat.timestamp - cond.tmInterval).toInt = stat.timestamp.toInt - cond.tmInterval.toInt := by
  have := ok.nonneg
  have := ok.upper
  have := ok.reach
  exact toInt_sub_of_fits ⟨by omega, by omega⟩

theorem Expressible.tUpper_eq (ok : Expressible cond stat) :
    tUpper cond stat.timestamp = cond.metric ++ 35 :: decimal (invTime stat.timestamp) := by
  have separator : bytes "#" = [35] := by decide
  have upper := ok.upper
  rw [tUpper, timestampExchangeStr_eq ok.lower (by omega), separator]
  simp

theorem Expressible.tLower_eq (ok : Expressible cond stat) :
    tLower cond stat.timestamp stat.tmInterval =
      if 0 < cond.tmInterval.toInt then
        cond.metric ++ 35 :: decimal (invTime (stat.timestamp - cond.tmInterval))
      else cond.metric ++ [36] := by
  have separator : bytes "#" = [35] := by decide
  have bound : bytes "$" = [36] := by decide
  have zero : (0 : Int64).toInt = 0 := by decide
  have := ok.nonneg
  have := ok.upper
  have := ok.reach
  rw [tLower, ok.interval, timestampExchangeStr_eq (by rw [ok.toInt_end]; omega)
    (by rw [ok.toInt_end]; omega), separator, bound]
  simp only [gt_iff_lt, Int64.lt_iff_toInt_lt, zero, List.append_assoc, List.singleton_append]

/-- `$` is the byte after `#`. -/
theorem hash_covBy_dollar : (35 : UInt8) ⋖ 36 := by
  refine ⟨by decide, fun c above below => ?_⟩
  rw [UInt8.lt_iff_toNat_lt] at above below
  have : (35 : UInt8).toNat = 35 := by decide
  have : (36 : UInt8).toNat = 36 := by decide
  omega

/-- Only keys of the metric itself lie between the bounds. -/
theorem prefix_of_inWindow (plain : 35 ∉ cond.metric) {key : Bytes} (hashed : 35 ∈ key)
    (within : InWindow cond stat key) : (cond.metric ++ [35]) <+: key := by
  have adjacent := hash_covBy_dollar
  have separator : bytes "#" = [35] := by decide
  have bound : bytes "$" = [36] := by decide
  obtain ⟨lower, upper⟩ := within
  rw [tUpper, separator] at lower
  rw [tLower, separator, bound] at upper
  refine prefix_of_between adjacent (fun below => lower ?_) ?_
  · exact lt_of_lt_of_le below (not_lt.mp (not_append_lt _ _))
  · split at upper
    · rw [List.append_assoc, List.singleton_append] at upper
      exact lt_of_le_of_lt (not_lt.mp upper) (append_cons_lt_append_cons _ _ _ adjacent.1)
    · refine lt_of_le_of_ne (not_lt.mp upper) fun same => ?_
      rw [same] at hashed
      rcases List.mem_append.mp hashed with inMetric | last
      · exact plain inMetric
      · exact absurd last (by decide)

/-- A key between the bounds whose first field is a metric is one of the metric
asked for. -/
theorem metric_of_inWindow (plain : 35 ∉ cond.metric) {metric rest : Bytes}
    (metricPlain : 35 ∉ metric) (within : InWindow cond stat (metric ++ 35 :: rest)) :
    metric = cond.metric := by
  obtain ⟨tail, same⟩ := prefix_of_inWindow plain
    (List.mem_append_right metric List.mem_cons_self) within
  have left := List.splitOn_append_cons_self_of_not_mem plain tail
  have right := List.splitOn_append_cons_self_of_not_mem metricPlain rest
  rw [List.append_assoc, List.singleton_append] at same
  rw [same, right] at left
  exact (List.cons.inj left).1

/-- A key between the bounds is one of the metric with its timestamp in the
half-open window, and all such keys are between the bounds. -/
theorem Expressible.inWindow_keyText_iff (ok : Expressible cond stat) {metric : Bytes}
    (metricPlain : 35 ∉ metric) {t : Int64} (lower : 0 ≤ t.toInt) (upper : t.toInt ≤ 8999999999)
    (tag entityIdx : Bytes) :
    InWindow cond stat (keyText metric (invTime t) tag entityIdx) ↔
      metric = cond.metric ∧ t.toInt ≤ stat.timestamp.toInt ∧
        (0 < cond.tmInterval.toInt →
          stat.timestamp.toInt - cond.tmInterval.toInt < t.toInt) := by
  have startUpper := ok.upper
  have nonneg := ok.nonneg
  have reach := ok.reach
  have bounds (rest : Bytes) : InWindow cond stat
      (cond.metric ++ 35 :: (decimal (invTime t) ++ 35 :: rest)) ↔
      t.toInt ≤ stat.timestamp.toInt ∧ (0 < cond.tmInterval.toInt →
        stat.timestamp.toInt - cond.tmInterval.toInt < t.toInt) := by
    refine and_congr ?_ ?_
    · have width : (decimal (invTime t)).length = (decimal (invTime stat.timestamp)).length := by
        rw [length_invTime lower upper, length_invTime ok.lower startUpper]
      have order := append_lt_append_of_length width (35 :: rest) []
      rw [List.append_nil] at order
      rw [ok.tUpper_eq, append_lt_append_left, List.cons_lt_cons_iff, order,
        decimal_invTime_lt_iff lower upper ok.lower startUpper]
      simp
    · rw [ok.tLower_eq]
      split
      · rename_i limited
        have endLower : 0 ≤ (stat.timestamp - cond.tmInterval).toInt := by
          rw [ok.toInt_end]
          omega
        have endUpper : (stat.timestamp - cond.tmInterval).toInt ≤ 8999999999 := by
          rw [ok.toInt_end]
          omega
        have width : (decimal (invTime (stat.timestamp - cond.tmInterval))).length =
            (decimal (invTime t)).length := by
          rw [length_invTime lower upper, length_invTime endLower endUpper]
        have order := append_lt_append_of_length width [] (35 :: rest)
        rw [List.append_nil] at order
        have same : decimal (invTime (stat.timestamp - cond.tmInterval)) = decimal (invTime t) ↔
            (stat.timestamp - cond.tmInterval).toInt = t.toInt := by
          rw [decimal_injective.eq_iff, invTime_eq endLower (by omega), invTime_eq lower (by omega)]
          omega
        rw [append_lt_append_left, List.cons_lt_cons_iff, order,
          decimal_invTime_lt_iff endLower endUpper lower upper, same, ok.toInt_end]
        simp only [List.nil_lt_cons, and_true, lt_irrefl, false_or, true_and, limited,
          forall_true_left]
        omega
      · rename_i unlimited
        have above : ¬ (36 : UInt8) < 35 := by decide
        have apart : ¬ (36 : UInt8) = 35 := by decide
        rw [append_lt_append_left, List.cons_lt_cons_iff]
        simp only [above, apart, false_and, or_self, not_false_eq_true, true_iff]
        exact fun limited => absurd limited unlimited
  constructor
  · intro within
    have metricEq : metric = cond.metric := metric_of_inWindow ok.metric metricPlain within
    rw [keyText, metricEq, bounds] at within
    exact ⟨metricEq, within⟩
  · rintro ⟨rfl, within⟩
    exact (bounds _).mpr within

end Window

end Heracles.Business.StoreLevelDB
