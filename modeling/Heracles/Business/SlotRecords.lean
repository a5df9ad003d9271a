import Heracles.Base.Grouping
import Heracles.Business.Aggregate

/-!
The records of a slot.

A record is determined by the events of its metric and tag that are kept: `statOf`
computes its statistics from them without regard to how `nth_element` rearranges
values, and `mem_doProcessEvent` says which records a slot gives. The counters are
32 bits wide, so `aggregatedOnce_iff` states what holds of a slot with fewer than
2^31 kept events for every metric and tag, and of no other.
-/

namespace Heracles.Business

open Heracles.Base

/-- `aggregate_by_tag` on the entry of one tag. -/
def StatInfo.add (info : StatInfo) (data : EventData) : StatInfo :=
  { info with
    values := info.values ++ [data.value.toInt32]
    count := info.count + 1
    valueSum := info.valueSum + data.value }

/-- What is collected of the events of one tag. -/
def gather (items : List EventData) : StatInfo := items.foldl StatInfo.add .zero

theorem calcEventInfoEachMetric_eq (nth : NthElement Int32) (data : List EventData) :
    calcEventInfoEachMetric nth data =
      (OrdMap.accumulate EventData.tag .zero StatInfo.add
        (firsts EventData.msgid data)).mapVal (calcStat nth) := by
  rw [calcEventInfoEachMetric, dedup_eq_firsts]
  rfl

/-! ### What is collected -/

theorem gather_append_one (items : List EventData) (item : EventData) :
    gather (items ++ [item]) = (gather items).add item := by
  simp [gather]

/-- Only the values, the count and the sum are collected. -/
theorem gather_eq (items : List EventData) :
    gather items =
      { StatInfo.zero with
        count := (gather items).count
        valueSum := (gather items).valueSum
        values := items.map fun item => item.value.toInt32 } := by
  induction items using List.reverseRecOn with
  | nil => rfl
  | append_singleton items item ih =>
      rw [gather_append_one, StatInfo.add, ih]
      simp

theorem gather_values (items : List EventData) :
    (gather items).values = items.map fun item => item.value.toInt32 := by
  rw [gather_eq]

theorem toInt_gather_count (items : List EventData) :
    (gather items).count.toInt = (items.length : Int).bmod (2 ^ 32) := by
  induction items using List.reverseRecOn with
  | nil => rfl
  | append_singleton items item ih =>
      rw [gather_append_one, StatInfo.add, Int32.toInt_add, ih]
      simp only [List.length_append, List.length_singleton, Nat.cast_add, Nat.cast_one]
      exact Int.bmod_add_bmod

/-- The sum of the values of events. -/
def exactSum (items : List EventData) : Int := (items.map fun item => item.value.toInt).sum

theorem exactSum_append_one (items : List EventData) (item : EventData) :
    exactSum (items ++ [item]) = exactSum items + item.value.toInt := by
  simp [exactSum]

theorem toInt_gather_sum (items : List EventData) :
    (gather items).valueSum.toInt = (exactSum items).bmod (2 ^ 64) := by
  induction items using List.reverseRecOn with
  | nil => rfl
  | append_singleton items item ih =>
      rw [gather_append_one, StatInfo.add, Int64.toInt_add, ih, exactSum_append_one]
      exact Int.bmod_add_bmod

/-- The count is zero when the number of events is a multiple of 2^32. -/
theorem gather_count_eq_zero_iff (items : List EventData) :
    (gather items).count = 0 ↔ 2 ^ 32 ∣ items.length := by
  rw [← Int32.toInt_inj, toInt_gather_count, Int32.toInt_zero, ← Int.dvd_iff_bmod_eq_zero]
  norm_cast

/-- Rearranged events are collected to the same count and sum. -/
theorem gather_perm {items other : List EventData} (perm : items.Perm other) :
    (gather items).count = (gather other).count ∧
      (gather items).valueSum = (gather other).valueSum := by
  have sum : exactSum items = exactSum other := (perm.map _).sum_eq
  rw [← Int32.toInt_inj, ← Int64.toInt_inj, toInt_gather_count, toInt_gather_count,
    toInt_gather_sum, toInt_gather_sum, perm.length_eq, sum]
  exact ⟨rfl, rfl⟩

/-! ### The statistics -/

/-- The part of the statistics that goes into a record. -/
def StatInfo.emitted (stat : StatInfo) : StatInfo := { stat with values := [] }

/-- The statistics of a record: the order statistics are taken from the collected
values in ascending order. -/
def statOf (items : List EventData) : StatInfo :=
  let info := gather items
  let v := ordered info.values
  if info.count = 0 then info.emitted
  else
    { info with
      valueAvg := (info.valueSum / info.count.toInt64).toInt32
      valueMin := v.getD 0 0
      valueMax := v.getD (v.length - 1) 0
      valueP10 := v.getD (v.length / 10) 0
      valueP50 := v.getD (v.length / 2) 0
      valueP90 := v.getD (9 * v.length / 10) 0
      values := [] }

/-- Each `nth_element` call finds the same values in another order, so what it puts
at its place is an order statistic of the collected values. -/
theorem emitted_calcStat (nth : NthElement Int32) (items : List EventData) :
    (calcStat nth (gather items)).emitted = statOf items := by
  unfold calcStat statOf
  dsimp only
  split
  · rfl
  · let l := (gather items).values
    let byMin := nth.apply (· < ·) 0 l
    let byMax := nth.apply (· > ·) 0 byMin
    let byP10 := nth.apply (· < ·) (l.length / 10) byMax
    let byP50 := nth.apply (· < ·) (l.length / 2) byP10
    have minPerm : byMin.Perm l := nth.perm _ _ _
    have maxPerm : byMax.Perm l := (nth.perm _ _ _).trans minPerm
    have p10Perm : byP10.Perm l := (nth.perm _ _ _).trans maxPerm
    have p50Perm : byP50.Perm l := (nth.perm _ _ _).trans p10Perm
    have atMin : byMin.getD 0 0 = (ordered l).getD 0 0 := by
      rw [List.getD_eq_getElem?_getD, nth.getElem?_apply_lt, List.getD_eq_getElem?_getD]
    have atMax : byMax.getD 0 0 = (ordered l).getD (l.length - 1) 0 := by
      rw [List.getD_eq_getElem?_getD, nth.getElem?_apply_gt, List.getD_eq_getElem?_getD,
        ordered_congr minPerm, minPerm.length_eq]
    have atNth (n : Nat) {m : List Int32} (perm : m.Perm l) :
        (nth.apply (· < ·) n m).getD n 0 = (ordered l).getD n 0 := by
      rw [List.getD_eq_getElem?_getD, nth.getElem?_apply_lt, List.getD_eq_getElem?_getD,
        ordered_congr perm]
    have atP10 := atNth (l.length / 10) maxPerm
    have atP50 := atNth (l.length / 2) p10Perm
    have atP90 := atNth (9 * l.length / 10) p50Perm
    simp only [StatInfo.emitted, length_ordered]
    rw [atMin, atMax, atP10, atP50, atP90]

/-- The order of the events leaves no trace in the statistics. -/
theorem statOf_perm {items other : List EventData} (perm : items.Perm other) :
    statOf items = statOf other := by
  obtain ⟨count, sum⟩ := gather_perm perm
  have values : ordered (gather items).values = ordered (gather other).values := by
    rw [gather_values, gather_values]
    exact ordered_congr (perm.map _)
  unfold statOf
  rw [gather_eq items, gather_eq other] at *
  dsimp only at *
  rw [count, sum, values]
  rfl

/-! ### The records -/

/-- The events of a metric that are kept. -/
def EventsByTime.retained (slot : EventsByTime) (metric : Bytes) : List EventData :=
  firsts EventData.msgid ((slot.data.find? metric).getD [])

/-- The kept events of a metric and tag. -/
def EventsByTime.tagged (slot : EventsByTime) (metric tag : Bytes) : List EventData :=
  group EventData.tag (slot.retained metric) tag

/-- `copyStat` completed for a metric and a tag. -/
def recordOf (copyStat : EventInsert) (metric tag : Bytes) (stat : StatInfo) : EventInsert :=
  { copyStat with
    metric := metric
    tag := tag
    count := stat.count
    valueSum := stat.valueSum
    valueAvg := stat.valueAvg
    valueMin := stat.valueMin
    valueMax := stat.valueMax
    valueP10 := stat.valueP10
    valueP50 := stat.valueP50
    valueP90 := stat.valueP90 }

/-- The tags of the kept events of a metric, in ascending order. -/
def EventsByTime.tags (slot : EventsByTime) (metric : Bytes) : List Bytes :=
  (OrdMap.accumulate EventData.tag StatInfo.zero StatInfo.add (slot.retained metric)).keys

theorem EventsByTime.mem_tags {slot : EventsByTime} {metric tag : Bytes} :
    tag ∈ slot.tags metric ↔ slot.tagged metric tag ≠ [] := by
  rw [tags, OrdMap.mem_keys_accumulate, Ne, tagged, group_eq_nil_iff]
  push Not
  rfl

theorem EventsByTime.tags_nodup (slot : EventsByTime) (metric : Bytes) :
    (slot.tags metric).Nodup := OrdMap.keys_nodup _

theorem EventsByTime.tags_ascending (slot : EventsByTime) (metric : Bytes) :
    (slot.tags metric).Pairwise (· < ·) := List.pairwise_map.mpr (OrdMap.sorted _)

variable (nth : NthElement Int32) (slot : EventsByTime) (copyStat : EventInsert)

/-- The records are those of the metrics and their tags, each computed from its
own events. -/
theorem doProcessEvent_eq :
    doProcessEvent nth slot copyStat =
      slot.data.keys.flatMap fun metric => (slot.tags metric).map fun tag =>
        recordOf copyStat metric tag (statOf (slot.tagged metric tag)) := by
  rw [doProcessEvent, OrdMap.keys, List.flatMap_map]
  refine List.flatMap_congr ?_
  rintro ⟨metric, data⟩ member
  have kept : slot.retained metric = firsts EventData.msgid data := by
    rw [EventsByTime.retained, OrdMap.mem_entries_iff.mp member, Option.getD_some]
  dsimp only
  rw [calcEventInfoEachMetric_eq]
  dsimp only [OrdMap.mapVal]
  rw [OrdMap.entries_accumulate, EventsByTime.tags, kept]
  simp only [List.map_map]
  refine List.map_congr_left fun tag _ => ?_
  have emitted := emitted_calcStat nth (group EventData.tag (firsts EventData.msgid data) tag)
  rw [EventsByTime.tagged, kept, ← emitted]
  rfl

/-- A record is that of its metric and tag, and there is one when events with
them are kept. -/
theorem mem_doProcessEvent {r : EventInsert} :
    r ∈ doProcessEvent nth slot copyStat ↔
      slot.tagged r.metric r.tag ≠ [] ∧
        r = recordOf copyStat r.metric r.tag (statOf (slot.tagged r.metric r.tag)) := by
  rw [doProcessEvent_eq, List.mem_flatMap]
  constructor
  · rintro ⟨metric, _, inside⟩
    obtain ⟨tag, listed, rfl⟩ := List.mem_map.mp inside
    exact ⟨EventsByTime.mem_tags.mp listed, rfl⟩
  · rintro ⟨some, same⟩
    refine ⟨r.metric, ?_, List.mem_map.mpr ⟨r.tag, EventsByTime.mem_tags.mpr some, same.symm⟩⟩
    by_contra absent
    refine some ?_
    rw [EventsByTime.tagged, EventsByTime.retained, OrdMap.find?_eq_none_iff.mpr absent]
    rfl

/-- The records of a metric, tag by tag. -/
theorem group_doProcessEvent (metric : Bytes) :
    group EventInsert.metric (doProcessEvent nth slot copyStat) metric =
      (slot.tags metric).map fun tag =>
        recordOf copyStat metric tag (statOf (slot.tagged metric tag)) := by
  have keyed : ∀ m ∈ slot.data.keys, ∀ r ∈ (slot.tags m).map fun tag =>
      recordOf copyStat m tag (statOf (slot.tagged m tag)), EventInsert.metric r = m := by
    intro m _ r inside
    obtain ⟨tag, _, rfl⟩ := List.mem_map.mp inside
    rfl
  rw [doProcessEvent_eq, group_flatMap (OrdMap.keys_nodup _) keyed]
  split
  · rfl
  · rename_i absent
    have none : slot.retained metric = [] := by
      rw [EventsByTime.retained, OrdMap.find?_eq_none_iff.mpr absent]
      rfl
    rw [EventsByTime.tags, none]
    rfl

/-! ### Once per message -/

/-- The other slot has the events of the same metrics in another order, and no
message id is repeated within a metric. -/
structure Rearranged (slot other : EventsByTime) : Prop where
  metrics : other.data.keys = slot.data.keys
  perm : ∀ metric, ((slot.data.find? metric).getD []).Perm ((other.data.find? metric).getD [])
  distinct : ∀ metric, (((slot.data.find? metric).getD []).map EventData.msgid).Nodup

/-- Every kept event goes into one record, and nothing else does. -/
structure AggregatedOnce : Prop where
  distinct : ((doProcessEvent nth slot copyStat).map fun r => (r.metric, r.tag)).Nodup
  present : ∀ metric tag,
    (∃ r ∈ doProcessEvent nth slot copyStat, r.metric = metric ∧ r.tag = tag) ↔
      ∃ item ∈ slot.retained metric, item.tag = tag
  count : ∀ r ∈ doProcessEvent nth slot copyStat,
    r.count.toInt = (slot.tagged r.metric r.tag).length
  sum : ∀ r ∈ doProcessEvent nth slot copyStat,
    r.valueSum.toInt = (exactSum (slot.tagged r.metric r.tag)).bmod (2 ^ 64)
  total : ∀ metric,
    ((group EventInsert.metric (doProcessEvent nth slot copyStat) metric).map
      fun r => r.count.toInt).sum =
      (keySet EventData.msgid ((slot.data.find? metric).getD [])).card
  rearranged : ∀ other, Rearranged slot other →
    doProcessEvent nth other copyStat = doProcessEvent nth slot copyStat

theorem records_nodup :
    ((doProcessEvent nth slot copyStat).map fun r => (r.metric, r.tag)).Nodup := by
  rw [doProcessEvent_eq, List.map_flatMap]
  simp only [List.map_map, Function.comp_def, recordOf]
  refine List.nodup_flatMap.mpr ⟨fun metric _ => ?_, ?_⟩
  · exact (slot.tags_nodup metric).map fun _ _ same => (Prod.mk.inj same).2
  · refine (OrdMap.keys_nodup _).imp fun apart p first second => ?_
    obtain ⟨_, _, rfl⟩ := List.mem_map.mp first
    obtain ⟨_, _, same⟩ := List.mem_map.mp second
    exact apart (Prod.mk.inj same).1.symm

theorem record_present (metric tag : Bytes) :
    (∃ r ∈ doProcessEvent nth slot copyStat, r.metric = metric ∧ r.tag = tag) ↔
      ∃ item ∈ slot.retained metric, item.tag = tag := by
  have some : slot.tagged metric tag ≠ [] ↔ ∃ item ∈ slot.retained metric, item.tag = tag := by
    rw [← EventsByTime.mem_tags, EventsByTime.tags, OrdMap.mem_keys_accumulate]
  rw [← some]
  constructor
  · rintro ⟨r, member, rfl, rfl⟩
    exact ((mem_doProcessEvent nth slot copyStat).mp member).1
  · intro kept
    refine ⟨recordOf copyStat metric tag (statOf (slot.tagged metric tag)), ?_, rfl, rfl⟩
    exact (mem_doProcessEvent nth slot copyStat).mpr ⟨kept, rfl⟩

theorem statOf_count (items : List EventData) : (statOf items).count = (gather items).count := by
  unfold statOf
  dsimp only
  split
  · rfl
  · rfl

theorem statOf_valueSum (items : List EventData) :
    (statOf items).valueSum = (gather items).valueSum := by
  unfold statOf
  dsimp only
  split
  · rfl
  · rfl

/-- The count of a record is the number of events exactly when that number is
below 2^31. -/
theorem statOf_count_iff (items : List EventData) :
    (statOf items).count.toInt = items.length ↔ items.length < 2 ^ 31 := by
  rw [statOf_count, toInt_gather_count, bmod32_eq_iff, Fits32]
  norm_cast
  omega

/-- The events of a slot can be counted in 32 bits, metric by metric and tag by
tag. -/
def EventsByTime.CountsFit (slot : EventsByTime) : Prop :=
  ∀ metric tag, (slot.tagged metric tag).length < 2 ^ 31

/-- The kept events of a metric by tag are one for each of its message ids. -/
theorem sum_length_tagged (metric : Bytes) :
    ((slot.tags metric).map fun tag => ((slot.tagged metric tag).length : Int)).sum =
      (keySet EventData.msgid ((slot.data.find? metric).getD [])).card := by
  have lengths := OrdMap.sum_accumulate EventData.tag (fun _ => (1 : Int)) StatInfo.zero
    StatInfo.add (slot.retained metric)
  simp only [List.map_const', List.sum_replicate, mul_one, nsmul_eq_mul] at lengths
  rw [EventsByTime.retained, length_firsts] at lengths
  exact lengths

variable {slot} in
theorem total_of_countsFit (fits : slot.CountsFit) (metric : Bytes) :
    ((group EventInsert.metric (doProcessEvent nth slot copyStat) metric).map
      fun r => r.count.toInt).sum =
      (keySet EventData.msgid ((slot.data.find? metric).getD [])).card := by
  have each : (fun tag => (recordOf copyStat metric tag
      (statOf (slot.tagged metric tag))).count.toInt) =
      fun tag => ((slot.tagged metric tag).length : Int) :=
    funext fun tag => (statOf_count_iff _).mpr (fits metric tag)
  rw [group_doProcessEvent, List.map_map, Function.comp_def, each]
  exact sum_length_tagged slot metric

variable {slot} in
/-- The order in which events with different message ids arrive does not matter. -/
theorem doProcessEvent_rearranged {other : EventsByTime} (rearranged : Rearranged slot other) :
    doProcessEvent nth other copyStat = doProcessEvent nth slot copyStat := by
  have kept : ∀ metric, (other.retained metric).Perm (slot.retained metric) := by
    intro metric
    have perm := rearranged.perm metric
    have distinct := rearranged.distinct metric
    rw [EventsByTime.retained, EventsByTime.retained, firsts_of_nodup distinct,
      firsts_of_nodup ((perm.map _).nodup_iff.mp distinct)]
    exact perm.symm
  rw [doProcessEvent_eq, doProcessEvent_eq, rearranged.metrics]
  refine List.flatMap_congr fun metric _ => ?_
  rw [EventsByTime.tags, OrdMap.keys_accumulate_perm (kept metric), ← EventsByTime.tags]
  refine List.map_congr_left fun tag _ => ?_
  have same : statOf (other.tagged metric tag) = statOf (slot.tagged metric tag) :=
    statOf_perm ((kept metric).filter _)
  rw [same]

variable {nth slot copyStat} in
theorem AggregatedOnce.countsFit (once : AggregatedOnce nth slot copyStat) : slot.CountsFit := by
  intro metric tag
  by_cases none : slot.tagged metric tag = []
  · rw [none]
    norm_num
  · have count := once.count _ ((mem_doProcessEvent nth slot copyStat).mpr
      ⟨none, rfl⟩ : recordOf copyStat metric tag (statOf (slot.tagged metric tag)) ∈ _)
    exact (statOf_count_iff _).mp count

/-- A slot is aggregated once per distinct message exactly when its events can be
counted. -/
theorem aggregatedOnce_iff :
    AggregatedOnce nth slot copyStat ↔ slot.CountsFit := by
  constructor
  · exact AggregatedOnce.countsFit
  · intro fits
    refine ⟨records_nodup nth slot copyStat, record_present nth slot copyStat, ?_, ?_,
      total_of_countsFit nth copyStat fits,
      fun other => doProcessEvent_rearranged nth copyStat⟩
    · intro r member
      have form := ((mem_doProcessEvent nth slot copyStat).mp member).2
      rw [form]
      exact (statOf_count_iff _).mpr (fits r.metric r.tag)
    · intro r member
      have form := ((mem_doProcessEvent nth slot copyStat).mp member).2
      rw [form]
      exact (congrArg Int64.toInt (statOf_valueSum _)).trans (toInt_gather_sum _)

/-! ### A crowded slot -/

/-- Events of one metric and tag with the message ids from 0. -/
def crowd (n : Nat) : List EventData :=
  (List.range n).map fun i => ⟨Int64.ofNat i, bytes "m", [], 1⟩

theorem mem_crowd {n i : Nat} (inside : i < n) :
    ⟨Int64.ofNat i, bytes "m", [], 1⟩ ∈ crowd n :=
  List.mem_map.mpr ⟨i, List.mem_range.mpr inside, rfl⟩

theorem length_crowd (n : Nat) : (crowd n).length = n := by
  rw [crowd, List.length_map, List.length_range]

/-- All of them have the empty tag. -/
theorem group_crowd (n : Nat) : group EventData.tag (crowd n) [] = crowd n := by
  refine List.filter_eq_self.mpr fun item member => ?_
  obtain ⟨i, _, rfl⟩ := List.mem_map.mp member
  rfl

/-- A slot that holds them. -/
def crowded (n : Nat) : EventsByTime :=
  ⟨0, 3, 3, ⟨[(bytes "m", crowd n)], List.pairwise_singleton _ _⟩⟩

theorem crowd_distinct {n : Nat} (bound : n < 2 ^ 63) : ((crowd n).map EventData.msgid).Nodup := by
  rw [crowd, List.map_map]
  refine List.Nodup.map_on (fun i inside j inside' same => ?_) List.nodup_range
  have values := congrArg Int64.toInt same
  have low := List.mem_range.mp inside
  have low' := List.mem_range.mp inside'
  simp only [Function.comp_apply] at values
  rw [Int64.toInt_ofNat_of_lt (by omega), Int64.toInt_ofNat_of_lt (by omega)] at values
  exact_mod_cast values

theorem crowded_tagged {n : Nat} (bound : n < 2 ^ 63) :
    (crowded n).tagged (bytes "m") [] = crowd n := by
  have kept : (crowded n).retained (bytes "m") = crowd n := firsts_of_nodup (crowd_distinct bound)
  rw [EventsByTime.tagged, kept, group_crowd]

/-- 2^31 events of one metric and tag are counted as -2^31. -/
theorem crowded_not_once :
    ¬ AggregatedOnce (.bySorting Int32) (crowded (2 ^ 31))
      (statFor (bytes "s") [] (crowded (2 ^ 31))) := by
  intro once
  have few := once.countsFit (bytes "m") []
  rw [crowded_tagged (by norm_num), length_crowd] at few
  exact Nat.lt_irrefl _ few

end Heracles.Business
