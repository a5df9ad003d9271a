import Heracles.Base.FirstKeys
import Heracles.Base.NthElement
import Heracles.Business.EventTypes

/-!
Aggregation of a slot into the records a store is given.

The events of each metric are freed from repeated message ids, collected by tag
and reduced to a count, a sum and order statistics. `dedup` compares sizes
first and keeps the list as it is when they agree; `dedup_eq_firsts` says that
it always keeps the first event of every message id. Everything after it
depends on the kept events only, so a slot and the slot with repeated ids
removed give the same records (`doProcessEvent_distinct`).
-/

namespace Heracles.Business

open Heracles.Base

/-- What is collected for one tag. -/
structure StatInfo where
  count : Int32
  valueSum : Int64
  valueAvg : Int32
  valueMin : Int32
  valueMax : Int32
  valueP10 : Int32
  valueP50 : Int32
  valueP90 : Int32
  values : List Int32
deriving DecidableEq

/-- `stat_info_t {}`. -/
def StatInfo.zero : StatInfo := ⟨0, 0, 0, 0, 0, 0, 0, 0, []⟩

abbrev StatByTag := OrdMap Bytes StatInfo

/-- Adds one event to the entry of its tag. -/
def aggregateByTag (data : EventData) (infos : StatByTag) : StatByTag :=
  let info := (infos.find? data.tag).getD .zero
  infos.insert data.tag
    { info with
      values := info.values ++ [data.value.toInt32]
      count := info.count + 1
      valueSum := info.valueSum + data.value }

/-- Keeps one event of each message id when some id is repeated. -/
def dedup (data : List EventData) : List EventData :=
  let ids := keySet EventData.msgid data
  if ids.card ≠ data.length then takeListed EventData.msgid ids data else data

/-- The average, the extremes and the percentiles of the collected values. The
value list is rearranged in place from one `nth_element` call to the next. -/
def calcStat (nth : NthElement Int32) (info : StatInfo) : StatInfo :=
  if info.count = 0 then info
  else
    let len := info.values.length
    let byMin := nth.apply (· < ·) 0 info.values
    let byMax := nth.apply (· > ·) 0 byMin
    -- `len * 0.1`, `len * 0.5` and `len * 0.9` cut to integers
    let p10Idx := len / 10
    let byP10 := nth.apply (· < ·) p10Idx byMax
    let p50Idx := len / 2
    let byP50 := nth.apply (· < ·) p50Idx byP10
    let p90Idx := 9 * len / 10
    let byP90 := nth.apply (· < ·) p90Idx byP50
    { info with
      valueAvg := (info.valueSum / info.count.toInt64).toInt32
      valueMin := byMin.getD 0 0
      valueMax := byMax.getD 0 0
      valueP10 := byP10.getD p10Idx 0
      valueP50 := byP50.getD p50Idx 0
      valueP90 := byP90.getD p90Idx 0
      values := byP90 }

def calcEventInfoEachMetric (nth : NthElement Int32) (data : List EventData) : StatByTag :=
  ((dedup data).foldl (fun infos item => aggregateByTag item infos) .empty).mapVal (calcStat nth)

/-- The records of a slot, in the order in which they are given to the store:
`copyStat` completed by metric, tag and statistics. -/
def doProcessEvent (nth : NthElement Int32) (event : EventsByTime) (copyStat : EventInsert) :
    List EventInsert :=
  event.data.entries.flatMap fun (metric, info) =>
    (calcEventInfoEachMetric nth info).entries.map fun (tag, stat) =>
      { copyStat with
        metric := metric
        tag := tag
        count := stat.count
        valueSum := stat.valueSum
        valueAvg := stat.valueAvg
        valueMin := stat.valueMin
        valueMax := stat.valueMax
        valueP10 := stat.valueP10
        valueP50 := stat.valueP50
        valueP90 := stat.valueP90 }

/-- The record `run` and `run_once_task` prepare for a slot. The step is cut to
eight bits. -/
def statFor (service entityIdx : Bytes) (event : EventsByTime) : EventInsert :=
  ⟨service, entityIdx, event.timestamp, event.step.toUInt64.toUInt8, [], [], 0, 0, 0, 0, 0, 0, 0, 0⟩

/-! ### Repeated message ids -/

theorem dedup_eq_firsts (data : List EventData) : dedup data = firsts EventData.msgid data := by
  unfold dedup
  dsimp only
  split
  · rfl
  · rename_i distinct
    exact (firsts_of_card (not_not.mp distinct)).symm

/-- The events of each metric without repeated message ids. -/
def distinctEvents (slot : EventsByMetric) : EventsByMetric :=
  slot.mapVal (firsts EventData.msgid)

/-- A slot without repeated message ids. -/
def EventsByTime.distinct (slot : EventsByTime) : EventsByTime :=
  { slot with data := distinctEvents slot.data }

@[simp] theorem EventsByTime.distinct_distinct (slot : EventsByTime) :
    slot.distinct.distinct = slot.distinct := by
  simp only [EventsByTime.distinct, distinctEvents, OrdMap.mapVal_mapVal, Function.comp_def,
    firsts_firsts]

theorem calcEventInfoEachMetric_firsts (nth : NthElement Int32) (data : List EventData) :
    calcEventInfoEachMetric nth (firsts EventData.msgid data) =
      calcEventInfoEachMetric nth data := by
  simp only [calcEventInfoEachMetric, dedup_eq_firsts, firsts_firsts]

/-- Repeated message ids leave no trace in the records. -/
theorem doProcessEvent_distinct (nth : NthElement Int32) (event : EventsByTime)
    (copyStat : EventInsert) :
    doProcessEvent nth event.distinct copyStat = doProcessEvent nth event copyStat := by
  simp only [doProcessEvent, EventsByTime.distinct, distinctEvents, OrdMap.mapVal,
    List.flatMap_map, calcEventInfoEachMetric_firsts]

end Heracles.Business
