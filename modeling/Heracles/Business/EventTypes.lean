import Heracles.Base.OrdMap

/-!
The data the event service passes around: reported events, the slots that
collect them by time, and the aggregated records a store is given.

`time_t` and `int64_t` are `Int64`, `int` and `int32_t` are `Int32`, `uint8_t`
is `UInt8`: arithmetic wraps at the width the code uses. A `std::string` is a
byte string and a `std::map` an ordered map.
-/

namespace Heracles.Business

open Heracles.Base

/-- One reported event. The message id is unique within its service, entity and
time; the server uses it to drop repeated reports. -/
structure EventData where
  msgid : Int64
  metric : Bytes
  tag : Bytes
  value : Int64
deriving DecidableEq

/-- A report: events that happened at one time. -/
structure EventReport where
  timestamp : Int64
  service : Bytes
  entityIdx : Bytes
  data : List EventData
deriving DecidableEq

/-- The events of a slot by metric, each list in arrival order. -/
abbrev EventsByMetric := OrdMap Bytes (List EventData)

/-- A time slot. `id` tells two slot objects apart that carry the same
timestamp: it is the number of the allocation that created the slot. -/
structure EventsByTime where
  id : Nat
  timestamp : Int64
  step : Int64
  data : EventsByMetric
deriving DecidableEq

/-- All events of a slot, metric by metric. -/
def EventsByTime.events (slot : EventsByTime) : List EventData := slot.data.values.flatten

/-- An aggregated record, as it is handed to a store. -/
structure EventInsert where
  service : Bytes
  entityIdx : Bytes
  timestamp : Int64
  step : UInt8
  metric : Bytes
  tag : Bytes
  count : Int32
  valueSum : Int64
  valueAvg : Int32
  valueMin : Int32
  valueMax : Int32
  valueP10 : Int32
  valueP50 : Int32
  valueP90 : Int32
deriving DecidableEq

/-! ### Queries -/

inductive GroupType where
  | none
  | byTimestamp
  | byTag
deriving DecidableEq

inductive OrderByType where
  | none | timestamp | tag | count | sum | avg | min | max | p10 | p50 | p90
deriving DecidableEq

inductive OrderType where
  | desc
  | asc
deriving DecidableEq

/-- A query. `tmInterval` 0 means no lower bound; `tmStart`, `entityIdx` and
`tag` are optional. -/
structure EventCond where
  tmInterval : Int64
  service : Bytes
  metric : Bytes
  tmStart : Int64
  entityIdx : Bytes
  tag : Bytes
  groupby : GroupType
  orderby : OrderByType
  orders : OrderType
  limit : Int32
deriving DecidableEq

/-- One line of a result: a group, or the summary. -/
structure EventInfo where
  timestamp : Int64
  tag : Bytes
  count : Int32
  valueSum : Int64
  valueAvg : Int32
  valueMin : Int32
  valueMax : Int32
  valueP10 : Int32
  valueP50 : Int32
  valueP90 : Int32
deriving DecidableEq

/-- `event_info_t {}`. -/
def EventInfo.zero : EventInfo := ⟨0, [], 0, 0, 0, 0, 0, 0, 0, 0⟩

structure EventSelect where
  timestamp : Int64
  tmInterval : Int64
  service : Bytes
  metric : Bytes
  entityIdx : Bytes
  tag : Bytes
  summary : EventInfo
  info : List EventInfo
deriving DecidableEq

/-- `event_select_t {}`, as the callers pass it to a store. -/
def EventSelect.zero : EventSelect := ⟨0, 0, [], [], [], [], .zero, []⟩

end Heracles.Business
