import Heracles.Base.Endian
import Heracles.Base.Text
import Heracles.Business.Sort

/-!
The LevelDB store.

A database is an ordered map of byte strings in a directory; `disk` holds the
databases by path and `levelDBs` the handlers kept open by service. Records of
a service go to the database of the calendar month that the clock shows, under
the key `metric#timestamp#tag#entity_idx` with the timestamp subtracted from
9999999999, so that later records come first. A select walks the keys of the
metric from the start of the window until a key exceeds its end.

What the environment decides is an argument: the clock, the time zone
(`Localtime`), and whether opening a database or writing to it succeeds.
-/

namespace Heracles.Business

open Heracles.Base

/-- The members of `struct tm` that the stores use. -/
structure Tm where
  tmYear : Int32
  tmMon : Int32
deriving DecidableEq

/-- `localtime_r` in the time zone of the process. -/
abbrev Localtime := Int64 → Tm

/-- The month of a time, `%04d%02d`. -/
def getTableSuffix (localtime : Localtime) (timeSec : Int64) : Bytes :=
  let nowTime := localtime timeSec
  paddedDecimal 4 (nowTime.tmYear + 1900).toInt ++ paddedDecimal 2 (nowTime.tmMon + 1).toInt

/-- The value of a stored record. -/
structure LeveldbInternalLayout where
  d : UInt8
  step : UInt8
  count : Int32
  sum : Int64
  avg : Int32
  min : Int32
  max : Int32
  p10 : Int32
  p50 : Int32
  p90 : Int32
deriving DecidableEq

namespace LeveldbInternalLayout

/-- The packed structure in network byte order, as it lies in memory. -/
def toBytes (data : LeveldbInternalLayout) : Bytes :=
  data.d :: data.step :: (be32 data.count ++ be64 data.sum ++ be32 data.avg ++ be32 data.min ++
    be32 data.max ++ be32 data.p10 ++ be32 data.p50 ++ be32 data.p90)

/-- `sizeof(leveldb_internal_layout_t)`. -/
def size : Nat := 38

/-- The structure copied from memory and converted from network byte order. -/
def ofBytes (s : Bytes) : LeveldbInternalLayout where
  d := s.getD 0 0
  step := s.getD 1 0
  count := be32toh ((s.drop 2).take 4)
  sum := be64toh ((s.drop 6).take 8)
  avg := be32toh ((s.drop 14).take 4)
  min := be32toh ((s.drop 18).take 4)
  max := be32toh ((s.drop 22).take 4)
  p10 := be32toh ((s.drop 26).take 4)
  p50 := be32toh ((s.drop 30).take 4)
  p90 := be32toh ((s.drop 34).take 4)

@[simp] theorem length_toBytes (data : LeveldbInternalLayout) : data.toBytes.length = size := by
  simp [toBytes, size]

@[simp] theorem ofBytes_toBytes (data : LeveldbInternalLayout) : ofBytes data.toBytes = data := by
  obtain ⟨d, step, count, sum, avg, min, max, p10, p50, p90⟩ := data
  simp (disch := simp) [ofBytes, toBytes, List.drop_append,
    List.drop_of_length_le, List.take_of_length_le]

end LeveldbInternalLayout

/-- An open database: the month it was opened for and its directory. -/
structure LeveldbHandler where
  currentSuffix : Bytes
  handler : Bytes
deriving DecidableEq

abbrev Database := OrdMap Bytes Bytes

structure StoreLevelDB where
  filepath : Bytes
  tablePrefix : Bytes
  levelDBs : OrdMap Bytes LeveldbHandler
  disk : OrdMap Bytes Database
deriving DecidableEq

/-- What the environment decides about one call. -/
structure LeveldbEnv where
  localtime : Localtime
  now : Int64
  openOk : Bool
  putOk : Bool

/-- The month the clock of a call shows. -/
def LeveldbEnv.month (env : LeveldbEnv) : Bytes := getTableSuffix env.localtime env.now

namespace StoreLevelDB

/-- A store as `init` leaves it, with no database on disk. -/
def init (filepath tablePrefix : Bytes) : StoreLevelDB := ⟨filepath, tablePrefix, .empty, .empty⟩

/-- The directory of a database, cut at `PATH_MAX`. -/
def fullpath (s : StoreLevelDB) (service suffix : Bytes) : Bytes :=
  snprintf 4096 (cstr s.filepath ++ bytes "/" ++ cstr s.tablePrefix ++ bytes "__" ++ cstr service ++
    bytes "__events_" ++ cstr suffix)

/-- The content of the database in a directory. -/
def content (s : StoreLevelDB) (path : Bytes) : Database := (s.disk.find? path).getD .empty

/-- `leveldb::DB::Open` with `create_if_missing`. -/
def openDB (s : StoreLevelDB) (path : Bytes) : StoreLevelDB :=
  { s with disk := s.disk.insert path (s.content path) }

/-- `do_create`: opens the database of the month and keeps its handler. -/
def createHandler (s : StoreLevelDB) (env : LeveldbEnv) (service nowSuffix : Bytes) :
    Option Bytes × StoreLevelDB :=
  let path := s.fullpath service nowSuffix
  if env.openOk then
    (some path, { s.openDB path with levelDBs := s.levelDBs.insert service ⟨nowSuffix, path⟩ })
  else (none, s)

/-- The directory of the database a call works on, if it can be opened. -/
def getLeveldbHandler (s : StoreLevelDB) (env : LeveldbEnv) (service : Bytes) :
    Option Bytes × StoreLevelDB :=
  if service = [] then (none, s)
  else
    let nowSuffix := env.month
    match s.levelDBs.find? service with
    | some held =>
        if nowSuffix = held.currentSuffix then (some held.handler, s)
        else s.createHandler env service nowSuffix
    | none => s.createHandler env service nowSuffix

def timestampExchange (t : Int64) : Int64 := 9999999999 - t

def timestampExchangeStr (t : Int64) : Bytes := signedDecimal (9999999999 - t).toInt

/-- The tag a record is stored with. -/
def storedTag (stat : EventInsert) : Bytes := if stat.tag = [] then bytes "T" else stat.tag

/-- The key of a record, in a buffer of 4096 bytes. -/
def cstrKey (stat : EventInsert) : Bytes :=
  snprintf 4096 (cstr stat.metric ++ bytes "#" ++
    decimal (timestampExchange stat.timestamp).toUInt64.toNat ++ bytes "#" ++
    cstr (storedTag stat) ++ bytes "#" ++ cstr stat.entityIdx)

/-- The value of a record. -/
def layout (stat : EventInsert) : LeveldbInternalLayout :=
  ⟨68, stat.step, stat.count, stat.valueSum, stat.valueAvg, stat.valueMin, stat.valueMax,
    stat.valueP10, stat.valueP50, stat.valueP90⟩

/-- `handler->Put`. -/
def put (s : StoreLevelDB) (path key value : Bytes) : StoreLevelDB :=
  { s with disk := s.disk.insert path ((s.content path).insert key value) }

def insertEvStat (s : StoreLevelDB) (env : LeveldbEnv) (stat : EventInsert) :
    Int32 × StoreLevelDB :=
  if stat.service = [] ∨ stat.metric = [] ∨ stat.timestamp = 0 then (-1, s)
  else
    match s.getLeveldbHandler env stat.service with
    | (none, s) => (-1, s)
    | (some path, s) =>
        if env.putOk then (0, s.put path (cstrKey stat) (layout stat).toBytes) else (-1, s)

/-! ### Selecting -/

/-- The fields of a key. -/
structure KeyFields where
  metric : Bytes
  time : Bytes
  tag : Bytes
  entityIdx : Bytes
deriving DecidableEq

/-- `boost::split` on `#` and the test for four fields, the first three of them
not empty. -/
def splitKey (strKey : Bytes) : Option KeyFields :=
  match strKey.splitOn 35 with
  | [metric, time, tag, entityIdx] =>
      if metric = [] ∨ time = [] ∨ tag = [] then none else some ⟨metric, time, tag, entityIdx⟩
  | _ => none

/-- The tests of the scan loop on one entry, and its decoded value. -/
def readEntry (cond : EventCond) (strKey strVal : Bytes) :
    Option (KeyFields × LeveldbInternalLayout) :=
  match splitKey strKey with
  | none => none
  | some vec =>
      if cond.tag ≠ [] ∧ vec.tag ≠ cond.tag then none
      else if cond.entityIdx ≠ [] ∧ vec.entityIdx ≠ cond.entityIdx then none
      else if strVal.length ≠ LeveldbInternalLayout.size ∨ strVal.getD 0 0 ≠ 68 then none
      else some (vec, .ofBytes strVal)

/-- The scan loop: the entries it folds, in its order. A key above `tLower` ends
the loop; an entry that fails a test is skipped. -/
def scanLoop (cond : EventCond) (tLower : Bytes) :
    List (Bytes × Bytes) → List (KeyFields × LeveldbInternalLayout)
  | [] => []
  | (strKey, strVal) :: rest =>
      if tLower < strKey then []
      else
        match readEntry cond strKey strVal with
        | none => scanLoop cond tLower rest
        | some entry => entry :: scanLoop cond tLower rest

/-- The first key of a window. -/
def tUpper (cond : EventCond) (start : Int64) : Bytes :=
  cond.metric ++ bytes "#" ++ timestampExchangeStr start

/-- The key that ends a window. -/
def tLower (cond : EventCond) (start tmInterval : Int64) : Bytes :=
  if tmInterval > 0 then cond.metric ++ bytes "#" ++ timestampExchangeStr (start - cond.tmInterval)
  else cond.metric ++ bytes "$"

/-- The entries a select folds. -/
def scan (db : Database) (cond : EventCond) (stat : EventSelect) :
    List (KeyFields × LeveldbInternalLayout) :=
  scanLoop cond (tLower cond stat.timestamp stat.tmInterval) (db.seek (tUpper cond stat.timestamp))

/-- An entry as a result line, with neither timestamp nor tag set. -/
def itemOf (data : LeveldbInternalLayout) : EventInfo :=
  ⟨0, [], data.count, data.sum, data.avg, data.min, data.max, data.p10, data.p50, data.p90⟩

/-- A line before anything is added to it. -/
def blank : EventInfo := { EventInfo.zero with valueMin := Int32.maxValue, valueMax := Int32.minValue }

/-- Adds one line to another: counts, sums and percentiles are summed up. -/
def addItem (total item : EventInfo) : EventInfo :=
  { total with
    count := total.count + item.count
    valueSum := total.valueSum + item.valueSum
    valueP10 := total.valueP10 + item.valueP10
    valueP50 := total.valueP50 + item.valueP50
    valueP90 := total.valueP90 + item.valueP90
    valueMin := if item.valueMin < total.valueMin then item.valueMin else total.valueMin
    valueMax := if item.valueMax > total.valueMax then item.valueMax else total.valueMax }

/-- The summary of the folded lines. `iteratCount` is an `int`. -/
def summarize (items : List EventInfo) : EventInfo :=
  let summary := items.foldl addItem blank
  let iteratCount := Int32.ofNat items.length
  if summary.count ≠ 0 ∧ iteratCount ≠ 0 then
    { summary with
      valueAvg := (summary.valueSum / summary.count.toInt64).toInt32
      valueP10 := summary.valueP10 / iteratCount
      valueP50 := summary.valueP50 / iteratCount
      valueP90 := summary.valueP90 / iteratCount }
  else { summary with valueMin := 0, valueMax := 0 }

/-- An `int32_t` divided by a `size_t`. -/
def divBySize (n : Int32) (size : Nat) : Int32 :=
  (n.toInt64.toUInt64 / UInt64.ofNat size).toInt64.toInt32

/-- The line of one group. -/
def collectGroup (group : EventInfo) (items : List EventInfo) : EventInfo :=
  let collect := items.foldl addItem { blank with timestamp := group.timestamp, tag := group.tag }
  if collect.count > 0 then
    { collect with
      valueAvg := (collect.valueSum / collect.count.toInt64).toInt32
      valueP10 := divBySize collect.valueP10 items.length
      valueP50 := divBySize collect.valueP50 items.length
      valueP90 := divBySize collect.valueP90 items.length }
  else { collect with valueMin := 0, valueMax := 0 }

/-- Collects lines by a key, each list in folding order. -/
def groupBy {κ : Type} [LinearOrder κ] (key : EventInfo → κ) (items : List EventInfo) :
    OrdMap κ (List EventInfo) :=
  items.foldl (fun infos item =>
    infos.insert (key item) ((infos.find? (key item)).getD [] ++ [item])) .empty

/-- The line of an entry when grouping by timestamp. -/
def itemByTimestamp (entry : KeyFields × LeveldbInternalLayout) : EventInfo :=
  { itemOf entry.2 with timestamp := timestampExchange (atoll entry.1.time) }

/-- The line of an entry when grouping by tag. -/
def itemByTag (entry : KeyFields × LeveldbInternalLayout) : EventInfo :=
  { itemOf entry.2 with tag := entry.1.tag }

/-- The summary and the groups of the folded lines. -/
def foldByTimestamp (items : List EventInfo) (stat : EventSelect) : EventSelect :=
  { stat with
    summary := summarize items
    info := stat.info ++ (groupBy EventInfo.timestamp items).entries.map fun (timestamp, group) =>
      collectGroup { EventInfo.zero with timestamp := timestamp } group }

def foldByTag (items : List EventInfo) (stat : EventSelect) : EventSelect :=
  { stat with
    summary := summarize items
    info := stat.info ++ (groupBy EventInfo.tag items).entries.map fun (tag, group) =>
      collectGroup { EventInfo.zero with tag := tag } group }

def foldByNone (items : List EventInfo) (stat : EventSelect) : EventSelect :=
  { stat with summary := summarize items }

/-- The common frame of the three selects: each makes a line of every entry the
scan yields and folds the lines. -/
def selectWith (item : KeyFields × LeveldbInternalLayout → EventInfo)
    (fold : List EventInfo → EventSelect → EventSelect)
    (s : StoreLevelDB) (env : LeveldbEnv) (cond : EventCond) (stat : EventSelect) :
    Int32 × EventSelect × StoreLevelDB :=
  match s.getLeveldbHandler env cond.service with
  | (none, s) => (-1, stat, s)
  | (some path, s) => (0, fold ((scan (s.content path) cond stat).map item) stat, s)

def selectEvStatByTimestamp := selectWith itemByTimestamp foldByTimestamp

def selectEvStatByTag := selectWith itemByTag foldByTag

def selectEvStatByNone := selectWith (fun entry => itemOf entry.2) foldByNone

/-- The start of the window a select uses at clock `now`. -/
def effectiveStart (now lingerHint : Int64) (cond : EventCond) : Int64 :=
  if cond.tmStart > 0 then min (now - lingerHint) cond.tmStart else now - lingerHint

/-- Orders the groups and keeps the first `limit`, when both are asked for. -/
def orderInfo (stdSort : (EventInfo → EventInfo → Bool) → List EventInfo → List EventInfo)
    (cond : EventCond) (info : List EventInfo) : List EventInfo :=
  if cond.orderby = .none ∨ cond.limit = 0 then info
  else if info = [] then info
  else
    let sorted := Sort.doSort stdSort info cond.orderby cond.orders
    if sorted.length > sizeOfInt cond.limit then sorted.take (sizeOfInt cond.limit) else sorted

/-- The echo of the query and the window start, set before the scan. -/
def prepare (now lingerHint : Int64) (cond : EventCond) (stat : EventSelect) : EventSelect :=
  { stat with
    timestamp := effectiveStart now lingerHint cond
    tmInterval := cond.tmInterval
    service := cond.service
    metric := cond.metric
    entityIdx := cond.entityIdx
    tag := cond.tag }

def selectEvStat (stdSort : (EventInfo → EventInfo → Bool) → List EventInfo → List EventInfo)
    (s : StoreLevelDB) (env : LeveldbEnv) (cond : EventCond) (stat : EventSelect)
    (lingerHint : Int64) : Int32 × EventSelect × StoreLevelDB :=
  if cond.service = [] then (-1, stat, s)
  else
    let stat := prepare env.now lingerHint cond stat
    match cond.groupby with
    | .none => s.selectEvStatByNone env cond stat
    | .byTimestamp =>
        let (ret, stat, s) := s.selectEvStatByTimestamp env cond stat
        (ret, { stat with info := orderInfo stdSort cond stat.info }, s)
    | .byTag =>
        let (ret, stat, s) := s.selectEvStatByTag env cond stat
        (ret, { stat with info := orderInfo stdSort cond stat.info }, s)

end StoreLevelDB

end Heracles.Business
