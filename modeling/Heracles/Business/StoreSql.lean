import Heracles.Business.StoreLevelDB

/-!
The MySQL store.

A record goes to the table of its service and of the month of its timestamp, in an
`INSERT` that is tried again once the table has been created; a select asks the
table of the month of the window's start. The statements are texts. What a server
does with a text is up to the server (`SqlServer`); `InsertsOrFails`, `Creates` and
`Answers` say that it gives a statement its standard meaning.
-/

namespace Heracles.Business

open Heracles.Base

/-- The bytes of a text in UTF-8. -/
def utf8 (s : String) : Bytes := s.toUTF8.data.toList

/-- Rows of a table: the columns of a record. The service is in the name of the
table. -/
abbrev Table := List EventInsert

abbrev Tables := OrdMap Bytes Table

/-- One line of a result, as `getInt64` and `getString` read its columns. -/
structure ResultRow where
  count : Int64
  valueSum : Int64
  valueMin : Int64
  valueMax : Int64
  valueP10 : Int64
  valueP50 : Int64
  valueP90 : Int64
  timestamp : Int64
  tag : Bytes
deriving DecidableEq

/-- A server: the number of rows that an update affects, and the result of a query,
if it has one. -/
structure SqlServer where
  update : Bytes → Tables → Int32 × Tables
  query : Bytes → Tables → Option (List ResultRow)

/-- `va_format`. The buffer takes 16380 bytes and is ended where the whole text
would end, which beyond 16380 is outside of it. -/
def vaFormat (text : Bytes) : Option Bytes :=
  if text.length < 16380 then some text
  else if text.length = 16380 then some (text.take 16379 ++ [0])
  else none

structure StoreSql where
  database : Bytes
  tablePrefix : Bytes
deriving DecidableEq

/-! ### Statements -/

/-- The name of the table of a service and a month. -/
def tableName (s : StoreSql) (service suffix : Bytes) : Bytes :=
  s.database ++ bytes "." ++ s.tablePrefix ++ bytes "__" ++ service ++ bytes "__events_" ++ suffix

/-- `CREATE TABLE`. -/
def createText (table : Bytes) : Bytes :=
  bytes "CREATE TABLE IF NOT EXISTS " ++ table ++ bytes " ( " ++
    bytes "  `F_increment_id` bigint(20) unsigned NOT NULL AUTO_INCREMENT, " ++
    utf8 "  `F_timestamp` bigint(20) NOT NULL COMMENT '事件上报时间， FROM_UNIXTIME可视化', " ++
    utf8 "  `F_entity_idx` varchar(128) NOT NULL DEFAULT '' COMMENT '多服务实例编号', " ++
    utf8 "  `F_metric` varchar(128) NOT NULL COMMENT '事件名称', " ++
    utf8 "  `F_tag` varchar(128) NOT NULL DEFAULT 'T' COMMENT '事件结果分类', " ++
    utf8 "  `F_step`  tinyint(11) NOT NULL DEFAULT '1' COMMENT '事件合并的时间间隔', " ++
    utf8 "  `F_count` int(11) NOT NULL COMMENT '当前间隔内事件总个数', " ++
    utf8 "  `F_value_sum` bigint(12) NOT NULL COMMENT '数值累计', " ++
    utf8 "  `F_value_avg` int(10) NOT NULL COMMENT '数值均值', " ++
    bytes "  `F_value_min` int(10) NOT NULL COMMENT 'MIN', " ++
    bytes "  `F_value_max` int(10) NOT NULL COMMENT 'MAX', " ++
    bytes "  `F_value_p10` int(10) NOT NULL COMMENT 'P10', " ++
    bytes "  `F_value_p50` int(10) NOT NULL COMMENT 'P50', " ++
    bytes "  `F_value_p90` int(10) NOT NULL COMMENT 'P90', " ++
    bytes "  `F_update_time` timestamp NOT NULL DEFAULT CURRENT_TIMESTAMP " ++
    bytes "ON UPDATE CURRENT_TIMESTAMP,   PRIMARY KEY (`F_increment_id`), " ++
    bytes "  KEY `F_index` (`F_timestamp`, `F_metric`, `F_tag`) " ++
    bytes ") ENGINE=InnoDB AUTO_INCREMENT=1 DEFAULT CHARSET=utf8; "

/-- `INSERT` of one row. -/
def insertText (table : Bytes) (row : EventInsert) : Bytes :=
  bytes " INSERT INTO " ++ table ++
    bytes "  SET F_entity_idx = '" ++ cstr row.entityIdx ++
    bytes "', F_timestamp = " ++ signedDecimal row.timestamp.toInt ++
    bytes ",  F_metric = '" ++ cstr row.metric ++ bytes "', F_tag = '" ++ cstr row.tag ++
    bytes "', F_step = " ++ decimal row.step.toNat ++
    bytes ",  F_count = " ++ signedDecimal row.count.toInt ++
    bytes ", F_value_sum = " ++ signedDecimal row.valueSum.toInt ++
    bytes ", F_value_avg = " ++ signedDecimal row.valueAvg.toInt ++
    bytes ",  F_value_min = " ++ signedDecimal row.valueMin.toInt ++
    bytes ", F_value_max = " ++ signedDecimal row.valueMax.toInt ++
    bytes ", F_value_p10 = " ++ signedDecimal row.valueP10.toInt ++
    bytes ", F_value_p50 = " ++ signedDecimal row.valueP50.toInt ++
    bytes ", F_value_p90 = " ++ signedDecimal row.valueP90.toInt ++ bytes "; "

/-- What a select asks for: the rows of a table with a timestamp above `lower`, up
to `upper`, that pass the filters. -/
structure Query where
  groupby : GroupType
  table : Bytes
  upper : Int64
  lower : Int64
  metric : Bytes
  entityIdx : Bytes
  tag : Bytes
deriving DecidableEq

namespace Query

/-- `SELECT`. Without groups nothing follows the last comma of the column list. -/
def text (q : Query) : Bytes :=
  bytes "SELECT IFNULL(SUM(F_count), 0), IFNULL(SUM(F_value_sum), 0), " ++
    bytes " IFNULL(MIN(F_value_min), 0), IFNULL(MAX(F_value_max), 0), " ++
    bytes "IFNULL(AVG(F_value_p10), 0), IFNULL(AVG(F_value_p50), 0), " ++
    bytes "IFNULL(AVG(F_value_p90), 0), " ++
    (match q.groupby with
      | .byTimestamp => bytes " F_timestamp FROM "
      | .byTag => bytes " F_tag FROM "
      | .none => bytes " FROM ") ++
    q.table ++ bytes " WHERE F_timestamp <= " ++ signedDecimal q.upper.toInt ++
    bytes " AND F_timestamp > " ++ signedDecimal q.lower.toInt ++
    bytes " AND F_metric = '" ++ q.metric ++ bytes "'" ++
    (if q.entityIdx = [] then [] else bytes " AND F_entity_idx = '" ++ q.entityIdx ++ bytes "'") ++
    (if q.tag = [] then [] else bytes " AND F_tag = '" ++ q.tag ++ bytes "'") ++
    (match q.groupby with
      | .byTimestamp => bytes " GROUP BY F_timestamp ORDER BY F_timestamp DESC; "
      | .byTag => bytes " GROUP BY F_tag; "
      | .none => [])

/-- The `WHERE` clause. -/
def Admits (q : Query) (row : EventInsert) : Prop :=
  row.timestamp ≤ q.upper ∧ q.lower < row.timestamp ∧ row.metric = q.metric ∧
    (q.entityIdx ≠ [] → row.entityIdx = q.entityIdx) ∧ (q.tag ≠ [] → row.tag = q.tag)

instance (q : Query) (row : EventInsert) : Decidable (q.Admits row) :=
  inferInstanceAs (Decidable (_ ∧ _))

/-- The rows that are aggregated. -/
def chosen (q : Query) (rows : Table) : Table := rows.filter fun row => decide (q.Admits row)

/-- What the rows of a group have in common. -/
def rowKey (q : Query) (row : EventInsert) : Int64 × Bytes :=
  match q.groupby with
  | .byTimestamp => (row.timestamp, [])
  | .byTag => (0, row.tag)
  | .none => (0, [])

/-- The group that a line of the result is for. -/
def resultKey (q : Query) (r : ResultRow) : Int64 × Bytes :=
  match q.groupby with
  | .byTimestamp => (r.timestamp, [])
  | .byTag => (0, r.tag)
  | .none => (0, [])

/-- The rows of a group. -/
def group (q : Query) (rows : Table) (key : Int64 × Bytes) : Table :=
  (q.chosen rows).filter fun row => decide (q.rowKey row = key)

end Query

/-- `SUM`, `MIN` and `MAX` over some rows; a sum beyond 64 bits is read somehow. -/
structure Aggregates (rows : Table) (r : ResultRow) : Prop where
  count : Fits64 (rows.map fun row => row.count.toInt).sum →
    r.count.toInt = (rows.map fun row => row.count.toInt).sum
  valueSum : Fits64 (rows.map fun row => row.valueSum.toInt).sum →
    r.valueSum.toInt = (rows.map fun row => row.valueSum.toInt).sum
  valueMin : ∃ row ∈ rows, r.valueMin.toInt = row.valueMin.toInt ∧
    ∀ other ∈ rows, row.valueMin ≤ other.valueMin
  valueMax : ∃ row ∈ rows, r.valueMax.toInt = row.valueMax.toInt ∧
    ∀ other ∈ rows, other.valueMax ≤ row.valueMax

/-- The lines of a `SELECT` with groups, in any order: one for every group of the
rows that its `WHERE` clause admits. -/
structure Query.Result (q : Query) (rows : Table) (results : List ResultRow) : Prop where
  distinct : (results.map q.resultKey).Nodup
  complete : ∀ row ∈ q.chosen rows, q.rowKey row ∈ results.map q.resultKey
  lines : ∀ r ∈ results, Aggregates (q.group rows (q.resultKey r)) r

/-! ### What a server does with the statements -/

namespace SqlServer

/-- `INSERT` adds the row to the table and affects one row, or fails and changes
nothing. -/
def InsertsOrFails (server : SqlServer) (table : Bytes) (row : EventInsert) : Prop :=
  ∀ tables : Tables,
    (∃ rows, tables.find? table = some rows ∧
        server.update (insertText table row) tables =
          (1, tables.insert table (rows ++ [row]))) ∨
      ∃ affected, affected ≠ 1 ∧ server.update (insertText table row) tables = (affected, tables)

/-- `CREATE TABLE IF NOT EXISTS` adds an empty table or changes nothing. -/
def Creates (server : SqlServer) (table : Bytes) : Prop :=
  ∀ tables : Tables,
    (server.update (createText table) tables).2 = tables ∨
      (tables.find? table = none ∧
        (server.update (createText table) tables).2 = tables.insert table [])

/-- A `SELECT` with groups has its result if its table exists; one without groups,
which is not well formed, has none. -/
def Answers (server : SqlServer) (q : Query) (tables : Tables) : Prop :=
  if q.groupby = .none then server.query q.text tables = none
  else
    match tables.find? q.table with
    | none => server.query q.text tables = none
    | some rows => ∃ results, server.query q.text tables = some results ∧ q.Result rows results

theorem answers_of_result {server : SqlServer} {q : Query} {tables : Tables} {rows : Table}
    {results : List ResultRow} (groups : q.groupby ≠ .none)
    (present : tables.find? q.table = some rows)
    (result : server.query q.text tables = some results) (ok : q.Result rows results) :
    server.Answers q tables := by
  rw [Answers, if_neg groups, present]
  exact ⟨results, result, ok⟩

theorem Answers.isSome_iff {server : SqlServer} {q : Query} {tables : Tables}
    (answers : server.Answers q tables) :
    (server.query q.text tables).isSome ↔
      q.groupby ≠ .none ∧ (tables.find? q.table).isSome := by
  unfold Answers at answers
  split at answers
  · next plain => simp [answers, plain]
  · next groups =>
      split at answers
      · next absent => simp [answers, absent]
      · next rows present =>
          obtain ⟨results, result, _⟩ := answers
          simp [result, groups, present]

end SqlServer

/-! ### The store -/

namespace StoreSql

/-- The columns of a record. -/
def rowOf (stat : EventInsert) : EventInsert :=
  { stat with service := [], tag := StoreLevelDB.storedTag stat }

/-- The table that a record is inserted into. -/
def insertTable (s : StoreSql) (localtime : Localtime) (stat : EventInsert) : Bytes :=
  tableName ⟨cstr s.database, cstr s.tablePrefix⟩ (cstr stat.service)
    (getTableSuffix localtime stat.timestamp)

def createTable (s : StoreSql) (server : SqlServer) (service suffix : Bytes) (tables : Tables) :
    Option (Int32 × Tables) :=
  if service = [] ∨ s.database = [] ∨ s.tablePrefix = [] ∨ suffix = [] then some (-1, tables)
  else
    (vaFormat (createText
      (tableName ⟨cstr s.database, cstr s.tablePrefix⟩ (cstr service) suffix))).map
        fun sql => (0, (server.update sql tables).2)

/-- `insert_ev_stat`; `none` when `va_format` writes outside of its buffer. -/
def insertEvStat (s : StoreSql) (server : SqlServer) (localtime : Localtime) (conn : Bool)
    (stat : EventInsert) (tables : Tables) : Option (Int32 × Tables) :=
  if ¬conn then some (-1, tables)
  else if stat.service = [] ∨ stat.metric = [] ∨ stat.timestamp = 0 then some (-1, tables)
  else
    match vaFormat (insertText (s.insertTable localtime stat) (rowOf stat)) with
    | none => none
    | some sql =>
        let (affected, tables) := server.update sql tables
        if affected = 1 then some (0, tables)
        else
          match s.createTable server stat.service (getTableSuffix localtime stat.timestamp)
            tables with
          | none => none
          | some (_, tables) =>
              let (affected, tables) := server.update sql tables
              some (if affected = 1 then 0 else -1, tables)

/-- The select that `build_sql` writes for the window that ends at `start`. -/
def buildSql (s : StoreSql) (localtime : Localtime) (cond : EventCond) (start : Int64) : Query where
  groupby := cond.groupby
  table := tableName s cond.service (getTableSuffix localtime start)
  upper := start
  lower := start - cond.tmInterval
  metric := cond.metric
  entityIdx := cond.entityIdx
  tag := cond.tag

/-- The line of the result for one row. -/
def itemOf (groupby : GroupType) (row : ResultRow) : EventInfo :=
  let count := row.count.toInt32
  { timestamp := if groupby = .byTimestamp then row.timestamp else 0
    tag := if groupby = .byTag then row.tag else []
    count := count
    valueSum := row.valueSum
    valueAvg := if count ≠ 0 then (row.valueSum / count.toInt64).toInt32 else 0
    valueMin := row.valueMin.toInt32
    valueMax := row.valueMax.toInt32
    valueP10 := row.valueP10.toInt32
    valueP50 := row.valueP50.toInt32
    valueP90 := row.valueP90.toInt32 }

/-- The summary after the lines; `size` is the number of lines in the result. -/
def summarize (summary : EventInfo) (items : List EventInfo) (size : Nat) : EventInfo :=
  let summary := items.foldl StoreLevelDB.addItem
    { summary with valueMin := Int32.maxValue, valueMax := Int32.minValue }
  if summary.count ≠ 0 then
    { summary with
      valueAvg := (summary.valueSum / summary.count.toInt64).toInt32
      valueP10 := StoreLevelDB.divBySize summary.valueP10 size
      valueP50 := StoreLevelDB.divBySize summary.valueP50 size
      valueP90 := StoreLevelDB.divBySize summary.valueP90 size }
  else { summary with valueMin := 0, valueMax := 0 }

/-- `select_ev_stat`. Sorting is left to the client when there is a limit. -/
def selectEvStat (s : StoreSql) (server : SqlServer) (localtime : Localtime) (conn : Bool)
    (stdSort : (EventInfo → EventInfo → Bool) → List EventInfo → List EventInfo) (now : Int64)
    (cond : EventCond) (stat : EventSelect) (lingerHint : Int64) (tables : Tables) :
    Int32 × EventSelect :=
  if ¬conn then (-1, stat)
  else
    let start := StoreLevelDB.effectiveStart now lingerHint cond
    match server.query (s.buildSql localtime cond start).text tables with
    | none => (-1, { stat with timestamp := start })
    | some [] => (0, { stat with timestamp := start })
    | some rows =>
        let items := rows.map (itemOf cond.groupby)
        let info := stat.info ++ items
        let stat := { StoreLevelDB.prepare now lingerHint cond stat with
          summary := summarize stat.summary items info.length
          info := info }
        if cond.groupby = .none then (0, { stat with info := [] })
        else if cond.orderby = .none ∨ cond.limit ≠ 0 then (0, stat)
        else
          let sorted := Sort.doSort stdSort stat.info cond.orderby cond.orders
          (0, { stat with
            info := if sorted.length > sizeOfInt cond.limit then sorted.take (sizeOfInt cond.limit)
              else sorted })

end StoreSql

end Heracles.Business
