import Heracles.Business.StoreSql

/-!
The buffer of `va_format`.

`vsnprintf` cuts a text that does not fit and returns the length that the whole
text has; `va_format` takes what it returns for what it wrote. `inBuffer_iff` and
`vaFormat_eq_self_iff` say which texts come out, and `within_buffer_iff` which
records and service names give only such texts. A statement is logged with the
text that was to be formatted, so that what is executed can be compared with it.
-/

namespace Heracles.Business

open Heracles.Base

def kMaxBuffSize : Nat := 2 * 8190

/-- What `vsnprintf` returns for a text, added to a `uint32_t` that is zero: its
length, or -1 when no `int` holds that. -/
def vsnprintfReturn (text : Bytes) : UInt32 :=
  if text.length < 2 ^ 31 then 0 + UInt32.ofNat text.length else 0 + (0 - 1)

/-- The zeroed buffer of `kMaxBuffSize + 1` bytes after `vsnprintf` has written at
most `kMaxBuffSize` bytes to it, a zero among them. -/
def vsnprintfBuffer (text : Bytes) : Bytes :=
  let written := text.take (kMaxBuffSize - 1)
  written ++ List.replicate (kMaxBuffSize + 1 - written.length) 0

/-- The index of the zero that is written and the length of the string that is built
are within the buffer. -/
structure InBuffer (text : Bytes) : Prop where
  terminator : (vsnprintfReturn text).toNat < (vsnprintfBuffer text).length
  length : (vsnprintfReturn text).toNat ≤ (vsnprintfBuffer text).length

theorem length_vsnprintfBuffer (text : Bytes) :
    (vsnprintfBuffer text).length = kMaxBuffSize + 1 := by
  simp only [vsnprintfBuffer, List.length_append, List.length_replicate, List.length_take,
    kMaxBuffSize]
  omega

theorem toNat_vsnprintfReturn {text : Bytes} (short : text.length < 2 ^ 31) :
    (vsnprintfReturn text).toNat = text.length := by
  rw [vsnprintfReturn, if_pos short, UInt32.zero_add, UInt32.toNat_ofNat_of_lt']
  change text.length < 2 ^ 32
  omega

theorem inBuffer_iff {text : Bytes} : InBuffer text ↔ text.length ≤ kMaxBuffSize := by
  have size := length_vsnprintfBuffer text
  by_cases short : text.length < 2 ^ 31
  · have returned := toNat_vsnprintfReturn short
    constructor
    · intro inside
      have := inside.terminator
      omega
    · intro fits
      exact ⟨by omega, by omega⟩
  · have returned : (vsnprintfReturn text).toNat = 2 ^ 32 - 1 := by
      rw [vsnprintfReturn, if_neg short]
      rfl
    rw [kMaxBuffSize] at size ⊢
    constructor
    · intro inside
      have := inside.terminator
      omega
    · intro fits
      omega

instance instDecidableInBuffer (text : Bytes) : Decidable (InBuffer text) :=
  decidable_of_iff _ inBuffer_iff.symm

/-- `vaFormat` step by step. -/
theorem vaFormat_eq (text : Bytes) :
    vaFormat text =
      if InBuffer text then
        some (((vsnprintfBuffer text).set (vsnprintfReturn text).toNat 0).take
          (vsnprintfReturn text).toNat)
      else none := by
  by_cases fits : text.length ≤ kMaxBuffSize
  · have returned : (vsnprintfReturn text).toNat = text.length :=
      toNat_vsnprintfReturn (by rw [kMaxBuffSize] at fits; omega)
    rw [if_pos (inBuffer_iff.mpr fits), returned, List.take_set_of_le (Nat.le_refl _), vaFormat]
    rw [kMaxBuffSize] at fits
    split
    · next short =>
        have whole : text.take (kMaxBuffSize - 1) = text :=
          List.take_of_length_le (by rw [kMaxBuffSize]; omega)
        rw [vsnprintfBuffer, whole, List.take_left]
    · next large =>
        have exact : text.length = 16380 := by omega
        have cut : (text.take 16379).length = 16379 := by
          rw [List.length_take]
          omega
        have buffer : vsnprintfBuffer text = text.take 16379 ++ [0, 0] := by
          simp only [vsnprintfBuffer]
          rw [show kMaxBuffSize - 1 = 16379 from rfl, cut]
          rfl
        rw [if_pos exact, buffer, exact, show 16380 = (text.take 16379).length + 1 by rw [cut],
          List.take_length_add_append]
        rfl
  · rw [if_neg fun inside => fits (inBuffer_iff.mp inside), vaFormat]
    rw [kMaxBuffSize] at fits
    rw [if_neg (by omega), if_neg (by omega)]

/-- A text that does not end with a zero byte comes out whole exactly when it is
shorter than what `vsnprintf` may write. -/
theorem vaFormat_eq_self_iff {text : Bytes} (ends : text.getLast? ≠ some 0) :
    vaFormat text = some text ↔ text.length < kMaxBuffSize := by
  unfold vaFormat
  constructor
  · intro same
    by_contra large
    rw [kMaxBuffSize] at large
    rw [if_neg (by omega)] at same
    split at same
    · refine ends ?_
      rw [← Option.some.inj same, List.getLast?_append]
      rfl
    · cases same
  · intro short
    rw [kMaxBuffSize] at short
    rw [if_pos (by omega)]

/-! ### Calls with the statements they format -/

/-- A statement: the whole text, and what `va_format` returned and the server was
given, if it kept to its buffer. -/
structure Statement where
  text : Bytes
  executed : Option Bytes
  deriving DecidableEq

def Statement.format (text : Bytes) : Statement := ⟨text, vaFormat text⟩

/-- Every statement kept to the buffer, and it was executed whole or the call
failed. -/
def Contained (log : List Statement) (ret : Option Int32) : Prop :=
  ∀ statement ∈ log, InBuffer statement.text ∧
    (statement.executed = some statement.text ∨ ∃ code, ret = some code ∧ code ≠ 0)

theorem Statement.format_whole {text : Bytes} (ends : text.getLast? ≠ some 0)
    (short : text.length < kMaxBuffSize) :
    InBuffer (format text).text ∧ (format text).executed = some (format text).text :=
  ⟨inBuffer_iff.mpr short.le, (vaFormat_eq_self_iff ends).mpr short⟩

/-- A statement that is part of a successful call is short. -/
theorem Contained.short {log : List Statement} {ret : Option Int32} (contained : Contained log ret)
    {text : Bytes} (member : Statement.format text ∈ log) (ends : text.getLast? ≠ some 0)
    (success : ∀ code, ret = some code → code = 0) : text.length < kMaxBuffSize := by
  obtain ⟨_, whole | ⟨code, same, failed⟩⟩ := contained _ member
  · exact (vaFormat_eq_self_iff ends).mp whole
  · exact absurd (success code same) failed

namespace StoreSql

/-- The text of `select_metrics`. -/
def metricsText (table : Bytes) : Bytes :=
  bytes " SELECT distinct(F_metric) FROM " ++ table ++ bytes "; "

/-- The table of a service and a month, as `%s` formats the names. -/
def formattedTable (s : StoreSql) (service suffix : Bytes) : Bytes :=
  tableName ⟨cstr s.database, cstr s.tablePrefix⟩ (cstr service) suffix

/-- `createTable` with its statement. -/
def createTableLog (s : StoreSql) (server : SqlServer) (service suffix : Bytes)
    (tables : Tables) : List Statement × Option (Int32 × Tables) :=
  if service = [] ∨ s.database = [] ∨ s.tablePrefix = [] ∨ suffix = [] then ([], some (-1, tables))
  else
    let statement := Statement.format (createText (s.formattedTable service suffix))
    ([statement], statement.executed.map fun sql => (0, (server.update sql tables).2))

/-- `insertEvStat` with its statements. -/
def insertEvStatLog (s : StoreSql) (server : SqlServer) (localtime : Localtime) (conn : Bool)
    (stat : EventInsert) (tables : Tables) : List Statement × Option (Int32 × Tables) :=
  if ¬conn then ([], some (-1, tables))
  else if stat.service = [] ∨ stat.metric = [] ∨ stat.timestamp = 0 then ([], some (-1, tables))
  else
    let statement := Statement.format (insertText (s.insertTable localtime stat) (rowOf stat))
    match statement.executed with
    | none => ([statement], none)
    | some sql =>
        let (affected, tables) := server.update sql tables
        if affected = 1 then ([statement], some (0, tables))
        else
          let (log, created) := s.createTableLog server stat.service
            (getTableSuffix localtime stat.timestamp) tables
          match created with
          | none => (statement :: log, none)
          | some (_, tables) =>
              let (affected, tables) := server.update sql tables
              (statement :: log, some (if affected = 1 then 0 else -1, tables))

/-- `select_metrics`: the result is the first column of each line, as `getString`
reads it or fails to. -/
def selectMetricsLog (s : StoreSql) (query : Bytes → Tables → Option (List (Option Bytes)))
    (localtime : Localtime) (conn : Bool) (now : Int64) (service : Bytes) (metrics : List Bytes)
    (tables : Tables) : List Statement × Option (Int32 × List Bytes) :=
  if service = [] then ([], some (-1, metrics))
  else if ¬conn then ([], some (-1, metrics))
  else
    let statement :=
      Statement.format (metricsText (s.formattedTable service (getTableSuffix localtime now)))
    match statement.executed with
    | none => ([statement], none)
    | some sql =>
        match query sql tables with
        | none => ([statement], some (-1, metrics))
        | some rows => ([statement], some (0, metrics ++ rows.filterMap id))

theorem createTableLog_snd (s : StoreSql) (server : SqlServer) (service suffix : Bytes)
    (tables : Tables) :
    (s.createTableLog server service suffix tables).2 =
      s.createTable server service suffix tables := by
  simp only [createTableLog, createTable, Statement.format, formattedTable]
  split
  · rfl
  · simp only []

/-- The log changes nothing about the call. -/
theorem insertEvStatLog_snd (s : StoreSql) (server : SqlServer) (localtime : Localtime)
    (conn : Bool) (stat : EventInsert) (tables : Tables) :
    (s.insertEvStatLog server localtime conn stat tables).2 =
      s.insertEvStat server localtime conn stat tables := by
  unfold insertEvStatLog insertEvStat
  split
  · rfl
  · split
    · rfl
    · simp only [Statement.format, ← createTableLog_snd]
      cases vaFormat (insertText (s.insertTable localtime stat) (rowOf stat)) with
      | none => rfl
      | some sql =>
          simp only []
          split
          · rfl
          · cases (s.createTableLog server stat.service (getTableSuffix localtime stat.timestamp)
              (server.update sql tables).2).2 with
            | none => rfl
            | some created => rfl

/-! ### What is claimed -/

/-- `insert_ev_stat` keeps to the buffer, whatever the server answers. -/
def InsertContained (s : StoreSql) (localtime : Localtime) (stat : EventInsert) : Prop :=
  ∀ server conn tables,
    Contained (s.insertEvStatLog server localtime conn stat tables).1
      ((s.insertEvStatLog server localtime conn stat tables).2.map Prod.fst)

/-- `select_metrics` keeps to the buffer, whatever the server answers. -/
def SelectContained (s : StoreSql) (localtime : Localtime) (now : Int64) (service : Bytes) : Prop :=
  ∀ query conn metrics tables,
    Contained (s.selectMetricsLog query localtime conn now service metrics tables).1
      ((s.selectMetricsLog query localtime conn now service metrics tables).2.map Prod.fst)

/-- The records that are refused before anything is formatted. -/
def Refused (stat : EventInsert) : Prop :=
  stat.service = [] ∨ stat.metric = [] ∨ stat.timestamp = 0

instance instDecidableRefused (stat : EventInsert) : Decidable (Refused stat) :=
  inferInstanceAs (Decidable (_ ∨ _))

/-- `create_table` has all the names it needs. -/
def Creates (s : StoreSql) (localtime : Localtime) (stat : EventInsert) : Prop :=
  ¬ (stat.service = [] ∨ s.database = [] ∨ s.tablePrefix = [] ∨
    getTableSuffix localtime stat.timestamp = [])

/-- The text of the `INSERT`. -/
def insertStatement (s : StoreSql) (localtime : Localtime) (stat : EventInsert) : Bytes :=
  insertText (s.insertTable localtime stat) (rowOf stat)

/-- The text of the `CREATE TABLE` that follows a failed `INSERT`. -/
def createStatement (s : StoreSql) (localtime : Localtime) (stat : EventInsert) : Bytes :=
  createText (s.formattedTable stat.service (getTableSuffix localtime stat.timestamp))

/-! ### The texts of a call -/

theorem getLast?_semicolon (front : Bytes) : (front ++ bytes "; ").getLast? ≠ some 0 := by
  rw [List.getLast?_append, show (bytes "; ").getLast? = some 32 by decide +kernel, Option.some_or]
  decide

theorem getLast?_engine (front : Bytes) :
    (front ++ bytes ") ENGINE=InnoDB AUTO_INCREMENT=1 DEFAULT CHARSET=utf8; ").getLast? ≠
      some 0 := by
  rw [List.getLast?_append,
    show (bytes ") ENGINE=InnoDB AUTO_INCREMENT=1 DEFAULT CHARSET=utf8; ").getLast? = some 32 by
      decide +kernel, Option.some_or]
  decide

theorem insertStatement_ends (s : StoreSql) (localtime : Localtime) (stat : EventInsert) :
    (s.insertStatement localtime stat).getLast? ≠ some 0 :=
  getLast?_semicolon _

theorem createStatement_ends (s : StoreSql) (localtime : Localtime) (stat : EventInsert) :
    (s.createStatement localtime stat).getLast? ≠ some 0 :=
  getLast?_engine _

theorem metricsText_ends (table : Bytes) : (metricsText table).getLast? ≠ some 0 :=
  getLast?_semicolon _

theorem mem_insertEvStatLog {s : StoreSql} {server : SqlServer} {localtime : Localtime}
    {conn : Bool} {stat : EventInsert} {tables : Tables} {statement : Statement}
    (member : statement ∈ (s.insertEvStatLog server localtime conn stat tables).1) :
    ¬ Refused stat ∧ (statement = .format (s.insertStatement localtime stat) ∨
      (s.Creates localtime stat ∧ statement = .format (s.createStatement localtime stat))) := by
  unfold insertEvStatLog at member
  split at member
  · cases member
  · split at member
    · cases member
    · next admitted =>
        refine ⟨admitted, ?_⟩
        have created {tables : Tables} (created : statement ∈ (s.createTableLog server stat.service
            (getTableSuffix localtime stat.timestamp) tables).1) :
            s.Creates localtime stat ∧ statement = .format (s.createStatement localtime stat) := by
          unfold createTableLog at created
          split at created
          · cases created
          · next named => exact ⟨named, List.mem_singleton.mp created⟩
        dsimp only at member
        split at member
        · exact Or.inl (List.mem_singleton.mp member)
        · split at member
          · exact Or.inl (List.mem_singleton.mp member)
          · split at member
            · rcases List.mem_cons.mp member with first | later
              · exact Or.inl first
              · exact Or.inr (created later)
            · rcases List.mem_cons.mp member with first | later
              · exact Or.inl first
              · exact Or.inr (created later)

/-! ### Servers that show what a text does -/

/-- A server that accepts everything. -/
def accepting : SqlServer := ⟨fun _ tables => (1, tables), fun _ _ => none⟩

/-- A server that accepts everything but the first statement. -/
def acceptingLater : SqlServer where
  update _ tables :=
    match tables.find? [] with
    | none => (-1, tables.insert [] [])
    | some _ => (1, tables)
  query _ _ := none

theorem acceptingLater_first (sql : Bytes) :
    acceptingLater.update sql .empty = (-1, OrdMap.empty.insert [] []) := rfl

theorem acceptingLater_later (sql : Bytes) :
    acceptingLater.update sql (OrdMap.empty.insert [] []) = (1, OrdMap.empty.insert [] []) := by
  simp only [acceptingLater, OrdMap.find?_insert_self]

/-- The `INSERT` is formatted for every record that is not refused. -/
theorem InsertContained.insertShort {s : StoreSql} {localtime : Localtime} {stat : EventInsert}
    (contained : s.InsertContained localtime stat) (admitted : ¬ Refused stat) :
    (s.insertStatement localtime stat).length < kMaxBuffSize := by
  have log : (s.insertEvStatLog accepting localtime true stat .empty).1 =
        [.format (s.insertStatement localtime stat)] ∧
      ∀ code, (s.insertEvStatLog accepting localtime true stat .empty).2.map Prod.fst = some code →
        code = 0 := by
    rw [insertEvStatLog, if_neg (not_not_intro rfl),
      if_neg (show ¬ (stat.service = [] ∨ stat.metric = [] ∨ stat.timestamp = 0) from admitted)]
    simp only [Statement.format, accepting, if_true]
    split
    · exact ⟨rfl, nofun⟩
    · exact ⟨rfl, fun code same => (Option.some.inj same).symm⟩
  refine (contained accepting true .empty).short ?_ (s.insertStatement_ends localtime stat) log.2
  rw [log.1]
  exact List.mem_singleton_self _

/-- The `CREATE TABLE` is formatted when the first statement is not accepted. -/
theorem InsertContained.createShort {s : StoreSql} {localtime : Localtime} {stat : EventInsert}
    (contained : s.InsertContained localtime stat) (admitted : ¬ Refused stat)
    (creates : s.Creates localtime stat) :
    (s.createStatement localtime stat).length < kMaxBuffSize := by
  have whole : vaFormat (insertText (s.insertTable localtime stat) (rowOf stat)) =
      some (insertText (s.insertTable localtime stat) (rowOf stat)) :=
    (vaFormat_eq_self_iff (s.insertStatement_ends localtime stat)).mpr
      (contained.insertShort admitted)
  have log : .format (s.createStatement localtime stat) ∈
        (s.insertEvStatLog acceptingLater localtime true stat .empty).1 ∧
      ∀ code, (s.insertEvStatLog acceptingLater localtime true stat .empty).2.map Prod.fst =
        some code → code = 0 := by
    rw [insertEvStatLog, if_neg (not_not_intro rfl),
      if_neg (show ¬ (stat.service = [] ∨ stat.metric = [] ∨ stat.timestamp = 0) from admitted)]
    simp only [Statement.format, whole, acceptingLater_first, createTableLog, if_neg creates]
    rw [if_neg (by decide)]
    cases made : vaFormat (createText
        (s.formattedTable stat.service (getTableSuffix localtime stat.timestamp))) with
    | none =>
        refine ⟨?_, nofun⟩
        rw [createStatement, made]
        exact List.mem_cons_of_mem _ (List.mem_singleton_self _)
    | some sql =>
        simp only [Option.map_some, acceptingLater_later, if_true]
        refine ⟨?_, fun code same => (Option.some.inj same).symm⟩
        rw [createStatement, made]
        exact List.mem_cons_of_mem _ (List.mem_singleton_self _)
  exact (contained acceptingLater true .empty).short log.1 (s.createStatement_ends localtime stat)
    log.2

theorem insertContained_iff (s : StoreSql) (localtime : Localtime) (stat : EventInsert) :
    s.InsertContained localtime stat ↔
      Refused stat ∨ ((s.insertStatement localtime stat).length < kMaxBuffSize ∧
        (s.Creates localtime stat → (s.createStatement localtime stat).length < kMaxBuffSize)) := by
  constructor
  · intro contained
    by_cases refused : Refused stat
    · exact Or.inl refused
    · exact Or.inr ⟨contained.insertShort refused, contained.createShort refused⟩
  · rintro fits server conn tables statement member
    obtain ⟨admitted, formatted⟩ := mem_insertEvStatLog member
    obtain ⟨insertFits, createFits⟩ := fits.resolve_left admitted
    rcases formatted with rfl | ⟨creates, rfl⟩
    · obtain ⟨inside, whole⟩ :=
        Statement.format_whole (s.insertStatement_ends localtime stat) insertFits
      exact ⟨inside, Or.inl whole⟩
    · obtain ⟨inside, whole⟩ :=
        Statement.format_whole (s.createStatement_ends localtime stat) (createFits creates)
      exact ⟨inside, Or.inl whole⟩

/-- The text of `select_metrics` for a service at a time. -/
def metricsStatement (s : StoreSql) (localtime : Localtime) (now : Int64) (service : Bytes) :
    Bytes :=
  metricsText (s.formattedTable service (getTableSuffix localtime now))

theorem selectContained_iff (s : StoreSql) (localtime : Localtime) (now : Int64)
    (service : Bytes) :
    s.SelectContained localtime now service ↔
      service = [] ∨ (s.metricsStatement localtime now service).length < kMaxBuffSize := by
  have ends := metricsText_ends (s.formattedTable service (getTableSuffix localtime now))
  constructor
  · intro contained
    by_cases unnamed : service = []
    · exact Or.inl unnamed
    · refine Or.inr ((contained (fun _ _ => some []) true [] .empty).short ?_ ends ?_)
      · rw [selectMetricsLog, if_neg unnamed, if_neg (not_not_intro rfl)]
        dsimp only
        split
        · exact List.mem_singleton_self _
        · exact List.mem_singleton_self _
      · intro code returned
        rw [selectMetricsLog, if_neg unnamed, if_neg (not_not_intro rfl)] at returned
        dsimp only at returned
        split at returned
        · cases returned
        · exact (Option.some.inj returned).symm
  · rintro fits query conn metrics tables statement member
    unfold selectMetricsLog at member
    split at member
    · cases member
    · next named =>
        split at member
        · cases member
        · have only : statement = .format (s.metricsStatement localtime now service) := by
            dsimp only at member
            split at member
            · exact List.mem_singleton.mp member
            · split at member
              · exact List.mem_singleton.mp member
              · exact List.mem_singleton.mp member
          obtain ⟨inside, whole⟩ := Statement.format_whole ends (fits.resolve_left named)
          rw [only]
          exact ⟨inside, Or.inl whole⟩

/-- A record is inserted within the buffer exactly when it is refused at once or the
texts for it are shorter than the buffer, and the metrics of a service are selected
within the buffer exactly when its name is empty or the text for it is. -/
theorem within_buffer_iff (s : StoreSql) (localtime : Localtime) :
    (∀ stat, s.InsertContained localtime stat ↔
        Refused stat ∨ ((s.insertStatement localtime stat).length < kMaxBuffSize ∧
          (s.Creates localtime stat →
            (s.createStatement localtime stat).length < kMaxBuffSize))) ∧
      ∀ now service, s.SelectContained localtime now service ↔
        service = [] ∨ (s.metricsStatement localtime now service).length < kMaxBuffSize :=
  ⟨s.insertContained_iff localtime, s.selectContained_iff localtime⟩

/-- A record of a service whose name has that many letters. -/
private def named (letters : Nat) : EventInsert :=
  { timestamp := 1550000000, service := List.replicate letters 97, metric := bytes "m"
    entityIdx := [], tag := [], step := 10, count := 1, valueSum := 1, valueAvg := 1, valueMin := 1
    valueMax := 1, valueP10 := 1, valueP50 := 1, valueP90 := 1 }

theorem length_table_le (table : Bytes) (row : EventInsert) :
    table.length ≤ (insertText table row).length := by
  unfold insertText
  simp only [List.length_append]
  omega

theorem length_service_le (s : StoreSql) (localtime : Localtime) (stat : EventInsert) :
    (cstr stat.service).length ≤ (s.insertTable localtime stat).length := by
  simp only [insertTable, tableName, List.length_append]
  omega

private theorem cstr_letters (letters : Nat) :
    cstr (List.replicate letters 97) = List.replicate letters 97 := by
  refine cstr_eq_self fun zero => ?_
  exact absurd (List.eq_of_mem_replicate zero) (by decide)

private theorem admitted_named {letters : Nat} (some : letters ≠ 0) :
    ¬ Refused (named letters) := by
  rintro (service | metric | timestamp)
  · exact some (List.replicate_eq_nil_iff _ |>.mp service)
  · cases metric
  · change (1550000000 : Int64) = 0 at timestamp
    exact absurd timestamp (by decide)

/-- A service name of 20000 letters leads outside of the buffer. -/
theorem long_name_overflows :
    ¬ ∀ s localtime stat, InsertContained s localtime stat := by
  intro always
  have short := (always ⟨bytes "db", bytes "t"⟩ (fun _ => ⟨119, 1⟩) (named 20000)).insertShort
    (admitted_named (by decide))
  have table := length_table_le
    ((StoreSql.mk (bytes "db") (bytes "t")).insertTable (fun _ => ⟨119, 1⟩) (named 20000))
    (rowOf (named 20000))
  have service := length_service_le ⟨bytes "db", bytes "t"⟩ (fun _ => ⟨119, 1⟩) (named 20000)
  rw [show (named 20000).service = List.replicate 20000 97 from rfl, cstr_letters,
    List.length_replicate] at service
  rw [insertStatement, kMaxBuffSize] at short
  omega

end StoreSql

end Heracles.Business
