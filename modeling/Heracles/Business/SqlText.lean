import Heracles.Base.SqlSelect
import Heracles.Business.StoreSql

/-!
The text of a select.

`build_sql` puts a text together from the names of the table, two numbers and the
strings of the condition, each between two quotes. `statement` is what the condition
asks for. `means_iff` says for which conditions the text is that statement: the
strings are pasted as they come, and without groups the list of columns ends in a
comma.
-/

namespace Heracles.Business

open Heracles.Base

/-! ### What a condition asks for -/

/-- An aggregate of a column, or zero for no rows. -/
def aggregateItem (function column : String) : Sql.Item := .ifNull (bytes function) (bytes column) 0

def groupColumn : GroupType → Option Bytes
  | .byTimestamp => some (bytes "F_timestamp")
  | .byTag => some (bytes "F_tag")
  | .none => none

/-- The aggregates that every select asks for. -/
def aggregateItems : Sql.Series Sql.Item where
  first := aggregateItem "SUM" "F_count"
  others := [aggregateItem "SUM" "F_value_sum", aggregateItem "MIN" "F_value_min",
    aggregateItem "MAX" "F_value_max", aggregateItem "AVG" "F_value_p10",
    aggregateItem "AVG" "F_value_p50", aggregateItem "AVG" "F_value_p90"]

def equals (column : String) (v : Bytes) : Sql.Comparison := ⟨bytes column, .eq, .string v⟩

/-- An empty filter lets every row pass. -/
def filterOn (column : String) (v : Bytes) : List Sql.Comparison :=
  if v = [] then [] else [equals column v]

namespace StoreSql

/-- The name of a table in the database. -/
def tableWord (s : StoreSql) (service suffix : Bytes) : Bytes :=
  s.tablePrefix ++ bytes "__" ++ service ++ bytes "__events_" ++ suffix

/-- The select that a condition asks for, over the window that ends at `start`. -/
def statement (s : StoreSql) (localtime : Localtime) (cond : EventCond) (start : Int64) :
    Sql.Select where
  items := ⟨aggregateItems.first,
    aggregateItems.others ++ ((groupColumn cond.groupby).map Sql.Item.bare).toList⟩
  database := s.database
  table := s.tableWord cond.service (getTableSuffix localtime start)
  conditions := ⟨⟨bytes "F_timestamp", .le, .number start.toInt⟩,
    ⟨bytes "F_timestamp", .gt, .number (start - cond.tmInterval).toInt⟩ ::
      equals "F_metric" cond.metric ::
        (filterOn "F_entity_idx" cond.entityIdx ++ filterOn "F_tag" cond.tag)⟩
  groupBy := groupColumn cond.groupby
  orderBy := if cond.groupby = .byTimestamp then some (bytes "F_timestamp") else none
  closed := decide (cond.groupby ≠ .none)

end StoreSql

/-- A query of the same shape: of the strings, only whether a filter is there counts. -/
def Query.shape (q : Query) : Query :=
  { q with
    metric := []
    entityIdx := if q.entityIdx = [] then [] else bytes "x"
    tag := if q.tag = [] then [] else bytes "x" }

/-! ### The pieces of the text -/

/-- A comparison with a pasted string, if there is one to paste. -/
def pasted (opening v rest : Bytes) : Bytes :=
  if v = [] then rest else opening ++ Sql.quoted v rest

namespace Query

/-- Up to the name of the table. -/
def selectText (g : GroupType) : Bytes :=
  bytes "SELECT IFNULL(SUM(F_count), 0), IFNULL(SUM(F_value_sum), 0), " ++
    (bytes " IFNULL(MIN(F_value_min), 0), IFNULL(MAX(F_value_max), 0), " ++
      (bytes "IFNULL(AVG(F_value_p10), 0), IFNULL(AVG(F_value_p50), 0), " ++
        (bytes "IFNULL(AVG(F_value_p90), 0), " ++
          (match g with
            | .byTimestamp => bytes " F_timestamp FROM "
            | .byTag => bytes " F_tag FROM "
            | .none => bytes " FROM "))))

def tailText (g : GroupType) : Bytes :=
  match g with
  | .byTimestamp => bytes " GROUP BY F_timestamp ORDER BY F_timestamp DESC; "
  | .byTag => bytes " GROUP BY F_tag; "
  | .none => []

/-- Behind the name of the table, up to the quote before the metric. -/
def windowText (q : Query) : Bytes :=
  bytes " WHERE F_timestamp <= " ++ (signedDecimal q.upper.toInt ++
    (bytes " AND F_timestamp > " ++ (signedDecimal q.lower.toInt ++ bytes " AND F_metric = ")))

/-- The pasted strings and what follows them. -/
def stringsText (q : Query) : Bytes :=
  Sql.quoted q.metric (pasted (bytes " AND F_entity_idx = ") q.entityIdx
    (pasted (bytes " AND F_tag = ") q.tag (tailText q.groupby)))

theorem pasted_eq {opening closing : Bytes} {v rest : Bytes} (quote : closing = [39]) :
    (if v = [] then [] else opening ++ (closing ++ (v ++ closing))) ++ rest =
      pasted opening v rest := by
  subst quote
  unfold pasted
  split
  · rfl
  · simp [Sql.quoted]

theorem text_eq (q : Query) :
    q.text = selectText q.groupby ++ (q.table ++ (q.windowText ++ q.stringsText)) := by
  have quote : bytes "'" = [39] := by decide +kernel
  have metric : bytes " AND F_metric = '" = bytes " AND F_metric = " ++ [39] := by
    decide +kernel
  have entityIdx : bytes " AND F_entity_idx = '" = bytes " AND F_entity_idx = " ++ [39] := by
    decide +kernel
  have tag : bytes " AND F_tag = '" = bytes " AND F_tag = " ++ [39] := by decide +kernel
  rw [text, metric, entityIdx, tag, quote]
  obtain ⟨g, table, upper, lower, metric, entityIdx, tag⟩ := q
  cases g <;>
    simp only [selectText, windowText, stringsText, ← pasted_eq rfl, Sql.quoted, tailText,
      List.append_assoc, List.cons_append, List.nil_append]

/-- The tokens up to the name of the table; without groups an item is missing. -/
def selectTokens (g : GroupType) : List Sql.Token :=
  .key .selectKey :: (aggregateItems.tokens Sql.Item.tokens (.symbol 44) ++
    Sql.Token.symbol 44 :: ((groupColumn g).map Sql.Token.name).toList ++
      [Sql.Token.key .fromKey])

theorem writes_selectText (g : GroupType) : Sql.Writes (selectText g) (selectTokens g) := by
  refine .of_feed ?_
  cases g with
  | none => decide +kernel
  | byTimestamp => decide +kernel
  | byTag => decide +kernel

/-- The tokens of the window, up to the metric. -/
def windowTokens (q : Query) : List Sql.Token :=
  [Sql.Token.key .whereKey, .name (bytes "F_timestamp"), .operator (bytes "<=")] ++
    ((Sql.Operand.number q.upper.toInt).tokens ++
      ([Sql.Token.key .andKey, .name (bytes "F_timestamp"), .operator (bytes ">")] ++
        ((Sql.Operand.number q.lower.toInt).tokens ++
          [Sql.Token.key .andKey, .name (bytes "F_metric"), .operator (bytes "=")])))

theorem writes_windowText (q : Query) : Sql.Writes q.windowText q.windowTokens := by
  have upper : Sql.Writes (bytes " WHERE F_timestamp <= ")
      [.key .whereKey, .name (bytes "F_timestamp"), .operator (bytes "<=")] :=
    .of_feed (by decide +kernel)
  have lower : Sql.Writes (bytes " AND F_timestamp > ")
      [.key .andKey, .name (bytes "F_timestamp"), .operator (bytes ">")] :=
    .of_feed (by decide +kernel)
  have metric : Sql.Writes (bytes " AND F_metric = ")
      [.key .andKey, .name (bytes "F_metric"), .operator (bytes "=")] :=
    .of_feed (by decide +kernel)
  have lowerFirst : (bytes " AND F_timestamp > ").head? = some 32 := by decide +kernel
  have metricFirst : (bytes " AND F_metric = ").head? = some 32 := by decide +kernel
  have behind := lower.append (.number q.lower.toInt metricFirst rfl metric)
  have behindFirst : (bytes " AND F_timestamp > " ++
      (signedDecimal q.lower.toInt ++ bytes " AND F_metric = ")).head? = some 32 := by
    rw [List.head?_append, lowerFirst, Option.some_or]
  exact upper.append (.number q.upper.toInt behindFirst rfl behind)

def tailTokens (g : GroupType) : List Sql.Token :=
  match g with
  | .byTimestamp =>
      [.key .groupKey, .key .byKey, .name (bytes "F_timestamp"), .key .orderKey, .key .byKey,
        .name (bytes "F_timestamp"), .key .descKey, .symbol 59]
  | .byTag => [.key .groupKey, .key .byKey, .name (bytes "F_tag"), .symbol 59]
  | .none => []

theorem writes_tailText (g : GroupType) : Sql.Writes (tailText g) (tailTokens g) := by
  refine .of_feed ?_
  cases g with
  | none => decide +kernel
  | byTimestamp => decide +kernel
  | byTag => decide +kernel

end Query

/-! ### The pasted strings -/

/-- The tokens of a comparison with a string, if there is one. -/
def pastedTokens (opening : List Sql.Token) (v : Bytes) : List Sql.Token :=
  if v = [] then [] else opening ++ [Sql.Token.literal v]

/-- Texts that a literal can stand before. -/
def Apart (rest : Bytes) : Prop := ∀ c ∈ rest.head?, Sql.special c = false

theorem apart_pasted {opening v rest : Bytes} (first : opening.head? = some 32)
    (apart : Apart rest) : Apart (pasted opening v rest) := by
  unfold pasted
  split
  · exact apart
  · intro c same
    rw [List.head?_append, first, Option.some_or] at same
    cases same
    rfl

theorem tokenize_pasted_iff {opening v rest : Bytes} {toks more : List Sql.Token}
    (piece : Sql.Writes opening toks) (apart : Apart rest) :
    Sql.tokenize (pasted opening v rest) = some (pastedTokens toks v ++ more) ↔
      Sql.plain v = true ∧ Sql.tokenize rest = some more := by
  unfold pasted pastedTokens
  split
  · next empty => simp [empty, Sql.plain]
  · rw [List.append_assoc, piece.tokenize_iff, List.singleton_append,
      Sql.tokenize_quoted_iff apart]

theorem outside_pasted {opening v w rest rest' : Bytes} {toks : List Sql.Token}
    (piece : Sql.Writes opening toks) (apart : Apart rest) (apart' : Apart rest')
    (present : v = [] ↔ w = []) (ok : Sql.plain v = true) (ok' : Sql.plain w = true)
    (same : Sql.outside rest = Sql.outside rest') :
    Sql.outside (pasted opening v rest) = Sql.outside (pasted opening w rest') := by
  unfold pasted
  by_cases empty : v = []
  · rw [if_pos empty, if_pos (present.mp empty)]
    exact same
  · rw [if_neg empty, if_neg fun none => empty (present.mpr none)]
    exact piece.outside_congr (Sql.outside_quoted apart apart' ok ok' same)

/-! ### What the text means -/

namespace StoreSql

/-- The text is the statement that the condition asks for, and outside of its literals
it depends on the shape only. -/
structure MeansCondition (s : StoreSql) (localtime : Localtime) (cond : EventCond)
    (start : Int64) : Prop where
  statement : Sql.read (s.buildSql localtime cond start).text =
    some (s.statement localtime cond start)
  outside : Sql.outside (s.buildSql localtime cond start).text =
    Sql.outside (s.buildSql localtime cond start).shape.text

/-- The names are names, the condition has groups and its strings denote themselves. -/
structure Pasteable (s : StoreSql) (localtime : Localtime) (cond : EventCond)
    (start : Int64) : Prop where
  grouped : cond.groupby ≠ .none
  database : Sql.isName s.database = true
  table : (s.tableWord cond.service (getTableSuffix localtime start)).all Sql.wordByte = true
  metric : Sql.plain cond.metric = true
  entityIdx : Sql.plain cond.entityIdx = true
  tag : Sql.plain cond.tag = true

/-- The column of the groups as the last item. -/
theorem groupItem_tokens {g : GroupType} (grouped : g ≠ .none) :
    (((groupColumn g).map Sql.Item.bare).toList.flatMap fun i => .symbol 44 :: i.tokens) =
      .symbol 44 :: ((groupColumn g).map Sql.Token.name).toList := by
  cases g with
  | none => exact absurd rfl grouped
  | byTimestamp => rfl
  | byTag => rfl

/-- The order and the semicolon that go with the groups. -/
theorem tailTokens_eq (g : GroupType) :
    Sql.groupTokens (groupColumn g) ++
        (Sql.orderTokens (if g = .byTimestamp then some (bytes "F_timestamp") else none) ++
          Sql.closeTokens (decide (g ≠ .none))) =
      Query.tailTokens g := by
  cases g with
  | none => rfl
  | byTimestamp => rfl
  | byTag => rfl

theorem filterOn_tokens (column : String) (v : Bytes) :
    ((filterOn column v).flatMap fun c => .key .andKey :: Sql.Comparison.tokens c) =
      pastedTokens [.key .andKey, .name (bytes column), .operator (bytes "=")] v := by
  unfold filterOn pastedTokens
  split
  · rfl
  · rfl

/-- The tokens of the strings and of what follows them. -/
def stringsTokens (cond : EventCond) : List Sql.Token :=
  .literal cond.metric ::
    (pastedTokens [.key .andKey, .name (bytes "F_entity_idx"), .operator (bytes "=")]
      cond.entityIdx ++
      (pastedTokens [.key .andKey, .name (bytes "F_tag"), .operator (bytes "=")] cond.tag ++
        Query.tailTokens cond.groupby))

/-- The tokens of the condition's statement, in the order of the text. -/
theorem statement_tokens (s : StoreSql) (localtime : Localtime) (cond : EventCond)
    (start : Int64) (grouped : cond.groupby ≠ .none) :
    (s.statement localtime cond start).tokens =
      Query.selectTokens cond.groupby ++
        ((.name s.database :: .symbol 46 ::
          .name (s.tableWord cond.service (getTableSuffix localtime start)) ::
            (s.buildSql localtime cond start).windowTokens) ++ stringsTokens cond) := by
  have comparisons (more : List Sql.Token) :
      (Sql.Comparison.mk (bytes "F_timestamp") .le (.number start.toInt)).tokens ++
          .key .andKey :: ((Sql.Comparison.mk (bytes "F_timestamp") .gt
            (.number (start - cond.tmInterval).toInt)).tokens ++
              .key .andKey :: ((equals "F_metric" cond.metric).tokens ++ more)) =
        ((s.buildSql localtime cond start).windowTokens).tail ++ .literal cond.metric :: more := by
    simp only [Query.windowTokens, Sql.Comparison.tokens, equals, List.append_assoc,
      List.cons_append, List.nil_append, List.tail_cons]
    rfl
  simp only [Sql.Select.tokens, statement, Sql.Series.tokens, Sql.Select.tableTokens,
    Sql.Select.tailTokens, List.flatMap_append, List.flatMap_cons, filterOn_tokens,
    groupItem_tokens grouped, tailTokens_eq, comparisons, List.append_assoc, List.cons_append,
    List.nil_append, Query.selectTokens, stringsTokens]
  rfl

/-- The name of a table is read as a name if it consists of letters. -/
theorem isName_tableWord {s : StoreSql} {service suffix : Bytes}
    (letters : (s.tableWord service suffix).all Sql.wordByte = true) :
    Sql.isName (s.tableWord service suffix) = true := by
  have underscore : (95 : UInt8) ∈ bytes "__" := by decide +kernel
  refine Sql.isName_of_underscore letters ?_
  simp only [tableWord, List.mem_append]
  tauto

/-- From the names to the quote before the metric. -/
theorem writes_front (s : StoreSql) (localtime : Localtime) (cond : EventCond) (start : Int64)
    (database : Sql.isName s.database = true)
    (table : (s.tableWord cond.service (getTableSuffix localtime start)).all Sql.wordByte = true) :
    Sql.Writes ((s.buildSql localtime cond start).table ++
        (s.buildSql localtime cond start).windowText)
      (.name s.database :: .symbol 46 ::
        .name (s.tableWord cond.service (getTableSuffix localtime start)) ::
          (s.buildSql localtime cond start).windowTokens) := by
  have point : bytes "." = [46] := by decide +kernel
  have dot : Sql.Writes (bytes ".") [.symbol 46] := .of_feed (by decide +kernel)
  have first : (s.buildSql localtime cond start).windowText.head? = some 32 := by
    have blank : (bytes " WHERE F_timestamp <= ").head? = some 32 := by decide +kernel
    rw [Query.windowText, List.head?_append, blank, Option.some_or]
  have name := (Query.writes_windowText (s.buildSql localtime cond start)).name
    (isName_tableWord table) first rfl
  have behind := dot.append name
  have whole := behind.name (c := 46) database (by rw [point]; rfl) rfl
  have same : (s.buildSql localtime cond start).table = s.database ++
      (bytes "." ++ s.tableWord cond.service (getTableSuffix localtime start)) := by
    simp only [buildSql, tableName, tableWord, List.append_assoc]
  rw [same, List.append_assoc, List.append_assoc]
  exact whole

theorem apart_tailText {g : GroupType} (grouped : g ≠ .none) : Apart (Query.tailText g) := by
  have first : (Query.tailText g).head? = some 32 := by
    cases g with
    | none => exact absurd rfl grouped
    | byTimestamp => decide +kernel
    | byTag => decide +kernel
  intro c same
  rw [first] at same
  cases same
  rfl

theorem writes_filter_entityIdx : Sql.Writes (bytes " AND F_entity_idx = ")
    [.key .andKey, .name (bytes "F_entity_idx"), .operator (bytes "=")] :=
  .of_feed (by decide +kernel)

theorem writes_filter_tag : Sql.Writes (bytes " AND F_tag = ")
    [.key .andKey, .name (bytes "F_tag"), .operator (bytes "=")] :=
  .of_feed (by decide +kernel)

theorem apart_filter_tag {g : GroupType} (grouped : g ≠ .none) (v : Bytes) :
    Apart (pasted (bytes " AND F_tag = ") v (Query.tailText g)) :=
  apart_pasted (by decide +kernel) (apart_tailText grouped)

theorem apart_filter_entityIdx {g : GroupType} (grouped : g ≠ .none) (v w : Bytes) :
    Apart (pasted (bytes " AND F_entity_idx = ") v
      (pasted (bytes " AND F_tag = ") w (Query.tailText g))) :=
  apart_pasted (by decide +kernel) (apart_filter_tag grouped w)

/-- The strings are read back exactly if they are plain. -/
theorem tokenize_stringsText_iff (s : StoreSql) (localtime : Localtime) {cond : EventCond}
    (start : Int64) (grouped : cond.groupby ≠ .none) :
    Sql.tokenize (s.buildSql localtime cond start).stringsText = some (stringsTokens cond) ↔
      Sql.plain cond.metric = true ∧ Sql.plain cond.entityIdx = true ∧
        Sql.plain cond.tag = true := by
  have ends := (Query.writes_tailText cond.groupby).tokenize_eq
  rw [Query.stringsText, stringsTokens]
  change Sql.tokenize (Sql.quoted cond.metric (pasted _ cond.entityIdx (pasted _ cond.tag
    (Query.tailText cond.groupby)))) = _ ↔ _
  rw [Sql.tokenize_quoted_iff (apart_filter_entityIdx grouped _ _),
    tokenize_pasted_iff writes_filter_entityIdx (apart_filter_tag grouped _),
    tokenize_pasted_iff writes_filter_tag (apart_tailText grouped)]
  simp only [ends, and_true]

/-- Plain strings of the same shape look the same from outside. -/
theorem outside_stringsText {q : Query} (grouped : q.groupby ≠ .none)
    (metric : Sql.plain q.metric = true) (entityIdx : Sql.plain q.entityIdx = true)
    (tag : Sql.plain q.tag = true) :
    Sql.outside q.stringsText = Sql.outside q.shape.stringsText := by
  have present (v : Bytes) : v = [] ↔ (if v = [] then [] else bytes "x") = [] := by
    have letter : bytes "x" ≠ [] := by decide +kernel
    by_cases empty : v = []
    · simp [empty]
    · simp [empty, letter]
  have plainShape (v : Bytes) : Sql.plain (if v = [] then [] else bytes "x") = true := by
    split
    · rfl
    · decide +kernel
  have tail := apart_tailText grouped
  refine Sql.outside_quoted (apart_filter_entityIdx grouped _ _)
    (apart_filter_entityIdx grouped _ _) metric rfl ?_
  refine outside_pasted writes_filter_entityIdx (apart_filter_tag grouped _)
    (apart_filter_tag grouped _) (present _) entityIdx (plainShape _) ?_
  exact outside_pasted writes_filter_tag tail tail (present _) tag (plainShape _) rfl

/-- Without groups the text is no statement: an item of its column list is empty. -/
theorem read_text_eq_none (s : StoreSql) (localtime : Localtime) {cond : EventCond}
    (start : Int64) (ungrouped : cond.groupby = .none) :
    Sql.read (s.buildSql localtime cond start).text = none := by
  have groupby : (s.buildSql localtime cond start).groupby = .none := ungrouped
  rw [Sql.read, Query.text_eq, groupby, (Query.writes_selectText .none).tokenize_append]
  cases Sql.tokenize ((s.buildSql localtime cond start).table ++
      ((s.buildSql localtime cond start).windowText ++
        (s.buildSql localtime cond start).stringsText)) with
  | none => rfl
  | some toks =>
      have empty := Sql.parse_empty_item aggregateItems toks
      rw [Option.map_some, Option.bind_some, ← empty]
      simp only [Query.selectTokens, groupColumn, Option.map_none, Option.toList_none,
        List.append_assoc, List.cons_append, List.nil_append]

/-- The text of a select says what its condition asks for exactly if the condition has
groups, the names are names and the strings denote themselves. -/
theorem means_iff (s : StoreSql) (localtime : Localtime) (cond : EventCond) (start : Int64) :
    s.MeansCondition localtime cond start ↔ s.Pasteable localtime cond start := by
  constructor
  · intro means
    have grouped : cond.groupby ≠ .none := by
      intro ungrouped
      have statement := means.statement
      rw [read_text_eq_none s localtime start ungrouped] at statement
      cases statement
    have read := Sql.read_eq_some_iff.mp means.statement
    have toks := statement_tokens s localtime cond start grouped
    have database : Sql.isName s.database = true :=
      Sql.isName_of_mem read (by rw [toks]; simp)
    have table := Sql.isName_of_mem (w := s.tableWord cond.service (getTableSuffix localtime start))
      read (by rw [toks]; simp)
    have letters := (Sql.isName_iff.mp table).1.2
    have front := writes_front s localtime cond start database letters
    rw [toks, Query.text_eq] at read
    have behind := (Query.writes_selectText cond.groupby).tokenize_iff.mp read
    rw [← List.append_assoc] at behind
    have strings := front.tokenize_iff.mp behind
    obtain ⟨metric, entityIdx, tag⟩ :=
      (tokenize_stringsText_iff s localtime start grouped).mp strings
    exact ⟨grouped, database, letters, metric, entityIdx, tag⟩
  · intro paste
    have strings := (tokenize_stringsText_iff s localtime start paste.grouped).mpr
      ⟨paste.metric, paste.entityIdx, paste.tag⟩
    have front := writes_front s localtime cond start paste.database paste.table
    constructor
    · rw [Sql.read_eq_some_iff, statement_tokens s localtime cond start paste.grouped,
        Query.text_eq]
      refine (Query.writes_selectText cond.groupby).tokenize_iff.mpr ?_
      rw [← List.append_assoc]
      exact front.tokenize_iff.mpr strings
    · have same := outside_stringsText (q := s.buildSql localtime cond start) paste.grouped
        paste.metric paste.entityIdx paste.tag
      rw [Query.text_eq, Query.text_eq]
      refine (Query.writes_selectText cond.groupby).outside_congr ?_
      rw [← List.append_assoc, ← List.append_assoc]
      exact front.outside_congr same

/-- The successes of a metric by timestamp, over the last minute. -/
private def minute (metric tag : Bytes) : EventCond where
  tmInterval := 60
  service := bytes "mysrv"
  metric := metric
  tmStart := 0
  entityIdx := []
  tag := tag
  groupby := .byTimestamp
  orderby := .timestamp
  orders := .desc
  limit := 0

/-- A quote in the metric ends the literal: what follows it is read as a filter of the
tag, which the condition does not have. -/
theorem metric_read_as_filter :
    let s : StoreSql := ⟨bytes "heracles", bytes "monitor"⟩
    let localtime : Localtime := fun _ => ⟨119, 1⟩
    let cond := minute (bytes "login' AND F_tag = 'T") []
    Sql.read (s.buildSql localtime cond 1550000000).text =
        some (s.statement localtime (minute (bytes "login") (bytes "T")) 1550000000) ∧
      ¬ s.MeansCondition localtime cond 1550000000 := by
  intro s localtime cond
  have read : Sql.read (s.buildSql localtime cond 1550000000).text =
      some (s.statement localtime (minute (bytes "login") (bytes "T")) 1550000000) := by
    decide +kernel
  refine ⟨read, fun means => ?_⟩
  have same := Option.some.inj (means.statement.symm.trans read)
  have metric := congrArg (fun st : Sql.Select => st.conditions.others.length) same
  exact absurd metric (by decide +kernel)

end StoreSql

end Heracles.Business
