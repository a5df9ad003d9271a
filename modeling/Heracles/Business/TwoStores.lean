import Heracles.Business.StoreSql
import Heracles.Business.Totals

/-!
The two stores answer grouped queries.

Each store summarises the records that it chooses, the LevelDB store those that its
scan folds (`level_summarises`), the MySQL store those that the `WHERE` clause of its
statement admits (`sql_summarises`).
-/

namespace Heracles.Business

open Heracles.Base
open Heracles.Business.StoreLevelDB

/-- The key that records are grouped by, as it appears in a line. -/
def groupKey (groupby : GroupType) (record : EventInsert) : Int64 × Bytes :=
  match groupby with
  | .byTimestamp => (record.timestamp, [])
  | .byTag => (0, storedTag record)
  | .none => (0, [])

/-! ### The LevelDB store -/

theorem Countable.length_le {records : List EventInsert} (countable : Countable records) :
    (records.length : Int) ≤ countSum records := length_le_sum countable.positive

theorem totals_summarize {item : EventInsert → EventInfo} (lineOf : LineOf item)
    {records : List EventInsert} (countable : Countable records) :
    Totals records (summarize (records.map item)) := by
  by_cases nonempty : records = []
  · have zero : summarize [] = EventInfo.zero := by decide
    rw [nonempty, List.map_nil, zero]
    exact ⟨rfl, rfl, fun _ => ⟨rfl, rfl⟩, fun some => absurd rfl some, fun some => absurd rfl some⟩
  · have totals := @totals_foldl blank ⟨rfl, rfl, rfl, rfl⟩ item lineOf records nonempty
    have counted := totals.count_pos countable nonempty
    have length_pos := List.length_pos_of_ne_nil nonempty
    have short : (records.map item).length < 2 ^ 31 := by
      have long := countable.length_le
      have high := countable.fits.2
      rw [List.length_map]
      omega
    refine totals.of_core ?_
    rw [summarize, if_pos]
    · rfl
    · refine ⟨fun zero => absurd (zero ▸ counted) (lt_irrefl 0), fun zero => ?_⟩
      have length := congrArg Int32.toInt zero
      rw [Int32.toInt_ofNat_of_lt short, List.length_map] at length
      have : (0 : Int32).toInt = 0 := by decide
      omega

theorem totals_collectGroup {item : EventInsert → EventInfo} (lineOf : LineOf item)
    {records : List EventInsert} (countable : Countable records) (nonempty : records ≠ [])
    (line : EventInfo) : Totals records (collectGroup line (records.map item)) := by
  have totals := @totals_foldl { blank with timestamp := line.timestamp, tag := line.tag }
    ⟨rfl, rfl, rfl, rfl⟩ item lineOf records nonempty
  refine totals.of_core ?_
  rw [collectGroup, if_pos (totals.count_pos countable nonempty)]
  rfl

/-- The lines of the groups are the groups of the records. -/
theorem groupLines_collect {κ : Type} [LinearOrder κ] {key : EventInfo → κ} {line : κ → EventInfo}
    {item : EventInsert → EventInfo} {keyOf : EventInsert → Int64 × Bytes}
    {inject : κ → Int64 × Bytes} (injective : Function.Injective inject) (lineOf : LineOf item)
    (named : ∀ k, ((line k).timestamp, (line k).tag) = inject k)
    {records : List EventInsert} (keyed : ∀ r ∈ records, inject (key (item r)) = keyOf r)
    (countable : Countable records) :
    GroupLines keyOf records ((groupBy key (records.map item)).entries.map
      fun (k, group) => collectGroup (line k) group) := by
  have names (k : κ) (items : List EventInfo) : ((collectGroup (line k) items).timestamp,
      (collectGroup (line k) items).tag) = inject k := by
    rw [(collectGroup_names (line k) items).1, (collectGroup_names (line k) items).2, named]
  have groups (k : κ) : group key (records.map item) k =
      (records.filter fun r => decide (keyOf r = inject k)).map item := by
    rw [group_map]
    refine congrArg _ (List.filter_congr fun r member => decide_eq_decide.mpr ?_)
    rw [← keyed r member]
    exact injective.eq_iff.symm
  rw [lines_eq]
  constructor
  · intro l member
    obtain ⟨k, inKeys, rfl⟩ := List.mem_map.mp member
    obtain ⟨i, inItems, same⟩ := mem_keys_groupBy.mp inKeys
    obtain ⟨r, inRecords, rfl⟩ := List.mem_map.mp inItems
    have found : keyOf r = inject k := by rw [← keyed r inRecords, same]
    have nonempty : (records.filter fun r => decide (keyOf r = inject k)) ≠ [] :=
      List.ne_nil_of_mem (List.mem_filter.mpr ⟨inRecords, decide_eq_true found⟩)
    rw [names, groups]
    exact ⟨⟨r, inRecords, found⟩,
      totals_collectGroup lineOf (countable.filter _) nonempty (line k)⟩
  · intro r member
    have inKeys : key (item r) ∈ (groupBy key (records.map item)).keys :=
      mem_keys_groupBy.mpr ⟨item r, List.mem_map_of_mem member, rfl⟩
    exact ⟨_, List.mem_map_of_mem inKeys, (names _ _).trans (keyed r member)⟩

theorem foldByTag_summarises {records : List EventInsert} (countable : Countable records)
    {stat : EventSelect} (fresh : stat.info = []) :
    Summarises (groupKey .byTag) records
      (foldByTag (records.map fun r => itemByTag (entryOf r)) stat) := by
  have lineOf : LineOf fun r => itemByTag (entryOf r) :=
    ⟨fun _ => rfl, fun _ => rfl, fun _ => rfl, fun _ => rfl⟩
  have lines := @groupLines_collect _ _ EventInfo.tag
    (fun tag => { EventInfo.zero with tag := tag }) _ (groupKey .byTag) (fun tag => (0, tag))
    (fun _ _ same => (Prod.mk.inj same).2) lineOf (fun _ => rfl) records (fun _ _ => rfl) countable
  refine ⟨totals_summarize lineOf countable, ?_⟩
  rw [foldByTag, fresh]
  exact lines

/-- The timestamp of a record is read back from its key. -/
def ReadsBack (r : EventInsert) : Prop :=
  timestampExchange (atoll (decimal (invTime r.timestamp))) = r.timestamp

theorem foldByTimestamp_summarises {records : List EventInsert}
    (readsBack : ∀ r ∈ records, ReadsBack r) (countable : Countable records)
    {stat : EventSelect} (fresh : stat.info = []) :
    Summarises (groupKey .byTimestamp) records
      (foldByTimestamp (records.map fun r => itemByTimestamp (entryOf r)) stat) := by
  have lineOf : LineOf fun r => { recordLine r with timestamp := r.timestamp } :=
    ⟨fun _ => rfl, fun _ => rfl, fun _ => rfl, fun _ => rfl⟩
  have items : (records.map fun r => itemByTimestamp (entryOf r)) =
      records.map fun r => { recordLine r with timestamp := r.timestamp } :=
    List.map_congr_left fun r member => by
      rw [itemByTimestamp, entryOf, readsBack r member]
      rfl
  have lines := @groupLines_collect _ _ EventInfo.timestamp
    (fun timestamp => { EventInfo.zero with timestamp := timestamp }) _ (groupKey .byTimestamp)
    (fun timestamp => (timestamp, [])) (fun _ _ same => (Prod.mk.inj same).1) lineOf (fun _ => rfl)
    records (fun _ _ => rfl) countable
  rw [items]
  refine ⟨totals_summarize lineOf countable, ?_⟩
  rw [foldByTimestamp, fresh]
  exact lines

/-- A grouped select of the LevelDB store without ordering summarises the records
that its scan folds. -/
theorem level_summarises {s : StoreLevelDB} {env : LeveldbEnv} {cond : EventCond}
    {stdSort : (EventInfo → EventInfo → Bool) → List EventInfo → List EventInfo} {lingerHint : Int64}
    (named : s.HandlersNamed) (opens : env.openOk = true) (service_ne : cond.service ≠ [])
    (grouped : cond.groupby ≠ .none) (unordered : cond.orderby = .none)
    {records : List EventInsert}
    (readsBack : cond.groupby = .byTimestamp → ∀ r ∈ records, ReadsBack r)
    (countable : Countable records)
    (folded : scan (s.content (s.fullpath cond.service env.month)) cond
      (prepare env.now lingerHint cond .zero) = records.map entryOf) :
    Summarises (groupKey cond.groupby) records
      (s.selectEvStat stdSort env cond .zero lingerHint).2.1 := by
  have unsorted (info : List EventInfo) : orderInfo stdSort cond info = info :=
    if_pos (.inl unordered)
  have fresh : (prepare env.now lingerHint cond .zero).info = [] := rfl
  rw [selectEvStat, if_neg service_ne]
  cases groupby : cond.groupby with
  | none => exact absurd groupby grouped
  | byTimestamp =>
      obtain ⟨t, _, same⟩ := selectWith_eq itemByTimestamp foldByTimestamp named opens service_ne
        (prepare env.now lingerHint cond .zero)
      simp only [selectEvStatByTimestamp, same, unsorted, folded, List.map_map]
      exact foldByTimestamp_summarises (readsBack groupby) countable fresh
  | byTag =>
      obtain ⟨t, _, same⟩ := selectWith_eq itemByTag foldByTag named opens service_ne
        (prepare env.now lingerHint cond .zero)
      simp only [selectEvStatByTag, same, unsorted, folded, List.map_map]
      exact foldByTag_summarises countable fresh

/-! ### The MySQL store -/

/-- A sum over records is the sum over the groups of distinct keys that cover them. -/
theorem sum_filters (f : EventInsert → Int) {keyOf : EventInsert → Int64 × Bytes}
    {keys : List (Int64 × Bytes)} (distinct : keys.Nodup) {records : List EventInsert}
    (covered : ∀ r ∈ records, keyOf r ∈ keys) :
    (keys.map fun k => ((records.filter fun r => decide (keyOf r = k)).map f).sum).sum =
      (records.map f).sum := by
  -- groups are by keys of a linear order
  have whole := @sum_groups _ _ _ (fun r => toLex (keyOf r)) _ _ f (keys.map toLex)
    (distinct.map toLex.injective) records
    (fun r member => List.mem_map_of_mem (covered r member))
  rw [← whole, List.map_map]
  refine congrArg List.sum (List.map_congr_left fun k _ => ?_)
  refine congrArg (fun l => (List.map f l).sum) (List.filter_congr fun r _ => ?_)
  exact decide_eq_decide.mpr toLex.injective.eq_iff.symm

/-- Lines that are added up have the totals of all records of their groups. -/
theorem totals_foldl_groups {keyOf : EventInsert → Int64 × Bytes} {records : List EventInsert}
    {info : List EventInfo} (lines : GroupLines keyOf records info)
    (distinct : (info.map fun line => (line.timestamp, line.tag)).Nodup) {start : EventInfo}
    (empty : Blank start) (nonempty : records ≠ []) : Totals records (info.foldl addItem start) := by
  have zero32 : (0 : Int32).toInt = 0 := by decide
  have zero64 : (0 : Int64).toInt = 0 := by decide
  have covered : ∀ r ∈ records, keyOf r ∈ info.map fun line => (line.timestamp, line.tag) := by
    intro r member
    obtain ⟨line, inInfo, same⟩ := lines.complete r member
    exact List.mem_map.mpr ⟨line, inInfo, same⟩
  have member_group {r : EventInsert} {line : EventInfo} (member : r ∈ records)
      (same : (line.timestamp, line.tag) = keyOf r) :
      r ∈ records.filter fun r => decide (keyOf r = (line.timestamp, line.tag)) :=
    List.mem_filter.mpr ⟨member, decide_eq_true same.symm⟩
  have group_ne {line : EventInfo} (inInfo : line ∈ info) :
      (records.filter fun r => decide (keyOf r = (line.timestamp, line.tag))) ≠ [] := by
    obtain ⟨r, member, same⟩ := (lines.sound line inInfo).1
    exact List.ne_nil_of_mem (member_group member same.symm)
  obtain ⟨first, inside⟩ := List.exists_mem_of_ne_nil records nonempty
  obtain ⟨firstLine, inInfo, _⟩ := lines.complete first inside
  obtain ⟨_, least, attainedMin⟩ := foldl_addItem_valueMin start info
  obtain ⟨_, greatest, attainedMax⟩ := foldl_addItem_valueMax start info
  refine ⟨?_, ?_, fun none => absurd none nonempty, fun _ => ⟨?_, ?_⟩, fun _ => ⟨?_, ?_⟩⟩
  · have groups : (info.map fun line => line.count.toInt) = info.map fun line =>
        (countSum (records.filter fun r => decide (keyOf r = (line.timestamp, line.tag)))).bmod
          (2 ^ 32) := List.map_congr_left fun line member => (lines.sound line member).2.count
    have whole := sum_filters (fun r => r.count.toInt) distinct covered
    rw [List.map_map] at whole
    rw [@toInt_foldl_addItem32 EventInfo.count (fun _ _ => rfl), empty.count, zero32, zero_add,
      groups, bmod_sum_bmod]
    exact congrArg (Int.bmod · _) whole
  · have groups : (info.map fun line => line.valueSum.toInt) = info.map fun line =>
        (valueSum (records.filter fun r => decide (keyOf r = (line.timestamp, line.tag)))).bmod
          (2 ^ 64) := List.map_congr_left fun line member => (lines.sound line member).2.valueSum
    have whole := sum_filters (fun r => r.valueSum.toInt) distinct covered
    rw [List.map_map] at whole
    rw [toInt_foldl_addItem_valueSum, empty.valueSum, zero64, zero_add, groups, bmod_sum_bmod]
    exact congrArg (Int.bmod · _) whole
  · have attained : ∃ line ∈ info, (info.foldl addItem start).valueMin = line.valueMin := by
      rcases attainedMin with untouched | attained
      · refine ⟨firstLine, inInfo, le_antisymm (least firstLine inInfo) ?_⟩
        rw [untouched, empty.valueMin]
        exact Int32.le_maxValue _
      · exact attained
    obtain ⟨line, member, same⟩ := attained
    obtain ⟨r, inGroup, value⟩ := ((lines.sound line member).2.least (group_ne member)).1
    exact ⟨r, List.mem_of_mem_filter inGroup, same.trans value⟩
  · intro r member
    obtain ⟨line, inLines, same⟩ := lines.complete r member
    exact (least line inLines).trans (((lines.sound line inLines).2.least (group_ne inLines)).2 r
      (member_group member same))
  · have attained : ∃ line ∈ info, (info.foldl addItem start).valueMax = line.valueMax := by
      rcases attainedMax with untouched | attained
      · refine ⟨firstLine, inInfo, le_antisymm ?_ (greatest firstLine inInfo)⟩
        rw [untouched, empty.valueMax]
        exact Int32.minValue_le _
      · exact attained
    obtain ⟨line, member, same⟩ := attained
    obtain ⟨r, inGroup, value⟩ := ((lines.sound line member).2.greatest (group_ne member)).1
    exact ⟨r, List.mem_of_mem_filter inGroup, same.trans value⟩
  · intro r member
    obtain ⟨line, inLines, same⟩ := lines.complete r member
    exact (((lines.sound line inLines).2.greatest (group_ne inLines)).2 r
      (member_group member same)).trans (greatest line inLines)

theorem totals_sqlSummarize {keyOf : EventInsert → Int64 × Bytes} {records : List EventInsert}
    {info : List EventInfo} (lines : GroupLines keyOf records info)
    (distinct : (info.map fun line => (line.timestamp, line.tag)).Nodup)
    (countable : Countable records) (nonempty : records ≠ []) (size : Nat) :
    Totals records (StoreSql.summarize .zero info size) := by
  have totals := @totals_foldl_groups keyOf records info lines distinct
    { EventInfo.zero with valueMin := Int32.maxValue, valueMax := Int32.minValue }
    ⟨rfl, rfl, rfl, rfl⟩ nonempty
  have counted := totals.count_pos countable nonempty
  refine totals.of_core ?_
  rw [StoreSql.summarize, if_pos fun zero => absurd (zero ▸ counted) (lt_irrefl 0)]
  rfl

theorem mem_map_rowOf {records : List EventInsert} {rows : Table}
    (perm : rows.Perm (records.map StoreSql.rowOf)) {P : EventInsert → Prop}
    (columns : ∀ r, P (StoreSql.rowOf r) ↔ P r) :
    ((∃ row ∈ rows, P row) ↔ ∃ r ∈ records, P r) ∧ ((∀ row ∈ rows, P row) ↔ ∀ r ∈ records, P r) := by
  have member (row : EventInsert) : row ∈ rows ↔ ∃ r ∈ records, StoreSql.rowOf r = row := by
    rw [perm.mem_iff, List.mem_map]
  constructor
  · simp only [member]
    constructor
    · rintro ⟨_, ⟨r, inside, rfl⟩, holds⟩
      exact ⟨r, inside, (columns r).mp holds⟩
    · rintro ⟨r, inside, holds⟩
      exact ⟨_, ⟨r, inside, rfl⟩, (columns r).mpr holds⟩
  · simp only [member]
    constructor
    · intro all r inside
      exact (columns r).mp (all _ ⟨r, inside, rfl⟩)
    · rintro all _ ⟨r, inside, rfl⟩
      exact (columns r).mpr (all r inside)

/-- A line of the result has the totals of the rows that it aggregates. -/
theorem totals_itemOf {records : List EventInsert} {rows : Table} {r : ResultRow}
    (aggregates : Aggregates rows r) (perm : rows.Perm (records.map StoreSql.rowOf))
    (countable : Countable records) (fits : Fits64 (valueSum records)) (groupby : GroupType) :
    Totals records (StoreSql.itemOf groupby r) := by
  have counts : (rows.map fun row => row.count.toInt).sum = countSum records := by
    rw [(perm.map _).sum_eq, List.map_map]
    rfl
  have sums : (rows.map fun row => row.valueSum.toInt).sum = valueSum records := by
    rw [(perm.map _).sum_eq, List.map_map]
    rfl
  have narrow (n : Int64) (m : Int32) (same : n.toInt = m.toInt) : n.toInt32 = m := by
    rw [← Int32.toInt_inj, Int64.toInt_toInt32, same]
    exact bmod32_eq_iff.mpr ⟨m.le_toInt, m.toInt_lt⟩
  obtain ⟨leastRow, inLeast, valueMin, least⟩ := aggregates.valueMin
  obtain ⟨greatestRow, inGreatest, valueMax, greatest⟩ := aggregates.valueMax
  have low := countable.fits.1
  have high := countable.fits.2
  have minimum : (StoreSql.itemOf groupby r).valueMin = leastRow.valueMin := narrow _ _ valueMin
  have maximum : (StoreSql.itemOf groupby r).valueMax = greatestRow.valueMax := narrow _ _ valueMax
  have attainedMin := (mem_map_rowOf perm (P := fun row => leastRow.valueMin = row.valueMin)
    fun _ => Iff.rfl).1.mp ⟨leastRow, inLeast, rfl⟩
  have attainedMax := (mem_map_rowOf perm (P := fun row => greatestRow.valueMax = row.valueMax)
    fun _ => Iff.rfl).1.mp ⟨greatestRow, inGreatest, rfl⟩
  refine ⟨?_, ?_, ?_, fun _ => ⟨minimum ▸ attainedMin, ?_⟩, fun _ => ⟨maximum ▸ attainedMax, ?_⟩⟩
  · have wide : Fits64 (countSum records) := ⟨by omega, by omega⟩
    have count : (StoreSql.itemOf groupby r).count.toInt = r.count.toInt.bmod (2 ^ 32) :=
      Int64.toInt_toInt32 _
    rw [count, aggregates.count (counts ▸ wide), counts]
  · have sum : (StoreSql.itemOf groupby r).valueSum.toInt = r.valueSum.toInt := rfl
    rw [sum, aggregates.valueSum (sums ▸ fits), sums, bmod_of_fits fits]
  · intro none
    rw [none, List.map_nil] at perm
    exact absurd (perm.eq_nil ▸ inLeast) List.not_mem_nil
  · rw [minimum]
    exact (mem_map_rowOf perm (P := fun row => leastRow.valueMin ≤ row.valueMin)
      fun _ => Iff.rfl).2.mp least
  · rw [maximum]
    exact (mem_map_rowOf perm (P := fun row => row.valueMax ≤ greatestRow.valueMax)
      fun _ => Iff.rfl).2.mp greatest

/-- The value sums of the groups of records fit their type. -/
def GroupSumsFit (keyOf : EventInsert → Int64 × Bytes) (records : List EventInsert) : Prop :=
  ∀ r ∈ records, Fits64 (valueSum (records.filter fun s => decide (keyOf s = keyOf r)))

instance (keyOf : EventInsert → Int64 × Bytes) (records : List EventInsert) :
    Decidable (GroupSumsFit keyOf records) := inferInstanceAs (Decidable (∀ _ ∈ _, _))

section Select

variable {s : StoreSql} {localtime : Localtime} {cond : EventCond} {start : Int64}

theorem rowKey_rowOf (r : EventInsert) :
    (s.buildSql localtime cond start).rowKey (StoreSql.rowOf r) = groupKey cond.groupby r := by
  unfold Query.rowKey groupKey StoreSql.buildSql
  cases cond.groupby with
  | none => rfl
  | byTimestamp => rfl
  | byTag => rfl

/-- The rows of a group are the records of a group. -/
theorem group_perm {rows : Table} {records : List EventInsert}
    (perm : rows.Perm (records.map StoreSql.rowOf)) (key : Int64 × Bytes) :
    ((s.buildSql localtime cond start).group rows key).Perm
      (((records.filter fun r => decide ((s.buildSql localtime cond start).Admits
        (StoreSql.rowOf r))).filter fun r => decide (groupKey cond.groupby r = key)).map
          StoreSql.rowOf) := by
  refine ((perm.filter _).filter _).trans ?_
  rw [List.filter_map, List.filter_map]
  simp only [Function.comp_def, rowKey_rowOf]
  exact List.Perm.refl _

/-- The records that the `WHERE` clause of a select admits. -/
def admitted (q : Query) (records : List EventInsert) : List EventInsert :=
  records.filter fun r => decide (q.Admits (StoreSql.rowOf r))

theorem itemOf_key (row : ResultRow) :
    ((StoreSql.itemOf cond.groupby row).timestamp, (StoreSql.itemOf cond.groupby row).tag) =
      (s.buildSql localtime cond start).resultKey row := by
  unfold StoreSql.itemOf Query.resultKey StoreSql.buildSql
  cases cond.groupby with
  | none => rfl
  | byTimestamp => rfl
  | byTag => rfl

/-- The lines of the result are the groups of the records admitted. -/
theorem groupLines_result {rows : Table} {records : List EventInsert}
    (perm : rows.Perm (records.map StoreSql.rowOf)) {results : List ResultRow}
    (result : (s.buildSql localtime cond start).Result rows results)
    (countable : Countable (admitted (s.buildSql localtime cond start) records))
    (fits : GroupSumsFit (groupKey cond.groupby) (admitted (s.buildSql localtime cond start) records)) :
    GroupLines (groupKey cond.groupby) (admitted (s.buildSql localtime cond start) records)
      (results.map (StoreSql.itemOf cond.groupby)) := by
  set q := s.buildSql localtime cond start with q_def
  have group (key : Int64 × Bytes) : (q.group rows key).Perm (((admitted q records).filter fun r =>
      decide (groupKey cond.groupby r = key)).map StoreSql.rowOf) := group_perm perm key
  constructor
  · intro line member
    obtain ⟨row, inResults, rfl⟩ := List.mem_map.mp member
    have aggregates := result.lines row inResults
    obtain ⟨chosenRow, inGroup, _⟩ := aggregates.valueMin
    obtain ⟨r, inRecords, _⟩ := List.mem_map.mp ((group _).mem_iff.mp inGroup)
    obtain ⟨admits, key⟩ := List.mem_filter.mp inRecords
    have key := of_decide_eq_true key
    have sums : Fits64 (valueSum ((admitted q records).filter fun r =>
        decide (groupKey cond.groupby r = q.resultKey row))) := key ▸ fits r admits
    rw [itemOf_key, ← q_def]
    exact ⟨⟨r, admits, key⟩, totals_itemOf aggregates (group _) (countable.filter _) sums _⟩
  · intro r member
    have inChosen : StoreSql.rowOf r ∈ q.chosen rows := by
      obtain ⟨inRecords, admits⟩ := List.mem_filter.mp member
      exact List.mem_filter.mpr ⟨perm.mem_iff.mpr (List.mem_map_of_mem inRecords), admits⟩
    obtain ⟨row, inResults, same⟩ := List.mem_map.mp (result.complete _ inChosen)
    refine ⟨_, List.mem_map_of_mem inResults, ?_⟩
    rw [itemOf_key, ← q_def, same, rowKey_rowOf]

theorem totals_zero : Totals [] EventInfo.zero :=
  ⟨rfl, rfl, fun _ => ⟨rfl, rfl⟩, fun some => absurd rfl some, fun some => absurd rfl some⟩

theorem summarises_nothing (keyOf : EventInsert → Int64 × Bytes) (stat : EventSelect)
    (summary : stat.summary = .zero) (info : stat.info = []) : Summarises keyOf [] stat := by
  refine ⟨summary ▸ totals_zero, ?_, fun r member => absurd member List.not_mem_nil⟩
  rw [info]
  exact fun line member => absurd member List.not_mem_nil

/-- A grouped select of the MySQL store without ordering summarises the records that
its statement admits. -/
theorem sql_summarises {server : SqlServer} {tables : Tables} {now lingerHint : Int64}
    {stdSort : (EventInfo → EventInfo → Bool) → List EventInfo → List EventInfo}
    (grouped : cond.groupby ≠ .none) (unordered : cond.orderby = .none) {records : List EventInsert}
    (present : ((tables.find? (s.buildSql localtime cond
      (effectiveStart now lingerHint cond)).table).getD []).Perm (records.map StoreSql.rowOf))
    (answers : server.Answers (s.buildSql localtime cond (effectiveStart now lingerHint cond)) tables)
    (countable : Countable (admitted (s.buildSql localtime cond
      (effectiveStart now lingerHint cond)) records))
    (fits : GroupSumsFit (groupKey cond.groupby) (admitted (s.buildSql localtime cond
      (effectiveStart now lingerHint cond)) records)) :
    Summarises (groupKey cond.groupby)
      (admitted (s.buildSql localtime cond (effectiveStart now lingerHint cond)) records)
      (s.selectEvStat server localtime true stdSort now cond .zero lingerHint tables).2 := by
  set q := s.buildSql localtime cond (effectiveStart now lingerHint cond) with q_def
  have notTrue : ¬¬ (true = true) := not_not.mpr rfl
  have sameGroupby : q.groupby = cond.groupby := rfl
  unfold SqlServer.Answers at answers
  rw [sameGroupby, if_neg grouped] at answers
  unfold StoreSql.selectEvStat
  rw [if_neg notTrue]
  dsimp only
  rw [← q_def]
  cases found : tables.find? q.table with
  | none =>
      rw [found] at answers present
      simp only at answers
      have nobody : records = [] := List.map_eq_nil_iff.mp present.nil_eq.symm
      simp only [answers, nobody]
      exact summarises_nothing _ _ rfl rfl
  | some rows =>
      rw [found] at answers present
      obtain ⟨results, result, ok⟩ := answers
      have lines := groupLines_result present ok countable fits
      cases results with
      | nil =>
          have nobody : admitted q records = [] := by
            refine List.eq_nil_iff_forall_not_mem.mpr fun r member => ?_
            obtain ⟨_, none, _⟩ := lines.complete r member
            exact List.not_mem_nil none
          simp only [result, nobody]
          exact summarises_nothing _ _ rfl rfl
      | cons row rest =>
          have distinct : (((row :: rest).map (StoreSql.itemOf cond.groupby)).map
              fun line => (line.timestamp, line.tag)).Nodup := by
            have keys : ((row :: rest).map (StoreSql.itemOf cond.groupby)).map
                (fun line => (line.timestamp, line.tag)) = (row :: rest).map q.resultKey := by
              rw [List.map_map]
              exact List.map_congr_left fun r _ => itemOf_key r
            rw [keys]
            exact ok.distinct
          have nonempty : admitted q records ≠ [] := by
            obtain ⟨⟨r, member, _⟩, _⟩ := lines.sound _ List.mem_cons_self
            exact List.ne_nil_of_mem member
          simp only [result, if_neg grouped, if_pos (Or.inl unordered)]
          exact ⟨totals_sqlSummarize lines distinct countable nonempty _, lines⟩

end Select

end Heracles.Business
