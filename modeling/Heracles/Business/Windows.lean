import Heracles.Business.Groups
import Heracles.Business.StoreFaithful

/-!
Windows of different length.

The lower end of a window is a text: the start minus the interval, inverted and
written without padding, compared byte by byte with the keys. As long as the
inverse has ten digits a longer interval has a greater text, and a longer window
shows more. An interval that reaches back beyond time 0 has an inverse of eleven
digits, whose text lies before most ten-digit ones. `windows_nested_iff` is the
exact condition on the start and the two intervals.
-/

namespace Heracles.Business.StoreLevelDB

open Heracles.Base

theorem timestampExchangeStr_injective : Function.Injective timestampExchangeStr := by
  intro a b same
  have inverse := Int64.toInt_inj.mp (signedDecimal_injective same)
  grind

/-! ### Windows -/

/-- The records a select folds whose window reaches back `interval` from `start`. -/
def folded (db : Database) (cond : EventCond) (start interval : Int64) : List Entry :=
  scan db { cond with tmInterval := interval }
    { EventSelect.zero with timestamp := start, tmInterval := interval }

/-- The records a select matches are those of its effective start and interval. -/
theorem matched_eq_folded {s t : StoreLevelDB} {env : LeveldbEnv} {cond : EventCond} {path : Bytes}
    (opened : s.getLeveldbHandler env cond.service = (some path, t)) (lingerHint : Int64) :
    s.matched env cond (prepare env.now lingerHint cond .zero) =
      folded (t.content path) cond (effectiveStart env.now lingerHint cond) cond.tmInterval := by
  simp only [matched, opened]
  rfl

/-- The last key of a window that reaches back `interval`. -/
def lastKey (cond : EventCond) (start interval : Int64) : Bytes :=
  tLower { cond with tmInterval := interval } start interval

theorem mem_folded {db : Database} {cond : EventCond} {start interval : Int64} {entry : Entry} :
    entry ∈ folded db cond start interval ↔ ∃ e ∈ db.entries,
      (¬ e.1 < tUpper cond start ∧ ¬ lastKey cond start interval < e.1) ∧
        readEntry cond e.1 e.2 = some entry := by
  rw [folded, scan_eq_filterMap]
  simp only [List.mem_filterMap, List.mem_filter, decide_eq_true_eq]
  exact exists_congr fun e => and_assoc

theorem lastKey_of_pos (cond : EventCond) (start : Int64) {interval : Int64}
    (positive : 0 < interval) : lastKey cond start interval =
      cond.metric ++ bytes "#" ++ timestampExchangeStr (start - interval) :=
  if_pos positive

/-- A later last key leaves nothing out. -/
theorem folded_subset {db : Database} {cond : EventCond} {start shorter longer : Int64}
    (later : ∀ key, ¬ key < tUpper cond start → ¬ lastKey cond start shorter < key →
      ¬ lastKey cond start longer < key) :
    folded db cond start shorter ⊆ folded db cond start longer := by
  intro entry member
  obtain ⟨e, stored, ⟨fromStart, toEnd⟩, read⟩ := mem_folded.mp member
  exact mem_folded.mpr ⟨e, stored, ⟨fromStart, later e.1 fromStart toEnd⟩, read⟩

/-- A query without an interval reads to the end of its metric. -/
theorem folded_subset_all (db : Database) (cond : EventCond) (start : Int64) {interval : Int64}
    (positive : 0 < interval) : folded db cond start interval ⊆ folded db cond start 0 := by
  refine folded_subset fun key _ toEnd beyond => toEnd ?_
  have all : lastKey cond start 0 = cond.metric ++ bytes "$" := by
    rw [lastKey, tLower, if_neg (by decide)]
  have hash : bytes "#" = [35] := by decide
  have dollar : bytes "$" = [36] := by decide
  rw [all] at beyond
  refine lt_trans ?_ beyond
  rw [lastKey_of_pos cond start positive, List.append_assoc, append_lt_append_left,
    hash, dollar, List.singleton_append]
  exact List.cons_lt_cons_iff.mpr (.inl (by decide))

/-- The shorter window is empty or ends before the longer one, as texts. -/
def EndsOrdered (start shorter longer : Int64) : Prop :=
  timestampExchangeStr (start - shorter) < timestampExchangeStr start ∨
    timestampExchangeStr (start - shorter) ≤ timestampExchangeStr (start - longer)

instance (start shorter longer : Int64) : Decidable (EndsOrdered start shorter longer) :=
  inferInstanceAs (Decidable (_ ∨ _))

/-- With ordered ends a longer window shows what a shorter one shows, whatever is stored. -/
theorem EndsOrdered.subset {start shorter longer : Int64} (ordered : EndsOrdered start shorter longer)
    (positive : 0 < shorter) (le : shorter ≤ longer) (db : Database) (cond : EventCond) :
    folded db cond start shorter ⊆ folded db cond start longer := by
  refine folded_subset fun key fromStart toEnd => ?_
  rw [lastKey_of_pos cond start positive] at toEnd
  rw [lastKey_of_pos cond start (lt_of_lt_of_le positive le)]
  rcases ordered with empty | ordered
  · refine absurd (lt_of_le_of_lt (not_lt.mp toEnd) ?_) fromStart
    rw [tUpper, append_lt_append_left]
    exact empty
  · refine not_lt.mpr (le_trans (not_lt.mp toEnd) ?_)
    rw [← not_lt, append_lt_append_left, not_lt]
    exact ordered

/-- Every key is made of fields without `#` and of a time in a month. -/
def HashFree (localtime : Localtime) (month : Bytes) (db : Database) : Prop :=
  ∀ e ∈ db.entries, ∃ (metric : Bytes) (timestamp : Int64) (tag entityIdx : Bytes),
    35 ∉ metric ∧ 35 ∉ tag ∧ 35 ∉ entityIdx ∧
    1 ≤ timestamp.toInt ∧ timestamp.toInt ≤ 8999999999 ∧
    getTableSuffix localtime timestamp = month ∧
    e.1 = keyText metric (invTime timestamp) tag entityIdx

/-- A longer window shows what a shorter one shows, and a query without an
interval shows both. -/
def Nested (db : Database) (cond : EventCond) (start shorter longer : Int64) : Prop :=
  folded db cond start shorter ⊆ folded db cond start longer ∧
    folded db cond start longer ⊆ folded db cond start 0

/-- A text between the end of the longer window and that of the shorter one. -/
theorem exists_between {start shorter longer : Int64} (positive : 0 < shorter)
    (unordered : ¬ EndsOrdered start shorter longer) :
    ∃ text : Bytes, text ≠ [] ∧ 35 ∉ text ∧ ¬ text ++ [35] < timestampExchangeStr start ∧
      text ++ [35] < timestampExchangeStr (start - shorter) ∧
      timestampExchangeStr (start - longer) < text ++ [35] := by
  obtain ⟨reaches, later⟩ := not_or.mp unordered
  have moved : timestampExchangeStr start ≠ timestampExchangeStr (start - shorter) := by
    intro same
    have zero : shorter = 0 := by
      have := timestampExchangeStr_injective same
      grind
    rw [zero] at positive
    exact absurd positive (by decide)
  have beforeStart := lt_of_le_of_ne (not_lt.mp reaches) moved
  have beforeLonger := not_le.mp later
  have hashless (t : Int64) : 35 ∉ timestampExchangeStr t := fun member =>
    absurd (lt_of_mem_signedDecimal member) (lt_irrefl 35)
  have extended (s : Bytes) : s < s ++ [35] := by
    have longer := (append_lt_append_left s).mpr (List.nil_lt_cons 35 [])
    rwa [List.append_nil] at longer
  have below {s : Bytes} (less : s < timestampExchangeStr (start - shorter)) :
      s ++ [35] < timestampExchangeStr (start - shorter) :=
    append_cons_lt_of_lt less (fun _ member => lt_of_mem_signedDecimal member) []
  rcases le_total (timestampExchangeStr start) (timestampExchangeStr (start - longer)) with le | le
  · exact ⟨timestampExchangeStr (start - longer), signedDecimal_ne_nil _, hashless _,
      not_lt.mpr (le.trans (extended _).le), below beforeLonger, extended _⟩
  · exact ⟨timestampExchangeStr start, signedDecimal_ne_nil _, hashless _,
      not_lt.mpr (extended _).le, below beforeStart, le.trans_lt (extended _)⟩

/-- Windows that do not reach back beyond time 0 have ordered ends. -/
theorem endsOrdered_of_within {start shorter longer : Int64} (positive : 0 < shorter)
    (le : shorter ≤ longer) (reach : longer ≤ start) (upper : start.toInt ≤ 8999999999) :
    EndsOrdered start shorter longer := by
  have zero : (0 : Int64).toInt = 0 := by decide
  rw [Int64.lt_iff_toInt_lt, zero] at positive
  rw [Int64.le_iff_toInt_le] at le reach
  have first : (start - shorter).toInt = start.toInt - shorter.toInt :=
    toInt_sub_of_fits ⟨by omega, by omega⟩
  have second : (start - longer).toInt = start.toInt - longer.toInt :=
    toInt_sub_of_fits ⟨by omega, by omega⟩
  refine .inr (not_lt.mp fun before => ?_)
  rw [timestampExchangeStr_eq (by omega) (by omega), timestampExchangeStr_eq (by omega) (by omega),
    decimal_invTime_lt_iff (by omega) (by omega) (by omega) (by omega)] at before
  omega

/-- Texts behind a metric and a separator compare as they do alone. -/
theorem behind_metric (metric a b : Bytes) :
    metric ++ bytes "#" ++ a < metric ++ bytes "#" ++ b ↔ a < b :=
  append_lt_append_left (metric ++ bytes "#")

/-- With unordered ends some record is shown by the shorter window only. -/
theorem exists_left_out (localtime : Localtime) {start shorter longer : Int64}
    (positive : 0 < shorter) (le : shorter ≤ longer) (unordered : ¬ EndsOrdered start shorter longer) :
    ∃ (month : Bytes) (db : Database) (cond : EventCond), HashFree localtime month db ∧
      ¬ folded db cond start shorter ⊆ folded db cond start longer := by
  obtain ⟨text, text_ne, hashless, fromStart, toEnd, beyond⟩ := exists_between positive unordered
  -- the metric asked for goes on into the time of the key, so its tag is compared with the bounds
  let metric := bytes "a" ++ 35 :: decimal (invTime 1550000000)
  let key := keyText (bytes "a") (invTime 1550000000) text []
  let record : EventInsert := ⟨bytes "svc", [], 1550000000, 10, bytes "a", text, 1, 1, 1, 1, 1, 1, 1, 1⟩
  let db : Database := OrdMap.empty.insert key (layout record).toBytes
  let cond : EventCond := ⟨shorter, bytes "svc", metric, 0, [], [], .none, .none, .desc, 0⟩
  have stored : db.entries = [(key, (layout record).toBytes)] := rfl
  have plain : 35 ∉ bytes "a" := by decide
  have named : bytes "a" ≠ [] := by decide
  have fields := splitKey_keyText plain hashless List.not_mem_nil (invTime 1550000000) named text_ne
  have read : readEntry cond key (layout record).toBytes =
      some (⟨bytes "a", decimal (invTime 1550000000), text, []⟩, layout record) := by
    rw [readEntry_unfiltered rfl rfl, fields]
    rfl
  have split : key = metric ++ bytes "#" ++ (text ++ [35]) := by
    have hash : bytes "#" = [35] := by decide
    simp [key, metric, keyText, hash]
  refine ⟨getTableSuffix localtime 1550000000, db, cond, ?_, ?_⟩
  · intro e member
    rw [stored, List.mem_singleton] at member
    rw [member]
    exact ⟨bytes "a", 1550000000, text, [], plain, hashless, List.not_mem_nil, by decide,
      by decide, rfl, rfl⟩
  · intro subset
    have shown : (⟨bytes "a", decimal (invTime 1550000000), text, []⟩, layout record) ∈
        folded db cond start shorter := by
      refine mem_folded.mpr ⟨(key, (layout record).toBytes), by simp [stored], ⟨?_, ?_⟩, read⟩
      · rw [split, tUpper, behind_metric]
        exact fromStart
      · rw [split, lastKey_of_pos cond start positive, behind_metric]
        exact not_lt.mpr toEnd.le
    obtain ⟨e, member, ⟨_, inside⟩, _⟩ := mem_folded.mp (subset shown)
    rw [stored, List.mem_singleton] at member
    rw [member, split, lastKey_of_pos cond start (lt_of_lt_of_le positive le), behind_metric]
      at inside
    exact inside beyond

/-- Windows from one start are nested in every database and for every query
exactly when their ends are ordered. -/
theorem windows_nested_iff (localtime : Localtime) {start shorter longer : Int64}
    (positive : 0 < shorter) (le : shorter ≤ longer) :
    (∀ (month : Bytes) (db : Database), HashFree localtime month db → ∀ cond : EventCond,
      Nested db cond start shorter longer) ↔ EndsOrdered start shorter longer := by
  constructor
  · intro nested
    by_contra unordered
    obtain ⟨month, db, cond, hashFree, leftOut⟩ := exists_left_out localtime positive le unordered
    exact leftOut (nested month db hashFree cond).1
  · intro ordered month db _ cond
    exact ⟨ordered.subset positive le db cond,
      folded_subset_all db cond start (lt_of_lt_of_le positive le)⟩

theorem windows_nested_iff_hours :
    (∀ (month : Bytes) (db : Database), HashFree (fun _ => ⟨119, 1⟩) month db →
      ∀ cond : EventCond, Nested db cond 1550000000 3600 7200) ↔
      EndsOrdered 1550000000 3600 7200 :=
  windows_nested_iff (fun _ => ⟨119, 1⟩) (by decide) (by decide)

/-- A window that reaches back beyond time 0 leaves out a record of ten seconds
before its start, which an hour shows: it ends at the text `10000000000`. -/
theorem reaching_beyond_zero_not_nested :
    ¬ ∀ (localtime : Localtime) (month : Bytes) (db : Database) (cond : EventCond)
      (start shorter longer : Int64), HashFree localtime month db → 0 < shorter →
      shorter ≤ longer → Nested db cond start shorter longer := by
  intro always
  let key := keyText (bytes "m") (invTime 1549999990) (bytes "a") []
  let value : LeveldbInternalLayout := ⟨68, 10, 3, 15, 5, 4, 6, 4, 5, 6⟩
  have hashFree : HashFree (fun _ => ⟨119, 1⟩) (bytes "201902")
      (OrdMap.empty.insert key value.toBytes) := by
    intro e member
    have same : e = (key, value.toBytes) := List.mem_singleton.mp member
    rw [same]
    exact ⟨bytes "m", 1549999990, bytes "a", [], by decide, by decide, List.not_mem_nil, by decide,
      by decide, by decide +kernel, rfl⟩
  have nested := always (fun _ => ⟨119, 1⟩) (bytes "201902")
    (OrdMap.empty.insert key value.toBytes)
    ⟨3600, bytes "svc", bytes "m", 0, [], [], .none, .none, .desc, 0⟩ 1550000000 3600 1550000001
    hashFree (by decide) (by decide)
  exact absurd nested.1 (by decide +kernel)

end Heracles.Business.StoreLevelDB
