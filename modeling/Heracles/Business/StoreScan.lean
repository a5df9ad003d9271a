import Heracles.Base.Runs
import Heracles.Business.StoreLevelDB

/-!
What the LevelDB store holds after a run of inserts, and what a scan of it folds.

`content_run`: the database in a directory is the empty one with the records
inserted, in order, whose service and month name that directory; so it holds the
last record of every key (`OrdMap.entries_insertAll_perm`). `scan_eq_filterMap`:
a scan folds exactly the readable entries between its two bounds.
-/

namespace Heracles.Business.StoreLevelDB

open Heracles.Base

/-! ### Handlers -/

/-- Every open handler is for the directory its service and month name. -/
def HandlersNamed (s : StoreLevelDB) : Prop :=
  ∀ service held, s.levelDBs.find? service = some held →
    held.handler = s.fullpath service held.currentSuffix

/-- The same store, up to handlers opened and empty databases created. -/
structure SameContent (s t : StoreLevelDB) : Prop where
  filepath : t.filepath = s.filepath
  tablePrefix : t.tablePrefix = s.tablePrefix
  content : ∀ path, t.content path = s.content path
  named : t.HandlersNamed

theorem SameContent.fullpath {s t : StoreLevelDB} (same : SameContent s t) (service suffix : Bytes) :
    t.fullpath service suffix = s.fullpath service suffix := by
  rw [StoreLevelDB.fullpath, StoreLevelDB.fullpath, same.filepath, same.tablePrefix]

theorem content_openDB (s : StoreLevelDB) (opened path : Bytes) :
    (s.openDB opened).content path = s.content path := by
  simp only [content, openDB, OrdMap.find?_insert]
  split
  · rename_i here
    rw [here, Option.getD_some]
  · rfl

theorem createHandler_cases {s : StoreLevelDB} (named : s.HandlersNamed) (env : LeveldbEnv)
    (service suffix : Bytes) :
    s.createHandler env service suffix = (none, s) ∧ env.openOk = false ∨
    ∃ t, s.createHandler env service suffix = (some (s.fullpath service suffix), t) ∧
      SameContent s t := by
  unfold createHandler
  cases opened : env.openOk with
  | false => exact .inl ⟨rfl, rfl⟩
  | true =>
      refine .inr ⟨_, rfl, rfl, rfl, content_openDB s _, ?_⟩
      intro other held found
      rw [OrdMap.find?_insert] at found
      split at found
      · rename_i here
        obtain rfl := Option.some.inj found
        rw [here]
        rfl
      · exact named other held found

/-- A handler obtained is for the directory of the current month, and obtaining
it changes no content; without one, nothing has happened. -/
theorem getLeveldbHandler_cases {s : StoreLevelDB} (named : s.HandlersNamed) (env : LeveldbEnv)
    (service : Bytes) :
    s.getLeveldbHandler env service = (none, s) ∧ (service = [] ∨ env.openOk = false) ∨
    ∃ t, s.getLeveldbHandler env service = (some (s.fullpath service env.month), t) ∧
      service ≠ [] ∧ SameContent s t := by
  have created (suffix : Bytes) (service_ne : service ≠ []) :
      s.createHandler env service suffix = (none, s) ∧ (service = [] ∨ env.openOk = false) ∨
      ∃ t, s.createHandler env service suffix = (some (s.fullpath service suffix), t) ∧
        service ≠ [] ∧ SameContent s t := by
    rcases createHandler_cases named env service suffix with ⟨same, closed⟩ | ⟨t, same, content⟩
    · exact .inl ⟨same, .inr closed⟩
    · exact .inr ⟨t, same, service_ne, content⟩
  unfold getLeveldbHandler
  split
  · rename_i anonymous
    exact .inl ⟨rfl, .inl anonymous⟩
  · rename_i service_ne
    dsimp only
    split
    · rename_i held found
      split
      · rename_i sameMonth
        refine .inr ⟨s, ?_, service_ne, rfl, rfl, fun _ => rfl, named⟩
        rw [named service held found, ← sameMonth]
      · exact created env.month service_ne
    · exact created env.month service_ne

/-! ### Runs of inserts -/

/-- A call of `insert_ev_stat`. -/
abbrev InsertCall := LeveldbEnv × EventInsert

def insertStep (s : StoreLevelDB) (call : InsertCall) : StoreLevelDB :=
  (s.insertEvStat call.1 call.2).2

/-- The call returns 0. -/
def Stored (s : StoreLevelDB) (call : InsertCall) : Prop := (s.insertEvStat call.1 call.2).1 = 0

instance (s : StoreLevelDB) (call : InsertCall) : Decidable (Stored s call) :=
  inferInstanceAs (Decidable (_ = _))

/-- The directory a call writes to. -/
def target (s : StoreLevelDB) (call : InsertCall) : Bytes :=
  s.fullpath call.2.service call.1.month

/-- The database with records inserted in order. -/
def withRecords (db : Database) (records : List EventInsert) : Database :=
  db.insertAll cstrKey (fun stat => (layout stat).toBytes) records

theorem content_put (s : StoreLevelDB) (target path key value : Bytes) :
    (s.put target key value).content path =
      if target = path then (s.content path).insert key value else s.content path := by
  simp only [content, put, OrdMap.find?_insert]
  by_cases here : path = target
  · simp [here]
  · simp [here, Ne.symm here]

/-- What a call that returns 0 has done. -/
structure Inserted (s : StoreLevelDB) (call : InsertCall) (t : StoreLevelDB) : Prop where
  service : call.2.service ≠ []
  metric : call.2.metric ≠ []
  filepath : t.filepath = s.filepath
  tablePrefix : t.tablePrefix = s.tablePrefix
  named : t.HandlersNamed
  content : ∀ path, t.content path =
    if s.target call = path then withRecords (s.content path) [call.2] else s.content path

/-- A call that returns 0 inserts its record into its directory and changes no
other one; a call that fails changes no content. -/
theorem insertEvStat_cases {s : StoreLevelDB} (named : s.HandlersNamed) (call : InsertCall) :
    ¬ Stored s call ∧ SameContent s (insertStep s call) ∨
      Stored s call ∧ Inserted s call (insertStep s call) := by
  obtain ⟨env, stat⟩ := call
  have refused : ¬ (-1 : Int32) = 0 := by decide
  unfold Stored insertStep insertEvStat
  split
  · exact .inl ⟨refused, rfl, rfl, fun _ => rfl, named⟩
  · rename_i checked
    push Not at checked
    rcases getLeveldbHandler_cases named env stat.service with ⟨failed, _⟩ | ⟨t, got, _, same⟩
    · simp only [failed]
      exact .inl ⟨refused, rfl, rfl, fun _ => rfl, named⟩
    · simp only [got]
      cases env.putOk with
      | false => exact .inl ⟨refused, same⟩
      | true =>
          refine .inr ⟨rfl, checked.1, checked.2.1, same.filepath, same.tablePrefix, same.named, ?_⟩
          intro path
          rw [if_pos rfl, content_put, same.content]
          rfl

theorem target_of_same {s t : StoreLevelDB} (filepath : t.filepath = s.filepath)
    (tablePrefix : t.tablePrefix = s.tablePrefix) : t.target = s.target := by
  funext call
  rw [target, target, StoreLevelDB.fullpath, StoreLevelDB.fullpath, filepath, tablePrefix]

/-- After a run of inserts that all return 0, a directory holds the records of
the calls that name it, inserted in order. -/
theorem content_run {s : StoreLevelDB} (named : s.HandlersNamed) {calls : List InsertCall}
    (stored : Along insertStep Stored s calls) :
    (run insertStep s calls).HandlersNamed ∧
      (run insertStep s calls).filepath = s.filepath ∧
      (run insertStep s calls).tablePrefix = s.tablePrefix ∧
      ∀ path, (run insertStep s calls).content path =
        withRecords (s.content path)
          ((calls.filter fun call => s.target call = path).map Prod.snd) := by
  induction calls generalizing s with
  | nil => exact ⟨named, rfl, rfl, fun _ => rfl⟩
  | cons call calls ih =>
      rcases insertEvStat_cases named call with ⟨failed, _⟩ | ⟨_, inserted⟩
      · exact absurd stored.1 failed
      · obtain ⟨stillNamed, filepath, tablePrefix, content⟩ := ih inserted.named stored.2
        refine ⟨stillNamed, filepath.trans inserted.filepath,
          tablePrefix.trans inserted.tablePrefix, fun path => ?_⟩
        rw [run_cons, content, inserted.content,
          target_of_same inserted.filepath inserted.tablePrefix, List.filter_cons]
        by_cases here : s.target call = path
        · simp only [here, ↓reduceIte, decide_true, List.map_cons]
          rfl
        · simp [here]

theorem init_named (filepath tablePrefix : Bytes) : (init filepath tablePrefix).HandlersNamed := by
  intro service held found
  simp [init] at found

theorem content_init (filepath tablePrefix path : Bytes) :
    (init filepath tablePrefix).content path = .empty := rfl

/-- After inserts for one service in one month, the directory of that service
and month holds all records and every other one is empty. -/
theorem content_oneMonth {filepath tablePrefix service month : Bytes} {calls : List InsertCall}
    (stored : Along insertStep Stored (init filepath tablePrefix) calls)
    (oneMonth : ∀ call ∈ calls, call.1.month = month ∧ call.2.service = service) (path : Bytes) :
    (run insertStep (init filepath tablePrefix) calls).content path =
      if (init filepath tablePrefix).fullpath service month = path then
        withRecords .empty (calls.map Prod.snd)
      else .empty := by
  have named := init_named filepath tablePrefix
  have sameTarget : ∀ call ∈ calls, (init filepath tablePrefix).target call =
      (init filepath tablePrefix).fullpath service month := by
    intro call member
    obtain ⟨callMonth, callService⟩ := oneMonth call member
    rw [target, callMonth, callService]
  rw [(content_run named stored).2.2.2, content_init]
  split
  · rename_i here
    have all : (calls.filter fun call =>
        decide ((init filepath tablePrefix).target call = path)) = calls :=
      List.filter_eq_self.mpr fun call member =>
        decide_eq_true ((sameTarget call member).trans here)
    rw [all]
  · rename_i elsewhere
    have none : (calls.filter fun call =>
        decide ((init filepath tablePrefix).target call = path)) = [] := by
      refine List.filter_eq_nil_iff.mpr fun call member => ?_
      rw [decide_eq_true_iff, sameTarget call member]
      exact elsewhere
    rw [none]
    rfl

/-! ### The scan -/

/-- The keys between the bounds of a window. -/
def InWindow (cond : EventCond) (stat : EventSelect) (key : Bytes) : Prop :=
  ¬ key < tUpper cond stat.timestamp ∧ ¬ tLower cond stat.timestamp stat.tmInterval < key

instance (cond : EventCond) (stat : EventSelect) (key : Bytes) :
    Decidable (InWindow cond stat key) := inferInstanceAs (Decidable (_ ∧ _))

theorem scanLoop_eq (cond : EventCond) (bound : Bytes) (l : List (Bytes × Bytes)) :
    scanLoop cond bound l =
      (l.takeWhile fun e => !decide (bound < e.1)).filterMap fun e => readEntry cond e.1 e.2 := by
  induction l with
  | nil => rfl
  | cons e l ih =>
      obtain ⟨key, value⟩ := e
      simp only [scanLoop]
      split
      · rename_i above
        rw [List.takeWhile_cons_of_neg (by simp [above]), List.filterMap_nil]
      · rename_i within
        rw [List.takeWhile_cons_of_pos (by simp [within]), List.filterMap_cons]
        cases readEntry cond key value with
        | none => exact ih
        | some entry => exact congrArg (entry :: ·) ih

/-- A scan folds exactly the readable entries between its bounds, in key order. -/
theorem scan_eq_filterMap (db : Database) (cond : EventCond) (stat : EventSelect) :
    scan db cond stat = (db.entries.filter fun e => decide (InWindow cond stat e.1)).filterMap
      fun e => readEntry cond e.1 e.2 := by
  set bound := tLower cond stat.timestamp stat.tmInterval
  have upTo := (OrdMap.dropWhile_eq_filter_of_sorted (fun k => !decide (bound < k))
    (db.sorted_seek (tUpper cond stat.timestamp)) (fun e _ f _ less within => by
      simp only [Bool.not_eq_true', decide_eq_false_iff_not, not_lt] at within ⊢
      exact less.le.trans within)).2
  rw [scan, scanLoop_eq, upTo, OrdMap.seek_eq_filter, List.filter_filter]
  congr 1
  refine List.filter_congr fun e _ => ?_
  rw [Bool.eq_iff_iff]
  simp only [InWindow, bound, Bool.and_eq_true, Bool.not_eq_true', decide_eq_false_iff_not,
    decide_eq_true_eq, and_comm]

/-- A select folds the scan of the database of its service and month, and
changes no content. -/
theorem selectWith_eq (item : KeyFields × LeveldbInternalLayout → EventInfo)
    (fold : List EventInfo → EventSelect → EventSelect) {s : StoreLevelDB} (named : s.HandlersNamed)
    {env : LeveldbEnv} {cond : EventCond} (opens : env.openOk = true)
    (service_ne : cond.service ≠ []) (stat : EventSelect) :
    ∃ t, SameContent s t ∧ selectWith item fold s env cond stat =
      (0, fold ((scan (s.content (s.fullpath cond.service env.month)) cond stat).map item) stat,
        t) := by
  rcases getLeveldbHandler_cases named env cond.service with ⟨_, anonymous | closed⟩ | ⟨t, got, _, same⟩
  · exact absurd anonymous service_ne
  · rw [opens] at closed
    cases closed
  · refine ⟨t, same, ?_⟩
    simp only [selectWith, got, same.content]

/-! ### Folding lines -/

/-- A 32-bit field that lines are added up in is the sum of that field, wrapped. -/
theorem toInt_foldl_addItem32 {field : EventInfo → Int32}
    (adds : ∀ total item, field (addItem total item) = field total + field item)
    (total : EventInfo) (items : List EventInfo) :
    (field (items.foldl addItem total)).toInt =
      ((field total).toInt + (items.map fun item => (field item).toInt).sum).bmod (2 ^ 32) := by
  induction items generalizing total with
  | nil =>
      have := (field total).le_toInt
      have := (field total).toInt_lt
      simp only [List.foldl_nil, List.map_nil, List.sum_nil, add_zero]
      exact (Int.bmod_eq_of_le (by omega) (by omega)).symm
  | cons item items ih =>
      rw [List.foldl_cons, ih, List.map_cons, List.sum_cons, ← add_assoc]
      rw [adds, Int32.toInt_add, Int.bmod_add_bmod]

/-- The sum of the values is the sum of the sums, wrapped to 64 bits. -/
theorem toInt_foldl_addItem_valueSum (total : EventInfo) (items : List EventInfo) :
    (items.foldl addItem total).valueSum.toInt =
      (total.valueSum.toInt + (items.map fun item => item.valueSum.toInt).sum).bmod (2 ^ 64) := by
  induction items generalizing total with
  | nil =>
      have := total.valueSum.le_toInt
      have := total.valueSum.toInt_lt
      simp only [List.foldl_nil, List.map_nil, List.sum_nil, add_zero]
      exact (Int.bmod_eq_of_le (by omega) (by omega)).symm
  | cons item items ih =>
      rw [List.foldl_cons, ih, List.map_cons, List.sum_cons, ← add_assoc]
      rw [addItem, Int64.toInt_add, Int.bmod_add_bmod]

/-- The count of a summary is the sum of the counts, wrapped to 32 bits. -/
theorem toInt_summarize_count (items : List EventInfo) :
    (summarize items).count.toInt =
      ((items.map fun item : EventInfo => item.count.toInt).sum).bmod (2 ^ 32) := by
  have total := @toInt_foldl_addItem32 EventInfo.count (fun _ _ => rfl) blank items
  have zero : blank.count.toInt = 0 := by decide
  rw [zero, zero_add] at total
  rw [← total, summarize]
  split
  · rfl
  · rfl

theorem toInt_summarize_valueSum (items : List EventInfo) :
    (summarize items).valueSum.toInt =
      ((items.map fun item : EventInfo => item.valueSum.toInt).sum).bmod (2 ^ 64) := by
  have total := toInt_foldl_addItem_valueSum blank items
  have zero : blank.valueSum.toInt = 0 := by decide
  rw [zero, zero_add] at total
  rw [← total, summarize]
  split
  · rfl
  · rfl

end Heracles.Business.StoreLevelDB
