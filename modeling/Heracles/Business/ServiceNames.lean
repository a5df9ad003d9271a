import Heracles.Business.EventRepos
import Heracles.Business.StoreLevelDB

/-!
The metrics and services that the stores know.

The LevelDB store has no list of its services: it recovers their names from the
directories of their databases. Reads open the database of the month as writes do,
and opening creates it, so a read may add a directory.
`services_unchanged_iff` says when it adds a name with it.
-/

namespace Heracles.Business

open Heracles.Base

/-- A `std::set` filled with `names`, in its order. -/
def uniqueStore (names : List Bytes) : List Bytes :=
  ((OrdMap.empty : OrdMap Bytes Unit).insertAll id (fun _ => ()) names).keys

theorem mem_uniqueStore {names : List Bytes} {name : Bytes} :
    name ∈ uniqueStore names ↔ name ∈ names := by
  rw [uniqueStore, OrdMap.mem_keys_insertAll]
  simp [OrdMap.keys, OrdMap.empty]

theorem uniqueStore_eq_iff {names others : List Bytes} :
    uniqueStore names = uniqueStore others ↔ ∀ name, name ∈ names ↔ name ∈ others := by
  rw [uniqueStore, uniqueStore, OrdMap.keys_eq_iff]
  exact forall_congr' fun name => iff_congr mem_uniqueStore mem_uniqueStore

namespace StoreLevelDB

/-! ### Metrics -/

/-- The scan of `select_metrics`. With a `target` it is in a `Seek`, which passes
over smaller keys; the target is above the key that was read last. -/
def metricsLoop : Option Bytes → List (Bytes × Bytes) → List Bytes
  | _, [] => []
  | some target, (strKey, _) :: rest =>
      if strKey < target then metricsLoop target rest
      else
        match splitKey strKey with
        | none => metricsLoop none rest
        | some vec => vec.metric :: metricsLoop (some (vec.metric ++ bytes "$")) rest
  | none, (strKey, _) :: rest =>
      match splitKey strKey with
      | none => metricsLoop none rest
      | some vec => vec.metric :: metricsLoop (some (vec.metric ++ bytes "$")) rest

def selectMetrics (s : StoreLevelDB) (env : LeveldbEnv) (service : Bytes) :
    Int32 × List Bytes × StoreLevelDB :=
  if service = [] then (-1, [], s)
  else
    match s.getLeveldbHandler env service with
    | (none, s) => (-1, [], s)
    | (some path, s) => (0, uniqueStore (metricsLoop none (s.content path).entries), s)

/-! ### Services -/

/-- What the file system says about `filepath_`: whether `opendir` succeeds, under
which name a path lies in it, if it does, and the directories in it that the store
has not made. -/
structure StoreDir where
  opendirOk : Bool
  entry : Bytes → Option Bytes
  others : List Bytes

/-- The service that a directory name stands for. -/
def serviceOf (tablePrefix name : Bytes) : Option Bytes :=
  if name.head? = some 46 then none
  else if ¬tablePrefix <+: name then none
  else if name.length > tablePrefix.length + 2 + 15 then
    let tName := name.drop (tablePrefix.length + 2)
    some (tName.take (tName.length - 15))
  else none

/-- The directories in `filepath_`. -/
def directories (s : StoreLevelDB) (dir : StoreDir) : List Bytes :=
  s.disk.keys.filterMap dir.entry ++ dir.others

def selectServices (s : StoreLevelDB) (dir : StoreDir) : Int32 × List Bytes :=
  if dir.opendirOk then (0, (s.directories dir).filterMap (serviceOf s.tablePrefix))
  else (-1, [])

/-- The directory that `get_leveldb_handler` opens, and creates if it is missing. -/
def opened (s : StoreLevelDB) (env : LeveldbEnv) (service : Bytes) : Option Bytes :=
  if service = [] then none
  else if (s.levelDBs.find? service).map (·.currentSuffix) = some env.month then none
  else if env.openOk then some (s.fullpath service env.month)
  else none

/-- Getting a handler leaves the disk alone, but for the directory it opens. -/
theorem getLeveldbHandler_disk (s : StoreLevelDB) (env : LeveldbEnv) (service : Bytes) :
    (s.getLeveldbHandler env service).2.tablePrefix = s.tablePrefix ∧
      ∀ path, path ∈ (s.getLeveldbHandler env service).2.disk.keys ↔
        s.opened env service = some path ∨ path ∈ s.disk.keys := by
  have created : (s.createHandler env service env.month).2.tablePrefix = s.tablePrefix ∧
      ∀ path, path ∈ (s.createHandler env service env.month).2.disk.keys ↔
        (if env.openOk then some (s.fullpath service env.month) else none) = some path ∨
          path ∈ s.disk.keys := by
    unfold createHandler
    cases env.openOk with
    | false => exact ⟨rfl, fun path => by simp⟩
    | true =>
        refine ⟨rfl, fun path => ?_⟩
        simp only [openDB, OrdMap.mem_keys_insert, if_true, Option.some.injEq]
        rw [eq_comm]
  unfold getLeveldbHandler opened
  split
  · exact ⟨rfl, fun path => by simp⟩
  · cases held : s.levelDBs.find? service with
    | none =>
        simp only [Option.map_none, reduceCtorEq, if_false]
        exact created
    | some handler =>
        simp only [Option.map_some, Option.some.injEq]
        by_cases month : env.month = handler.currentSuffix
        · rw [if_pos month, if_pos month.symm]
          exact ⟨rfl, fun path => by simp⟩
        · rw [if_neg month, if_neg (Ne.symm month)]
          exact created

theorem selectWith_store (item : KeyFields × LeveldbInternalLayout → EventInfo)
    (fold : List EventInfo → EventSelect → EventSelect) (s : StoreLevelDB) (env : LeveldbEnv)
    (cond : EventCond) (stat : EventSelect) :
    (selectWith item fold s env cond stat).2.2 = (s.getLeveldbHandler env cond.service).2 := by
  rw [selectWith]
  generalize s.getLeveldbHandler env cond.service = result
  obtain ⟨handler, after⟩ := result
  cases handler with
  | none => rfl
  | some path => rfl

/-- A select does to the store what getting the handler of its service does. -/
theorem selectEvStat_store
    (stdSort : (EventInfo → EventInfo → Bool) → List EventInfo → List EventInfo)
    (s : StoreLevelDB) (env : LeveldbEnv) {cond : EventCond} (named : cond.service ≠ [])
    (stat : EventSelect) (lingerHint : Int64) :
    (s.selectEvStat stdSort env cond stat lingerHint).2.2 =
      (s.getLeveldbHandler env cond.service).2 := by
  rw [selectEvStat, if_neg named]
  cases groupby : cond.groupby with
  | none => exact selectWith_store _ _ s env cond _
  | byTimestamp => exact selectWith_store _ _ s env cond _
  | byTag => exact selectWith_store _ _ s env cond _

theorem selectMetrics_store (s : StoreLevelDB) (env : LeveldbEnv) {service : Bytes}
    (named : service ≠ []) :
    (s.selectMetrics env service).2.2 = (s.getLeveldbHandler env service).2 := by
  rw [selectMetrics, if_neg named]
  generalize s.getLeveldbHandler env service = result
  obtain ⟨handler, after⟩ := result
  cases handler with
  | none => rfl
  | some path => rfl

end StoreLevelDB

/-! ### Requests that read -/

/-- The repository and the LevelDB store. -/
structure Server where
  repos : EventRepos
  leveldb : StoreLevelDB
deriving DecidableEq

/-- What the environment decides about a read: how a handler's initialisation and
the LevelDB store fare, and the answers of the MySQL store, if it is there. -/
structure ReadEnv where
  init : InitEnv
  leveldb : LeveldbEnv
  stdSort : (EventInfo → EventInfo → Bool) → List EventInfo → List EventInfo
  sqlSelect : EventCond → Int64 → Int32 × EventSelect
  sqlMetrics : Bytes → Option (List Bytes)

inductive Read where
  | getEvent (version : Bytes) (cond : EventCond)
  | getMetrics (version service : Bytes)

namespace Server

/-- `EventHandler::get_event`. -/
def handlerGetEvent (env : ReadEnv) (h : Handler) (cond : EventCond) (leveldb : StoreLevelDB) :
    Int32 × EventSelect × StoreLevelDB :=
  if h.storeType = bytes "leveldb" then
    leveldb.selectEvStat env.stdSort env.leveldb cond .zero h.conf.eventLinger.toInt64
  else
    let (ret, stat) := env.sqlSelect cond h.conf.eventLinger.toInt64
    (ret, stat, leveldb)

def getEvent (s : Server) (env : ReadEnv) (version : Bytes) (cond : EventCond) :
    Int32 × EventSelect × Server :=
  let (ret, stat, repos, leveldb) :=
    s.repos.getEvent env.init (handlerGetEvent env) version cond s.leveldb
  (ret, stat, ⟨repos, leveldb⟩)

def getMetrics (s : Server) (env : ReadEnv) (version service : Bytes) :
    Int32 × List Bytes × Server :=
  if version ≠ bytes "1.0.0" ∨ service = [] then (-1, [], s)
  else
    let (ret, metrics, leveldb) := s.leveldb.selectMetrics env.leveldb service
    let found := if ret = 0 then metrics else []
    (0, uniqueStore ((env.sqlMetrics service).getD [] ++ found), { s with leveldb })

/-- The services the MySQL store and the directories of the LevelDB store have. -/
def getServices (s : Server) (dir : StoreLevelDB.StoreDir) (sqlServices : Option (List Bytes))
    (version : Bytes) : Int32 × List Bytes :=
  if version ≠ bytes "1.0.0" then (-1, [])
  else
    let (ret, services) := s.leveldb.selectServices dir
    let found := if ret = 0 then services else []
    (0, uniqueStore (sqlServices.getD [] ++ found))

def read (s : Server) (env : ReadEnv) : Read → Server
  | .getEvent version cond => (s.getEvent env version cond).2.2
  | .getMetrics version service => (s.getMetrics env version service).2.2

/-- The directory that a read opens. -/
def opens (s : Server) (env : ReadEnv) : Read → Option Bytes
  | .getEvent version cond =>
      if EventRepos.GetEventParam version cond ∧
          (s.repos.findCreateEventHandler env.init cond.service cond.entityIdx).1.map
            (·.storeType) = some (bytes "leveldb") then
        s.leveldb.opened env.leveldb cond.service
      else none
  | .getMetrics version service =>
      if version = bytes "1.0.0" ∧ service ≠ [] then s.leveldb.opened env.leveldb service else none

/-- The store after a read is the one that getting the handler leaves, where the
read opens a directory, and as it was otherwise. -/
theorem read_disk (s : Server) (env : ReadEnv) (r : Read) :
    (s.read env r).leveldb.tablePrefix = s.leveldb.tablePrefix ∧
      ∀ path, path ∈ (s.read env r).leveldb.disk.keys ↔
        s.opens env r = some path ∨ path ∈ s.leveldb.disk.keys := by
  have untouched : s.leveldb.tablePrefix = s.leveldb.tablePrefix ∧
      ∀ path, path ∈ s.leveldb.disk.keys ↔
        (none : Option Bytes) = some path ∨ path ∈ s.leveldb.disk.keys :=
    ⟨rfl, fun path => by simp⟩
  cases r with
  | getMetrics version service =>
      simp only [read, getMetrics, opens]
      by_cases checked : version = bytes "1.0.0" ∧ service ≠ []
      · have passed : ¬(version ≠ bytes "1.0.0" ∨ service = []) :=
          not_or.mpr ⟨not_not.mpr checked.1, checked.2⟩
        rw [if_pos checked, if_neg passed]
        simp only [StoreLevelDB.selectMetrics_store s.leveldb env.leveldb checked.2]
        exact s.leveldb.getLeveldbHandler_disk env.leveldb service
      · have refused : version ≠ bytes "1.0.0" ∨ service = [] := by
          rw [not_and_or, not_not] at checked
          exact checked
        rw [if_neg checked, if_pos refused]
        exact untouched
  | getEvent version cond =>
      simp only [read, getEvent, opens, EventRepos.getEvent]
      by_cases checked : EventRepos.GetEventParam version cond
      · simp only [checked, true_and, ↓reduceIte]
        generalize s.repos.findCreateEventHandler env.init cond.service cond.entityIdx = result
        obtain ⟨handler, repos⟩ := result
        cases handler with
        | none => exact untouched
        | some h =>
            simp only [Option.map_some, Option.some.injEq, handlerGetEvent]
            by_cases onDisk : h.storeType = bytes "leveldb"
            · simp only [if_pos onDisk,
                StoreLevelDB.selectEvStat_store env.stdSort s.leveldb env.leveldb checked.2.1]
              exact s.leveldb.getLeveldbHandler_disk env.leveldb cond.service
            · simp only [if_neg onDisk]
              exact ⟨trivial, untouched.2⟩
      · simp only [checked, false_and, ↓reduceIte]
        exact ⟨trivial, untouched.2⟩

/-- The name that a directory of the store adds to the services. -/
def nameOf (s : Server) (dir : StoreLevelDB.StoreDir) (path : Bytes) : Option Bytes :=
  if dir.opendirOk then (dir.entry path).bind (StoreLevelDB.serviceOf s.leveldb.tablePrefix)
  else none

theorem mem_getServices {s : Server} {dir : StoreLevelDB.StoreDir}
    {sqlServices : Option (List Bytes)} {name : Bytes} :
    name ∈ (s.getServices dir sqlServices (bytes "1.0.0")).2 ↔
      name ∈ sqlServices.getD [] ∨
        (∃ path ∈ s.leveldb.disk.keys, s.nameOf dir path = some name) ∨
        (dir.opendirOk ∧ ∃ other ∈ dir.others,
          StoreLevelDB.serviceOf s.leveldb.tablePrefix other = some name) := by
  rw [getServices, if_neg (not_not.mpr rfl)]
  simp only [StoreLevelDB.selectServices, nameOf]
  by_cases ok : dir.opendirOk
  · simp only [ok, ↓reduceIte, mem_uniqueStore, List.mem_append, List.mem_filterMap,
      StoreLevelDB.directories, true_and]
    refine or_congr_right ?_
    constructor
    · rintro ⟨directory, ⟨path, there, named⟩ | other, service⟩
      · exact Or.inl ⟨path, there, by rw [named]; exact service⟩
      · exact Or.inr ⟨directory, other, service⟩
    · rintro (⟨path, there, named⟩ | ⟨other, there, service⟩)
      · obtain ⟨directory, entry, service⟩ := Option.bind_eq_some_iff.mp named
        exact ⟨directory, Or.inl ⟨path, there, entry⟩, service⟩
      · exact ⟨other, Or.inr there, service⟩
  · simp [ok, mem_uniqueStore]

/-- A read leaves the services as they are exactly when the directory that it opens,
if any, stands for no service or for one of them. -/
theorem services_unchanged_iff (s : Server) (env : ReadEnv) (dir : StoreLevelDB.StoreDir)
    (sqlServices : Option (List Bytes)) (r : Read) :
    (s.read env r).getServices dir sqlServices (bytes "1.0.0") =
        s.getServices dir sqlServices (bytes "1.0.0") ↔
      ∀ path name, s.opens env r = some path → s.nameOf dir path = some name →
        name ∈ (s.getServices dir sqlServices (bytes "1.0.0")).2 := by
  obtain ⟨tablePrefix, disk⟩ := s.read_disk env r
  have nameOf_read (path : Bytes) : (s.read env r).nameOf dir path = s.nameOf dir path := by
    rw [nameOf, nameOf, tablePrefix]
  have members : ∀ name, name ∈ ((s.read env r).getServices dir sqlServices (bytes "1.0.0")).2 ↔
      (∃ path, s.opens env r = some path ∧ s.nameOf dir path = some name) ∨
        name ∈ (s.getServices dir sqlServices (bytes "1.0.0")).2 := by
    intro name
    rw [mem_getServices, mem_getServices, tablePrefix]
    simp only [nameOf_read, disk]
    constructor
    · rintro (sql | ⟨path, new | old, named⟩ | other)
      · exact Or.inr (Or.inl sql)
      · exact Or.inl ⟨path, new, named⟩
      · exact Or.inr (Or.inr (Or.inl ⟨path, old, named⟩))
      · exact Or.inr (Or.inr (Or.inr other))
    · rintro (⟨path, new, named⟩ | sql | ⟨path, old, named⟩ | other)
      · exact Or.inr (Or.inl ⟨path, Or.inl new, named⟩)
      · exact Or.inl sql
      · exact Or.inr (Or.inl ⟨path, Or.inr old, named⟩)
      · exact Or.inr (Or.inr other)
  have lists (t u : Server) : t.getServices dir sqlServices (bytes "1.0.0") =
      u.getServices dir sqlServices (bytes "1.0.0") ↔
        ∀ name, name ∈ (t.getServices dir sqlServices (bytes "1.0.0")).2 ↔
          name ∈ (u.getServices dir sqlServices (bytes "1.0.0")).2 := by
    constructor
    · intro same name
      rw [same]
    · intro same
      rw [getServices, getServices, if_neg (not_not.mpr rfl), if_neg (not_not.mpr rfl)] at *
      refine Prod.ext rfl (uniqueStore_eq_iff.mpr fun name => ?_)
      have member := same name
      simp only [mem_uniqueStore] at member
      exact member
  rw [lists]
  constructor
  · intro same path name opened named
    exact (same name).mp ((members name).mpr (Or.inl ⟨path, opened, named⟩))
  · intro listed name
    rw [members name]
    constructor
    · rintro (⟨path, opened, named⟩ | old)
      · exact listed path name opened named
      · exact old
    · exact Or.inr

/-- The directories of a file system in which a path lies in `store` when nothing
but a name follows, and nothing else lies there. -/
def plainDir : StoreLevelDB.StoreDir where
  opendirOk := true
  entry path :=
    if bytes "store/" <+: path ∧ 47 ∉ path.drop 6 then some (path.drop 6) else none
  others := []

/-- A query of the metrics of `ghost`, of which nothing was ever reported. -/
theorem read_invents_service :
    let s : Server := ⟨.ofDefault 10, .init (bytes "store") (bytes "t")⟩
    let env : ReadEnv := ⟨EventRepos.allWell 0, ⟨fun _ => ⟨124, 0⟩, 1704067200, true, true⟩,
      fun _ infos => infos, fun _ _ => (-1, .zero), fun _ => none⟩
    (s.getServices plainDir none (bytes "1.0.0")).2 = [] ∧
      ((s.read env (.getMetrics (bytes "1.0.0") (bytes "ghost"))).getServices plainDir none
        (bytes "1.0.0")).2 = [bytes "ghost"] := by
  decide +kernel

end Server

end Heracles.Business
