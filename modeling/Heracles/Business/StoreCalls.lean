import Heracles.Base.DoubleChecked
import Heracles.Business.ServiceNames
import Heracles.Business.StoreFaithful
import Heracles.Business.StoreScan

/-!
The LevelDB store under many threads.

`get_leveldb_handler` looks for an open database without its lock and opens one under
it; what a call does then is done on the database it has got, when others may have
replaced it in the map. `held` are the databases that calls in flight keep open.
LevelDB lets a process open a database once, so an open may be refused.

`calls_linearize`: whatever the threads do, the store answers and holds what it would
if every call that got a database were made at once, one after the other.
`never_locked_out`: while the calls to one service read one month, no open is refused
because the database is open.
-/

namespace Heracles.Business

open Heracles.Base

/-- What is asked of the store. -/
inductive StoreOp where
  | insert (stat : EventInsert)
  | select (cond : EventCond) (stat : EventSelect) (lingerHint : Int64)
  | metrics (service : Bytes)

namespace StoreOp

def service : StoreOp → Bytes
  | insert stat => stat.service
  | select cond _ _ => cond.service
  | metrics service => service

/-- The parameters that are refused before anything is opened. -/
def Refused : StoreOp → Prop
  | insert stat => stat.service = [] ∨ stat.metric = [] ∨ stat.timestamp = 0
  | select cond _ _ => cond.service = []
  | metrics service => service = []

instance decidableRefused : (op : StoreOp) → Decidable op.Refused
  | insert stat => inferInstanceAs (Decidable (stat.service = [] ∨ _))
  | select cond _ _ => inferInstanceAs (Decidable (cond.service = []))
  | metrics service => inferInstanceAs (Decidable (service = []))

/-- A nameless service is always refused. -/
theorem service_ne_nil {op : StoreOp} (accepted : ¬op.Refused) : op.service ≠ [] := by
  intro anonymous
  apply accepted
  cases op with
  | insert stat => exact Or.inl anonymous
  | select cond stat lingerHint => exact anonymous
  | metrics service => exact anonymous

end StoreOp

/-- A call, with what the environment decides about it. -/
structure StoreCall where
  env : LeveldbEnv
  op : StoreOp

/-- The call where its database can be opened. -/
def StoreCall.settled (call : StoreCall) : StoreCall :=
  { call with env := { call.env with openOk := true } }

inductive StoreAnswer where
  | inserted (ret : Int32)
  | selected (ret : Int32) (stat : EventSelect)
  | metrics (ret : Int32) (metrics : List Bytes)
  deriving DecidableEq

namespace StoreLevelDB

variable (stdSort : (EventInfo → EventInfo → Bool) → List EventInfo → List EventInfo)

/-- `insert_ev_stat`, `select_ev_stat` and `select_metrics`, each at once. -/
def perform (call : StoreCall) (s : StoreLevelDB) : StoreAnswer × StoreLevelDB :=
  match call.op with
  | .insert stat =>
      let (ret, s) := s.insertEvStat call.env stat
      (.inserted ret, s)
  | .select cond stat lingerHint =>
      let (ret, stat, s) := s.selectEvStat stdSort call.env cond stat lingerHint
      (.selected ret stat, s)
  | .metrics service =>
      let (ret, metrics, s) := s.selectMetrics call.env service
      (.metrics ret metrics, s)

/-- What a select makes of the database. -/
def selectOn (db : Database) (now lingerHint : Int64) (cond : EventCond) (stat : EventSelect) :
    EventSelect :=
  let stat := prepare now lingerHint cond stat
  let entries := scan db cond stat
  match cond.groupby with
  | .none => foldByNone (entries.map fun entry => itemOf entry.2) stat
  | .byTimestamp =>
      let stat := foldByTimestamp (entries.map itemByTimestamp) stat
      { stat with info := orderInfo stdSort cond stat.info }
  | .byTag =>
      let stat := foldByTag (entries.map itemByTag) stat
      { stat with info := orderInfo stdSort cond stat.info }

/-- What a call does on the database it has got. -/
def useHandler (call : StoreCall) (path : Bytes) (s : StoreLevelDB) : StoreAnswer × StoreLevelDB :=
  match call.op with
  | .insert stat =>
      if call.env.putOk then
        (.inserted 0, s.put path (cstrKey stat) (layout stat).toBytes)
      else (.inserted (-1), s)
  | .select cond stat lingerHint =>
      (.selected 0 (selectOn stdSort (s.content path) call.env.now lingerHint cond stat), s)
  | .metrics _ => (.metrics 0 (uniqueStore (metricsLoop none (s.content path).entries)), s)

variable {stdSort}

/-- A call at once gets a database and uses it. -/
theorem perform_eq {call : StoreCall} {s t : StoreLevelDB} {path : Bytes}
    (accepted : ¬call.op.Refused)
    (got : s.getLeveldbHandler call.env call.op.service = (some path, t)) :
    s.perform stdSort call = t.useHandler stdSort call path := by
  obtain ⟨env, op⟩ := call
  rw [perform, useHandler]
  cases op with
  | insert stat =>
      have accepted : ¬(stat.service = [] ∨ stat.metric = [] ∨ stat.timestamp = 0) := accepted
      have got : s.getLeveldbHandler env stat.service = (some path, t) := got
      simp only [insertEvStat, if_neg accepted, got]
      split
      · rfl
      · rfl
  | select cond stat lingerHint =>
      have accepted : ¬cond.service = [] := accepted
      have got : s.getLeveldbHandler env cond.service = (some path, t) := got
      simp only [selectEvStat, selectOn, if_neg accepted]
      cases cond.groupby with
      | none => simp only [selectEvStatByNone, selectWith, got]
      | byTimestamp => simp only [selectEvStatByTimestamp, selectWith, got]
      | byTag => simp only [selectEvStatByTag, selectWith, got]
  | metrics service =>
      have accepted : ¬service = [] := accepted
      have got : s.getLeveldbHandler env service = (some path, t) := got
      simp only [selectMetrics, if_neg accepted, got]

variable (stdSort)

theorem SameContent.trans {s t u : StoreLevelDB} (first : SameContent s t)
    (second : SameContent t u) : SameContent s u where
  filepath := second.filepath.trans first.filepath
  tablePrefix := second.tablePrefix.trans first.tablePrefix
  content := fun path => (second.content path).trans (first.content path)
  named := second.named

/-- Stores of the same content give the same answers, and keep it. -/
theorem SameContent.useHandler {s t : StoreLevelDB} (same : SameContent s t) (call : StoreCall)
    (path : Bytes) :
    (t.useHandler stdSort call path).1 = (s.useHandler stdSort call path).1 ∧
      SameContent (s.useHandler stdSort call path).2 (t.useHandler stdSort call path).2 := by
  obtain ⟨env, op⟩ := call
  rw [StoreLevelDB.useHandler, StoreLevelDB.useHandler]
  cases op with
  | insert stat =>
      cases env.putOk with
      | false =>
          simp only
          exact ⟨rfl, same⟩
      | true =>
          simp only
          refine ⟨rfl, same.filepath, same.tablePrefix, ?_, same.named⟩
          intro other
          simp only [if_true, content_put, same.content]
  | select cond stat lingerHint =>
      simp only [same.content]
      exact ⟨trivial, same⟩
  | metrics service =>
      simp only [same.content]
      exact ⟨trivial, same⟩

/-- Using a database opens nothing and closes nothing. -/
theorem useHandler_handlers (s : StoreLevelDB) (call : StoreCall) (path : Bytes) :
    SameHandlers s (s.useHandler stdSort call path).2 := by
  rw [useHandler]
  cases call.op with
  | insert stat =>
      simp only
      split
      · exact ⟨rfl, rfl, rfl⟩
      · exact ⟨rfl, rfl, rfl⟩
  | select cond stat lingerHint => exact ⟨rfl, rfl, rfl⟩
  | metrics service => exact ⟨rfl, rfl, rfl⟩

theorem SameHandlers.named {s t : StoreLevelDB} (same : SameHandlers s t)
    (named : s.HandlersNamed) : t.HandlersNamed := by
  intro service held found
  rw [same.levelDBs] at found
  rw [named service held found, fullpath, fullpath, same.filepath, same.tablePrefix]

end StoreLevelDB

/-! ### Threads -/

/-- The store with the databases that calls in flight keep open. -/
structure OpenedStore where
  store : StoreLevelDB
  held : List Bytes

namespace OpenedStore

open StoreLevelDB

/-- The database in this directory is open in the process. -/
def IsOpen (s : OpenedStore) (path : Bytes) : Prop :=
  path ∈ s.held ∨ ∃ entry ∈ s.store.levelDBs.entries, entry.2.handler = path

instance (s : OpenedStore) (path : Bytes) : Decidable (s.IsOpen path) :=
  inferInstanceAs (Decidable (_ ∨ _))

/-- The open of a call, which is refused for a database that is open. -/
def openEnv (s : OpenedStore) (call : StoreCall) : LeveldbEnv :=
  { call.env with
    openOk := call.env.openOk &&
      !decide (s.IsOpen (s.store.fullpath call.op.service call.env.month)) }

/-- The look into the map. -/
def findHandler (s : OpenedStore) (call : StoreCall) : Option (Bytes × OpenedStore) :=
  match s.store.levelDBs.find? call.op.service with
  | some found =>
      if call.env.month = found.currentSuffix then
        some (found.handler, { s with held := found.handler :: s.held })
      else none
  | none => none

/-- The open, and the new entry of the map. -/
def openHandler (s : OpenedStore) (call : StoreCall) : Option Bytes × OpenedStore :=
  match s.store.createHandler (s.openEnv call) call.op.service call.env.month with
  | (some path, store) => (some path, ⟨store, path :: s.held⟩)
  | (none, store) => (none, { s with store := store })

/-- The table of handlers: the look of `get_leveldb_handler`, its section under the lock,
and the rest of the call. -/
def handlers (stdSort : (EventInfo → EventInfo → Bool) → List EventInfo → List EventInfo) :
    SharedTable OpenedStore StoreCall Bytes StoreAnswer where
  look call s := if call.op.Refused then none else s.findHandler call
  make call s := if call.op.Refused then (none, s) else s.openHandler call
  use call path s :=
    let (answer, store) := s.store.useHandler stdSort call path
    (answer, ⟨store, s.held.erase path⟩)

/-- The store without threads; a call that got its database opens it, if need be. -/
def oneByOne (stdSort : (EventInfo → EventInfo → Bool) → List EventInfo → List EventInfo) :
    SharedTable.Sequential StoreLevelDB StoreCall StoreAnswer Empty where
  touch _ s := s
  perform call s := s.perform stdSort call.settled
  act o := o.elim

section Linearizes

variable (stdSort : (EventInfo → EventInfo → Bool) → List EventInfo → List EventInfo)

/-- The same content, whatever is open. -/
structure Shows (s : OpenedStore) (u : StoreLevelDB) : Prop where
  named : s.store.HandlersNamed
  same : SameContent s.store u

/-- The database a call has got is the one of its service and month. -/
def Ready (call : StoreCall) (path : Bytes) (s : OpenedStore) : Prop :=
  ¬call.op.Refused ∧ path = s.store.fullpath call.op.service call.env.month

theorem Ready.same {call : StoreCall} {path : Bytes} {s t : OpenedStore} (ready : Ready call path s)
    (filepath : t.store.filepath = s.store.filepath)
    (tablePrefix : t.store.tablePrefix = s.store.tablePrefix) : Ready call path t := by
  refine ⟨ready.1, ?_⟩
  rw [ready.2, fullpath, fullpath, filepath, tablePrefix]

theorem findHandler_some {s t : OpenedStore} {call : StoreCall} {path : Bytes}
    (named : s.store.HandlersNamed) (found : s.findHandler call = some (path, t)) :
    t = { s with held := path :: s.held } ∧
      path = s.store.fullpath call.op.service call.env.month := by
  rw [findHandler] at found
  split at found
  · next entry there =>
      split at found
      · next month =>
          cases found
          refine ⟨rfl, ?_⟩
          rw [named _ _ there, month]
      · cases found
  · cases found

theorem openHandler_cases {s : OpenedStore} (named : s.store.HandlersNamed) (call : StoreCall) :
    s.openHandler call = (none, s) ∨
      ∃ store, s.openHandler call = (some (s.store.fullpath call.op.service call.env.month),
        ⟨store, s.store.fullpath call.op.service call.env.month :: s.held⟩) ∧
        SameContent s.store store := by
  rw [openHandler]
  rcases createHandler_cases named (s.openEnv call) call.op.service call.env.month with
    ⟨failed, _⟩ | ⟨store, made, same⟩
  · rw [failed]
    exact Or.inl rfl
  · rw [made]
    exact Or.inr ⟨store, rfl, same⟩

/-- Getting a database leaves the content, and gets the one asked for. -/
theorem get_handlers {s : OpenedStore} (named : s.store.HandlersNamed) (call : StoreCall) :
    SameContent s.store ((handlers stdSort).get call s).2.store ∧
      ∀ path, ((handlers stdSort).get call s).1 = some path → Ready call path s := by
  have unchanged : SameContent s.store s.store := ⟨rfl, rfl, fun _ => rfl, named⟩
  rw [SharedTable.get, handlers]
  by_cases refused : call.op.Refused
  · simp only [if_pos refused]
    refine ⟨unchanged, ?_⟩
    intro path got
    cases got
  · simp only [if_neg refused]
    split
    · next path t found =>
        obtain ⟨rfl, named⟩ := findHandler_some named found
        refine ⟨unchanged, ?_⟩
        intro path' got
        cases got
        exact ⟨refused, named⟩
    · rcases openHandler_cases named call with failed | ⟨store, made, same⟩
      · rw [failed]
        refine ⟨unchanged, ?_⟩
        intro path got
        cases got
      · rw [made]
        refine ⟨same, ?_⟩
        intro path got
        cases got
        exact ⟨refused, rfl⟩

/-- The threads do what calls do one after the other. -/
theorem linearizes : SharedTable.Linearizes (handlers stdSort) (fun o : Empty => o.elim)
    (oneByOne stdSort) Shows Ready where
  get := by
    intro s u call shows
    obtain ⟨same, _⟩ := get_handlers stdSort shows.named call
    refine ⟨same.named, shows.same.filepath.trans same.filepath.symm,
      shows.same.tablePrefix.trans same.tablePrefix.symm, ?_, shows.same.named⟩
    intro path
    exact (shows.same.content path).trans (same.content path).symm
  use := by
    intro s u call path shows ready
    obtain ⟨accepted, named⟩ := ready
    rcases getLeveldbHandler_cases shows.same.named call.settled.env call.op.service with
      ⟨_, anonymous | closed⟩ | ⟨t, got, _, opened⟩
    · exact absurd anonymous (StoreOp.service_ne_nil accepted)
    · cases closed
    · have month : call.settled.env.month = call.env.month := rfl
      rw [month, shows.same.fullpath, ← named] at got
      have performed : u.perform stdSort call.settled =
          t.useHandler stdSort call.settled path := perform_eq accepted got
      obtain ⟨answer, after⟩ := (shows.same.trans opened).useHandler stdSort call.settled
        path
      change (u.perform stdSort call.settled).1 = _ ∧ Shows _ (u.perform stdSort call.settled).2
      rw [performed]
      exact ⟨answer, (s.store.useHandler_handlers stdSort call path).named shows.named, after⟩
  other := fun o => o.elim
  ready_got := by
    intro s u call path shows got
    obtain ⟨same, ready⟩ := get_handlers stdSort shows.named call
    exact (ready path got).same same.filepath same.tablePrefix
  ready_get := by
    intro s u call path call' shows ready
    obtain ⟨same, _⟩ := get_handlers stdSort shows.named call'
    exact ready.same same.filepath same.tablePrefix
  ready_use := by
    intro s u call path call' path' shows ready _
    have kept := s.store.useHandler_handlers stdSort call' path'
    exact ready.same kept.filepath kept.tablePrefix
  ready_other := fun o => o.elim

end Linearizes

/-! ### Every interleaving -/

section Runs

variable (stdSort : (EventInfo → EventInfo → Bool) → List EventInfo → List EventInfo)

/-- What threads can do: call, and go on with a call. -/
abbrev ThreadAction := SharedTable.Action StoreCall Empty

/-- A store without calls. -/
def uncalled (store : StoreLevelDB) : SharedTable.Callers OpenedStore StoreCall Bytes StoreAnswer :=
  ⟨⟨store, []⟩, []⟩

def threadStep :
    SharedTable.Callers OpenedStore StoreCall Bytes StoreAnswer → ThreadAction →
      SharedTable.Callers OpenedStore StoreCall Bytes StoreAnswer :=
  (handlers stdSort).step fun o : Empty => o.elim

/-- What the calls of a run do, in the order in which they use their databases. -/
def history (store : StoreLevelDB) (actions : List ThreadAction) :
    List (SharedTable.Event StoreCall StoreAnswer Empty) :=
  movesOf (threadStep stdSort) (handlers stdSort).events (uncalled store) actions

variable (services : Set Bytes) (month : Bytes → Bytes)

/-- Every service that is asked for has its month's database, alone, and a database that is
held is in the map. -/
structure Steady (s : OpenedStore) : Prop where
  distinct : Set.InjOn (fun service => s.store.fullpath service (month service)) services
  kept : ∀ service found, s.store.levelDBs.find? service = some found →
    service ∈ services ∧ found = ⟨month service, s.store.fullpath service (month service)⟩
  holding : ∀ path ∈ s.held, ∃ service found,
    s.store.levelDBs.find? service = some found ∧ found.handler = path

variable {services month} {s : OpenedStore}

/-- The database of a service that is not in the map is not open. -/
theorem Steady.not_open (steady : Steady services month s) {service : Bytes}
    (known : service ∈ services) (absent : s.store.levelDBs.find? service = none) :
    ¬s.IsOpen (s.store.fullpath service (month service)) := by
  have elsewhere : ∀ other found, s.store.levelDBs.find? other = some found →
      found.handler ≠ s.store.fullpath service (month service) := by
    intro other found there clash
    obtain ⟨inside, rfl⟩ := steady.kept other found there
    have same : other = service := steady.distinct inside known clash
    rw [same, absent] at there
    cases there
  rintro (held | ⟨⟨other, found⟩, inside, clash⟩)
  · obtain ⟨other, found, there, clash⟩ := steady.holding _ held
    exact elsewhere other found there clash
  · exact elsewhere other found (OrdMap.mem_entries_iff.mp inside) clash

/-- Getting a database keeps the map so, and fails only for the parameters or in LevelDB. -/
theorem Steady.get (steady : Steady services month s) {call : StoreCall}
    (known : call.op.service ∈ services) (reads : call.env.month = month call.op.service) :
    Steady services month ((handlers stdSort).get call s).2 ∧
      (((handlers stdSort).get call s).1 = none → call.op.Refused ∨ call.env.openOk = false) := by
  rw [SharedTable.get, handlers]
  by_cases refused : call.op.Refused
  · simp only [if_pos refused]
    exact ⟨steady, fun _ => Or.inl refused⟩
  · simp only [if_neg refused, findHandler]
    cases there : s.store.levelDBs.find? call.op.service with
    | some found =>
        obtain ⟨_, rfl⟩ := steady.kept _ _ there
        simp only [if_pos reads]
        refine ⟨⟨steady.distinct, steady.kept, ?_⟩, fun failed => by cases failed⟩
        intro path held
        rcases List.mem_cons.mp held with rfl | before
        · exact ⟨_, _, there, rfl⟩
        · exact steady.holding path before
    | none =>
        have free := steady.not_open known there
        rw [← reads] at free
        simp only [openHandler, createHandler, openEnv, decide_eq_false free, Bool.not_false,
          Bool.and_true]
        cases openOk : call.env.openOk with
        | false => exact ⟨steady, fun _ => Or.inr rfl⟩
        | true =>
            refine ⟨⟨steady.distinct, ?_, ?_⟩, fun failed => by cases failed⟩
            · intro service found inserted
              simp only [if_true, OrdMap.find?_insert] at inserted
              split at inserted
              · next same =>
                  rw [← Option.some.inj inserted, same, ← reads]
                  exact ⟨known, rfl⟩
              · exact steady.kept service found inserted
            · intro path held
              simp only [if_true, OrdMap.find?_insert]
              rcases List.mem_cons.mp held with rfl | before
              · exact ⟨call.op.service, _, if_pos rfl, rfl⟩
              · obtain ⟨service, found, inside, same⟩ := steady.holding path before
                refine ⟨service, found, ?_, same⟩
                rw [if_neg, inside]
                rintro rfl
                rw [there] at inside
                cases inside

theorem Steady.use (steady : Steady services month s) (call : StoreCall) (path : Bytes) :
    Steady services month ((handlers stdSort).use call path s).2 := by
  have kept := s.store.useHandler_handlers stdSort call path
  have same : ∀ service suffix, (s.store.useHandler stdSort call path).2.fullpath service suffix =
      s.store.fullpath service suffix := by
    intro service suffix
    rw [fullpath, fullpath, kept.filepath, kept.tablePrefix]
  constructor
  · intro a inside b known clash
    apply steady.distinct inside known
    simp only [handlers, same] at clash
    exact clash
  · intro service found there
    simp only [handlers, kept.levelDBs] at there
    simp only [handlers, same]
    exact steady.kept service found there
  · intro path' held
    simp only [handlers, kept.levelDBs]
    exact steady.holding path' (List.mem_of_mem_erase held)

/-- The calls that a run is about: each reads the month of its service. -/
def Reads (services : Set Bytes) (month : Bytes → Bytes) : ThreadAction → Prop
  | .call call => call.op.service ∈ services ∧ call.env.month = month call.op.service
  | _ => True

/-- Where the calls are while nothing is locked out. -/
structure Unlocked (services : Set Bytes) (month : Bytes → Bytes)
    (c : SharedTable.Callers OpenedStore StoreCall Bytes StoreAnswer) : Prop where
  steady : Steady services month c.shared
  reads : ∀ p ∈ c.calls, p.1.op.service ∈ services ∧ p.1.env.month = month p.1.op.service
  failed : ∀ p ∈ c.calls, p.2 = .returned none → p.1.op.Refused ∨ p.1.env.openOk = false

/-- One call goes on. -/
theorem Unlocked.set {c : SharedTable.Callers OpenedStore StoreCall Bytes StoreAnswer}
    (unlocked : Unlocked services month c) {shared : OpenedStore}
    (steady : Steady services month shared) {i : Nat} {call : StoreCall}
    {before : SharedTable.Stage Bytes StoreAnswer} (there : c.calls[i]? = some (call, before))
    {after : SharedTable.Stage Bytes StoreAnswer}
    (failed : after = .returned none → call.op.Refused ∨ call.env.openOk = false) :
    Unlocked services month ⟨shared, c.calls.set i (call, after)⟩ := by
  refine ⟨steady, ?_, ?_⟩
  · intro p inside
    rcases List.mem_or_eq_of_mem_set inside with old | rfl
    · exact unlocked.reads p old
    · exact unlocked.reads (call, before) (List.mem_of_getElem? there)
  · intro p inside
    rcases List.mem_or_eq_of_mem_set inside with old | rfl
    · exact unlocked.failed p old
    · exact failed

theorem Unlocked.got {c : SharedTable.Callers OpenedStore StoreCall Bytes StoreAnswer}
    (unlocked : Unlocked services month c) {i : Nat} {call : StoreCall}
    {before : SharedTable.Stage Bytes StoreAnswer} (there : c.calls[i]? = some (call, before)) :
    Unlocked services month ⟨((handlers stdSort).get call c.shared).2,
      c.calls.set i (call, .ofGot ((handlers stdSort).get call c.shared).1)⟩ := by
  obtain ⟨known, reads⟩ := unlocked.reads _ (List.mem_of_getElem? there)
  obtain ⟨steady, failed⟩ := unlocked.steady.get stdSort known reads
  apply unlocked.set steady there
  cases got : ((handlers stdSort).get call c.shared).1 with
  | none => exact fun _ => failed got
  | some path => exact fun returned => by cases returned

theorem Unlocked.step {c : SharedTable.Callers OpenedStore StoreCall Bytes StoreAnswer}
    (unlocked : Unlocked services month c) {a : ThreadAction} (reads : Reads services month a) :
    Unlocked services month (threadStep stdSort c a) := by
  cases a with
  | call call =>
      refine ⟨unlocked.steady, ?_, ?_⟩
      · intro p inside
        rcases List.mem_append.mp inside with old | new
        · exact unlocked.reads p old
        · obtain rfl := List.mem_singleton.mp new
          exact reads
      · intro p inside
        rcases List.mem_append.mp inside with old | new
        · exact unlocked.failed p old
        · obtain rfl := List.mem_singleton.mp new
          exact fun returned => by cases returned
  | look i =>
      simp only [threadStep, SharedTable.step]
      split
      · next call there =>
          have got := unlocked.got stdSort there
          cases found : (handlers stdSort).look call c.shared with
          | none =>
              exact unlocked.set unlocked.steady there fun returned => by cases returned
          | some got' =>
              rw [SharedTable.get, found] at got
              exact got
      · exact unlocked
  | fill i =>
      simp only [threadStep, SharedTable.step]
      split
      · next call there => exact unlocked.got stdSort there
      · exact unlocked
  | use i =>
      simp only [threadStep, SharedTable.step]
      split
      · next call path there =>
          exact unlocked.set (unlocked.steady.use stdSort call path) there
            fun returned => by cases returned
      · exact unlocked
  | other o => exact o.elim

/-- While the calls to a service read one month, in every interleaving: a call that gets no
database had its parameters refused, or failed to open it in LevelDB; it never finds it open. -/
theorem never_locked_out (filepath tablePrefix : Bytes) (disk : OrdMap Bytes Database)
    (distinct : Set.InjOn (fun service =>
      StoreLevelDB.fullpath ⟨filepath, tablePrefix, .empty, disk⟩ service (month service)) services)
    (actions : List ThreadAction) (reads : ∀ a ∈ actions, Reads services month a) :
    ∀ p ∈ (run (threadStep stdSort) (uncalled ⟨filepath, tablePrefix, .empty, disk⟩) actions).calls,
      p.2 = .returned none → p.1.op.Refused ∨ p.1.env.openOk = false := by
  have start : Unlocked services month (uncalled ⟨filepath, tablePrefix, .empty, disk⟩) := by
    refine ⟨⟨distinct, ?_, ?_⟩, ?_, ?_⟩
    · intro service found there
      cases there
    · intro path held
      cases held
    · intro p inside
      cases inside
    · intro p inside
      cases inside
  have along : Along (threadStep stdSort) (fun _ => Reads services month)
      (uncalled ⟨filepath, tablePrefix, .empty, disk⟩) actions := along_of_forall reads _
  exact (along.invariant (fun c a unlocked reads => unlocked.step stdSort reads) start).failed

end Runs

/-! Calls of one service: two at once, and three at the turn of a month. -/

private def readAt (now : Int64) : LeveldbEnv :=
  ⟨fun time => if time < 1551398400 then ⟨119, 1⟩ else ⟨119, 2⟩, now, true, true⟩

private def insertAt (now : Int64) (count : Int32) : StoreCall where
  env := readAt now
  op := .insert ⟨bytes "svc", [], 1551390000, 10, bytes "m", bytes "T", count, 15, 5, 4, 6, 4, 5, 6⟩

private def atOnce : List ThreadAction :=
  [.call (insertAt 1551390010 1), .call (insertAt 1551390011 2), .look 0, .look 1, .fill 0, .fill 1,
    .use 1, .use 0]

/-- Both miss, one opens the database, and both insert. -/
theorem never_locked_out_two :
    let threads := run (threadStep fun _ lines => lines)
      (uncalled ⟨bytes "store", bytes "t", .empty, .empty⟩) atOnce
    (SharedTable.results threads.calls).map Prod.snd = [.inserted 0, .inserted 0] ∧
      ∀ p ∈ threads.calls, p.2 = .returned none → p.1.op.Refused ∨ p.1.env.openOk = false := by
  refine ⟨by decide +kernel, ?_⟩
  refine @never_locked_out _ {bytes "svc"} (fun _ => bytes "201902") _ _ _ ?_ _ ?_
  · exact Set.injOn_singleton _ _
  · intro a inside
    simp only [atOnce, List.mem_cons, List.not_mem_nil, or_false] at inside
    rcases inside with rfl | rfl | rfl | rfl | rfl | rfl | rfl | rfl
    · exact ⟨rfl, by decide +kernel⟩
    · exact ⟨rfl, by decide +kernel⟩
    · trivial
    · trivial
    · trivial
    · trivial
    · trivial
    · trivial

/-- A call of the new month replaces the database that another call still holds, and a call
that has read the old month cannot open it. -/
example :
    (run (threadStep fun _ lines => lines) (uncalled ⟨bytes "store", bytes "t", .empty, .empty⟩)
      [.call (insertAt 1551390000 1), .look 0, .fill 0, .call (insertAt 1551398399 2),
        .call (insertAt 1551398400 3), .look 2, .fill 2, .look 1, .fill 1]).calls.map Prod.snd =
      [.got (bytes "store/t__svc__events_201902"), .returned none,
        .got (bytes "store/t__svc__events_201903")] := by
  decide +kernel

end OpenedStore

end Heracles.Business
