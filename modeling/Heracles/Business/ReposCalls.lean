import Heracles.Base.DoubleChecked
import Heracles.Business.Conservation
import Heracles.Business.EventRepos

/-!
The repository of handlers under many threads.

`find_create_event_handler` looks for a handler, and looks again under the lock before it
makes one; what a call does then is done on the object that it has got a pointer to. All
the while the configuration is reloaded, and the timer and the thread of every handler
move its slots. `SharedRepos` has the handlers as objects, and the map as pointers to them.

`requests_linearize`: whatever the threads do, the repository is the one of `EventRepos`,
and answers as it does, when the calls that got a handler are made at once, one after the
other. `one_object_each`: a service and an entity never get two handlers.
`reports_conserved`: the events that a service has reported with success are in the slots
of its handlers, or were taken by their threads, each as often as it was reported.
-/

namespace Heracles.Business

open Heracles.Base Heracles.Utils

/-! ### What happens to a handler apart from calls -/

/-- A new configuration, the linger timer, and a pop of the handler's thread. -/
inductive HandlerMove where
  | updateRuntimeConf (cfg : Config)
  | lingerCheckRun (now : Int64)
  | pop (maxCount : Nat)

/-- The slots that are popped, and the handler after it. -/
def Handler.move (h : Handler) : HandlerMove → List EventsByTime × Handler
  | .updateRuntimeConf cfg => ([], h.updateRuntimeConf cfg)
  | .lingerCheckRun now =>
      ([], { h with toEventHandler := (h.toEventHandler.lingerCheckRun now).2 })
  | .pop maxCount =>
      let (popped, rest) := EQueue.popMany maxCount h.processQueue
      (popped, { h with processQueue := rest })

@[simp] theorem Handler.pair_move (h : Handler) (m : HandlerMove) : (h.move m).2.pair = h.pair := by
  cases m with
  | updateRuntimeConf cfg => rfl
  | lingerCheckRun now => rfl
  | pop maxCount => rfl

/-- What happens to the repository apart from calls: `ConfHelper` has loaded a configuration,
`module_runtime` updates the defaults, or a handler moves. -/
inductive ReposMove where
  | loaded (cfg : Config)
  | updateDefault (cfg : Config)
  | handler (identity : Bytes) (m : HandlerMove)

/-- The defaults as `module_runtime` updates them. -/
def HandlerConf.updateDefault (conf : HandlerConf) (cfg : Config) : HandlerConf :=
  { conf with
    toEventHandlerConf := conf.toEventHandlerConf.updateRuntimeConf cfg (bytes "[default]") }

/-- A request, with what an initialisation finds that it makes. -/
structure ReposCall where
  request : EventRepos.Request
  env : InitEnv

namespace ReposCall

def identity (call : ReposCall) : Bytes := call.request.identity

end ReposCall

inductive ReposAnswer where
  | added (ret : Int32)
  | selected (ret : Int32) (stat : EventSelect)
  deriving DecidableEq

/-! ### One call after the other -/

/-- The repository at work. `taken` are the slots that were popped, each with the service and
the entity it is processed for; `stores` is the state of the stores. -/
structure ReposAtWork (σ : Type) where
  repos : EventRepos
  taken : List ((Bytes × Bytes) × EventsByTime)
  stores : σ

namespace ReposAtWork

variable {σ : Type}

/-- A call looks for its handler, and makes one if there is none. -/
def touch (call : ReposCall) (u : ReposAtWork σ) : ReposAtWork σ :=
  if call.request.Valid then
    { u with repos := (u.repos.findCreateEventHandler call.env call.request.service
        call.request.entityIdx).2 }
  else u

/-- `add_event` and `get_event`, each at once. -/
def perform (select : Handler → EventCond → σ → Int32 × EventSelect × σ) (call : ReposCall)
    (u : ReposAtWork σ) : ReposAnswer × ReposAtWork σ :=
  match call.request with
  | .addEvent now version evs =>
      let (ret, repos) := u.repos.addEvent call.env now version evs
      (.added ret, { u with repos := repos })
  | .getEvent version cond =>
      let (ret, stat, repos, stores) := u.repos.getEvent call.env select version cond u.stores
      (.selected ret stat, { u with repos := repos, stores := stores })

def act (u : ReposAtWork σ) : ReposMove → ReposAtWork σ
  | .loaded cfg => { u with repos := { u.repos with conf := cfg } }
  | .updateDefault cfg =>
      { u with
        repos := { u.repos with
          defaultHandlerConf := u.repos.defaultHandlerConf.updateDefault cfg } }
  | .handler identity m =>
      match u.repos.handlers.find? identity with
      | some h =>
          let (popped, h) := h.move m
          { u with
            repos := { u.repos with handlers := u.repos.handlers.insert identity h }
            taken := u.taken ++ popped.map fun slot => (h.pair, slot) }
      | none => u

/-- `module_runtime` is an update of the defaults and of every handler. -/
def moduleRuntime (u : ReposAtWork σ) (cfg : Config) : List ReposMove :=
  .updateDefault cfg :: u.repos.handlers.keys.map fun k => .handler k (.updateRuntimeConf cfg)

/-- An update of one handler. -/
theorem act_update (u : ReposAtWork σ) (cfg : Config) (k : Bytes) :
    ∃ handlers, u.act (.handler k (.updateRuntimeConf cfg)) =
        { u with repos := { u.repos with handlers := handlers } } ∧
      ∀ key, handlers.find? key =
        if key = k then (u.repos.handlers.find? key).map fun h => h.updateRuntimeConf cfg
        else u.repos.handlers.find? key := by
  rw [act]
  cases there : u.repos.handlers.find? k with
  | none =>
      refine ⟨u.repos.handlers, rfl, ?_⟩
      intro key
      split
      · next same =>
          rw [same, there]
          rfl
      · rfl
  | some h =>
      refine ⟨u.repos.handlers.insert k (h.updateRuntimeConf cfg), ?_, ?_⟩
      · simp only [Handler.move, List.map_nil, List.append_nil]
      · intro key
        rw [OrdMap.find?_insert]
        split
        · next same =>
            rw [same, there]
            rfl
        · rfl

theorem run_updates (cfg : Config) {ks : List Bytes} (distinct : ks.Nodup) (u : ReposAtWork σ) :
    ∃ handlers, run act u (ks.map fun k => .handler k (.updateRuntimeConf cfg)) =
        { u with repos := { u.repos with handlers := handlers } } ∧
      ∀ key, handlers.find? key =
        if key ∈ ks then (u.repos.handlers.find? key).map fun h => h.updateRuntimeConf cfg
        else u.repos.handlers.find? key := by
  induction ks generalizing u with
  | nil => exact ⟨u.repos.handlers, rfl, fun _ => rfl⟩
  | cons k ks ih =>
      obtain ⟨fresh, distinct⟩ := List.nodup_cons.mp distinct
      obtain ⟨first, updated, here⟩ := act_update u cfg k
      obtain ⟨handlers, whole, rest⟩ := ih distinct
        { u with repos := { u.repos with handlers := first } }
      refine ⟨handlers, ?_, ?_⟩
      · rw [List.map_cons, run_cons, updated, whole]
      · intro key
        rw [rest, here]
        by_cases same : key = k
        · subst same
          rw [if_neg fresh, if_pos rfl, if_pos List.mem_cons_self]
        · rw [if_neg same]
          simp only [List.mem_cons, same, false_or]

/-- These moves, with nothing in between, are what `EventRepos` makes of a configuration. -/
theorem run_moduleRuntime (u : ReposAtWork σ) (cfg : Config) :
    run act u (.loaded cfg :: u.moduleRuntime cfg) =
      { u with repos := u.repos.moduleRuntime cfg } := by
  obtain ⟨handlers, whole, rest⟩ := run_updates cfg u.repos.handlers.keys_nodup
    ((u.act (.loaded cfg)).act (.updateDefault cfg))
  have same : handlers = u.repos.handlers.mapVal fun h => h.updateRuntimeConf cfg := by
    apply OrdMap.ext_find?
    intro key
    rw [rest, OrdMap.find?_mapVal]
    split
    · rfl
    · next absent =>
        change u.repos.handlers.find? key = _
        rw [OrdMap.find?_eq_none_iff.mpr absent]
        rfl
  rw [run_cons, moduleRuntime, run_cons, whole, same]
  rfl

def oneByOne (select : Handler → EventCond → σ → Int32 × EventSelect × σ) :
    SharedTable.Sequential (ReposAtWork σ) ReposCall ReposAnswer ReposMove where
  touch := touch
  perform := perform select
  act m u := u.act m

end ReposAtWork

/-! ### Pointers -/

/-- The repository that threads share: `handlers` gives the number of an object. -/
structure SharedRepos (σ : Type) where
  conf : Config
  defaultHandlerConf : HandlerConf
  handlers : OrdMap Bytes Nat
  objects : List Handler
  taken : List ((Bytes × Bytes) × EventsByTime)
  stores : σ

namespace SharedRepos

variable {σ : Type}

/-- The look into the map. -/
def findEventHandler (s : SharedRepos σ) (call : ReposCall) : Option (Nat × SharedRepos σ) :=
  if call.request.Valid then (s.handlers.find? call.identity).map fun i => (i, s) else none

/-- A new object, and its entry in the map. -/
def createEventHandler (s : SharedRepos σ) (call : ReposCall) : Option Nat × SharedRepos σ :=
  if call.request.Valid then
    match Handler.init s.defaultHandlerConf s.conf call.env call.request.service
        call.request.entityIdx with
    | some h =>
        (some s.objects.length,
          { s with
            handlers := s.handlers.insert call.identity s.objects.length
            objects := s.objects ++ [h] })
    | none => (none, s)
  else (none, s)

/-- The rest of the call, on its object. -/
def useObject (select : Handler → EventCond → σ → Int32 × EventSelect × σ) (call : ReposCall)
    (i : Nat) (s : SharedRepos σ) : ReposAnswer × SharedRepos σ :=
  match s.objects[i]?, call.request with
  | some h, .addEvent now _ evs =>
      let (ret, h) := h.addEvent now evs
      (.added ret, { s with objects := s.objects.set i h })
  | some h, .getEvent _ cond =>
      let (ret, stat, stores) := select h cond s.stores
      (.selected ret stat, { s with stores := stores })
  -- a pointer has an object
  | none, _ => (.added (-1), s)

def act (s : SharedRepos σ) : ReposMove → SharedRepos σ
  | .loaded cfg => { s with conf := cfg }
  | .updateDefault cfg =>
      { s with defaultHandlerConf := s.defaultHandlerConf.updateDefault cfg }
  | .handler identity m =>
      match s.handlers.find? identity with
      | some i =>
          match s.objects[i]? with
          | some h =>
              let (popped, h) := h.move m
              { s with
                objects := s.objects.set i h
                taken := s.taken ++ popped.map fun slot => (h.pair, slot) }
          | none => s
      | none => s

/-- The calls: the look of `find_create_event_handler`, its section under the lock, and what
follows. -/
def calls (select : Handler → EventCond → σ → Int32 × EventSelect × σ) :
    SharedTable (SharedRepos σ) ReposCall Nat ReposAnswer where
  look call s := s.findEventHandler call
  make call s := s.createEventHandler call
  use call i s := s.useObject select call i

/-- The repository with the objects in the places of their pointers. -/
def view (s : SharedRepos σ) : ReposAtWork σ where
  repos := ⟨s.conf, s.defaultHandlerConf, s.handlers.collect fun i => s.objects[i]?⟩
  taken := s.taken
  stores := s.stores

/-- Every object has one name, and every name has an object. -/
structure Pointed (s : SharedRepos σ) : Prop where
  inside : ∀ k i, s.handlers.find? k = some i → i < s.objects.length
  apart : ∀ k k' i, s.handlers.find? k = some i → s.handlers.find? k' = some i → k = k'
  named : ∀ i < s.objects.length, ∃ k, s.handlers.find? k = some i

/-- What a call has got is the pointer under its identity. -/
def Ready (call : ReposCall) (i : Nat) (s : SharedRepos σ) : Prop :=
  call.request.Valid ∧ s.handlers.find? call.identity = some i

/-! ### Writing through a pointer -/

variable {s : SharedRepos σ} {k : Bytes} {i : Nat}

theorem find?_view (s : SharedRepos σ) (k : Bytes) :
    s.view.repos.handlers.find? k = (s.handlers.find? k).bind fun i => s.objects[i]? :=
  OrdMap.find?_collect _ _ _

theorem Pointed.object (pointed : Pointed s) (there : s.handlers.find? k = some i) :
    ∃ h, s.objects[i]? = some h ∧ s.view.repos.handlers.find? k = some h := by
  have inside := pointed.inside k i there
  have object := List.getElem?_eq_getElem inside
  refine ⟨_, object, ?_⟩
  rw [find?_view, there]
  exact object

/-- The object of a pointer is the handler under its name, and no other. -/
theorem Pointed.collect_set (pointed : Pointed s) (there : s.handlers.find? k = some i)
    (h : Handler) :
    (s.handlers.collect fun j => (s.objects.set i h)[j]?) =
      (s.handlers.collect fun j => s.objects[j]?).insert k h := by
  apply OrdMap.ext_find?
  intro key
  rw [OrdMap.find?_collect, OrdMap.find?_insert, OrdMap.find?_collect]
  split
  · next same =>
      rw [same, there]
      exact List.getElem?_set_self (pointed.inside k i there)
  · next other =>
      cases found : s.handlers.find? key with
      | none => rfl
      | some j =>
          apply List.getElem?_set_ne
          rintro rfl
          exact other (pointed.apart key k i found there)

theorem Pointed.collect_add (pointed : Pointed s) (h : Handler) :
    ((s.handlers.insert k s.objects.length).collect fun j => (s.objects ++ [h])[j]?) =
      (s.handlers.collect fun j => s.objects[j]?).insert k h := by
  apply OrdMap.ext_find?
  intro key
  rw [OrdMap.find?_collect, OrdMap.find?_insert, OrdMap.find?_insert, OrdMap.find?_collect]
  split
  · exact List.getElem?_concat_length
  · cases found : s.handlers.find? key with
    | none => rfl
    | some j => exact List.getElem?_append_left (pointed.inside key j found)

theorem Pointed.same {t : SharedRepos σ} (pointed : Pointed s) (handlers : t.handlers = s.handlers)
    (length : t.objects.length = s.objects.length) : Pointed t := by
  constructor
  · rw [handlers, length]
    exact pointed.inside
  · rw [handlers]
    exact pointed.apart
  · rw [handlers, length]
    exact pointed.named

theorem Pointed.add (pointed : Pointed s) (absent : s.handlers.find? k = none) (h : Handler) :
    Pointed { s with
      handlers := s.handlers.insert k s.objects.length
      objects := s.objects ++ [h] } := by
  have fresh : ∀ key, s.handlers.find? key ≠ some s.objects.length := by
    intro key there
    exact absurd (pointed.inside key _ there) (lt_irrefl _)
  constructor
  · intro key j there
    simp only [OrdMap.find?_insert] at there
    rw [List.length_append, List.length_singleton]
    split at there
    · cases there
      exact Nat.lt_succ_self _
    · exact Nat.lt_succ_of_lt (pointed.inside key j there)
  · intro key key' j there there'
    simp only [OrdMap.find?_insert] at there there'
    split at there
    · next same =>
        cases there
        split at there'
        · next same' => rw [same, same']
        · exact absurd there' (fresh key')
    · split at there'
      · cases there'
        exact absurd there (fresh key)
      · exact pointed.apart key key' j there there'
  · intro j inside
    rw [List.length_append, List.length_singleton] at inside
    rcases Nat.lt_succ_iff_lt_or_eq.mp inside with old | rfl
    · obtain ⟨key, there⟩ := pointed.named j old
      refine ⟨key, ?_⟩
      rw [OrdMap.find?_insert, if_neg, there]
      rintro rfl
      rw [absent] at there
      cases there
    · exact ⟨k, OrdMap.find?_insert_self _ _ _⟩

/-! ### The calls, one after the other -/

variable (select : Handler → EventCond → σ → Int32 × EventSelect × σ)

/-- Getting a handler is looking for it and making it at once. -/
theorem Pointed.get (pointed : Pointed s) (call : ReposCall) :
    ((calls select).get call s).2.view = ReposAtWork.touch call s.view ∧
      Pointed ((calls select).get call s).2 ∧
      (∀ i, ((calls select).get call s).1 = some i → Ready call i ((calls select).get call s).2) ∧
      ∀ k i, s.handlers.find? k = some i →
        ((calls select).get call s).2.handlers.find? k = some i := by
  rw [SharedTable.get, calls, ReposAtWork.touch]
  by_cases valid : call.request.Valid
  · simp only [findEventHandler, createEventHandler, if_pos valid,
      EventRepos.findCreateEventHandler]
    cases there : s.handlers.find? call.identity with
    | some i =>
        obtain ⟨h, _, found⟩ := pointed.object there
        have found : s.view.repos.handlers.find?
          (constructIdentity call.request.service call.request.entityIdx) = some h := found
        simp only [Option.map_some, found]
        refine ⟨trivial, pointed, ?_, fun _ _ before => before⟩
        intro j got
        cases got
        exact ⟨valid, there⟩
    | none =>
        have absent : s.view.repos.handlers.find?
            (constructIdentity call.request.service call.request.entityIdx) = none := by
          rw [find?_view, show s.handlers.find?
            (constructIdentity call.request.service call.request.entityIdx) = none from there]
          rfl
        simp only [Option.map_none, absent]
        cases made : Handler.init s.defaultHandlerConf s.conf call.env call.request.service
            call.request.entityIdx with
        | none =>
            have same : Handler.init s.view.repos.defaultHandlerConf s.view.repos.conf call.env
              call.request.service call.request.entityIdx = none := made
            simp only [same]
            exact ⟨trivial, pointed, fun j got => (by cases got), fun _ _ before => before⟩
        | some h =>
            have same : Handler.init s.view.repos.defaultHandlerConf s.view.repos.conf call.env
              call.request.service call.request.entityIdx = some h := made
            simp only [same]
            refine ⟨?_, pointed.add there h, ?_, ?_⟩
            · rw [view, pointed.collect_add h]
              rfl
            · intro j got
              cases got
              exact ⟨valid, OrdMap.find?_insert_self _ _ _⟩
            · intro key j before
              rw [OrdMap.find?_insert, if_neg, before]
              rintro rfl
              rw [there] at before
              cases before
  · simp only [findEventHandler, createEventHandler, if_neg valid]
    exact ⟨trivial, pointed, fun j got => (by cases got), fun _ _ before => before⟩

/-- What a call does on its object is what it does at once. -/
theorem Pointed.use (pointed : Pointed s) {call : ReposCall} (ready : Ready call i s) :
    (s.view.perform select call).1 = (s.useObject select call i).1 ∧
      (s.useObject select call i).2.view = (s.view.perform select call).2 := by
  obtain ⟨valid, there⟩ := ready
  obtain ⟨h, object, found⟩ := pointed.object there
  obtain ⟨request, env⟩ := call
  cases request with
  | addEvent now version evs =>
      have found : s.view.repos.handlers.find? (constructIdentity evs.service evs.entityIdx) =
        some h := found
      have valid : EventRepos.AddEventParam version evs := valid
      have there : s.handlers.find? (constructIdentity evs.service evs.entityIdx) = some i := there
      simp only [ReposAtWork.perform, EventRepos.addEvent, if_pos valid,
        EventRepos.findCreateEventHandler, found, useObject, object]
      refine ⟨trivial, ?_⟩
      simp only [view, pointed.collect_set there]
  | getEvent version cond =>
      have found : s.view.repos.handlers.find? (constructIdentity cond.service cond.entityIdx) =
        some h := found
      have valid : EventRepos.GetEventParam version cond := valid
      simp only [ReposAtWork.perform, EventRepos.getEvent, if_pos valid,
        EventRepos.findCreateEventHandler, found, useObject, object]
      exact ⟨rfl, rfl⟩

/-- A call keeps the pointers. -/
theorem useObject_handlers (s : SharedRepos σ) (call : ReposCall) (i : Nat) :
    (s.useObject select call i).2.handlers = s.handlers ∧
      (s.useObject select call i).2.objects.length = s.objects.length := by
  rw [useObject]
  cases s.objects[i]? with
  | none => exact ⟨rfl, rfl⟩
  | some h =>
      cases call.request with
      | addEvent now version evs => exact ⟨rfl, List.length_set⟩
      | getEvent version cond => exact ⟨rfl, rfl⟩

theorem act_handlers (s : SharedRepos σ) (m : ReposMove) :
    (s.act m).handlers = s.handlers ∧ (s.act m).objects.length = s.objects.length := by
  cases m with
  | loaded cfg => exact ⟨rfl, rfl⟩
  | updateDefault cfg => exact ⟨rfl, rfl⟩
  | handler identity m =>
      simp only [act]
      split
      · split
        · exact ⟨rfl, List.length_set⟩
        · exact ⟨rfl, rfl⟩
      · exact ⟨rfl, rfl⟩

theorem Pointed.act (pointed : Pointed s) (m : ReposMove) : (s.act m).view = s.view.act m := by
  cases m with
  | loaded cfg => rfl
  | updateDefault cfg => rfl
  | handler identity m =>
      rw [SharedRepos.act, ReposAtWork.act, find?_view]
      cases there : s.handlers.find? identity with
      | none => rfl
      | some i =>
          obtain ⟨h, object, _⟩ := pointed.object there
          simp only [Option.bind_some, object]
          rw [view, pointed.collect_set there]
          rfl

/-- The threads do what the calls do, one after the other. -/
theorem linearizes :
    SharedTable.Linearizes (calls select) (fun m s => act s m) (ReposAtWork.oneByOne select)
      (fun s u => Pointed s ∧ u = s.view) Ready where
  get := by
    rintro s u call ⟨pointed, rfl⟩
    obtain ⟨shown, kept, _⟩ := pointed.get select call
    exact ⟨kept, shown.symm⟩
  use := by
    rintro s u call i ⟨pointed, rfl⟩ ready
    obtain ⟨answer, shown⟩ := pointed.use select ready
    obtain ⟨handlers, length⟩ := useObject_handlers select s call i
    exact ⟨answer, pointed.same handlers length, shown.symm⟩
  other := by
    rintro s u m ⟨pointed, rfl⟩
    obtain ⟨handlers, length⟩ := act_handlers s m
    exact ⟨pointed.same handlers length, (pointed.act m).symm⟩
  ready_got := by
    rintro s u call i ⟨pointed, rfl⟩ got
    obtain ⟨_, _, ready, _⟩ := pointed.get select call
    exact ready i got
  ready_get := by
    rintro s u call i call' ⟨pointed, rfl⟩ ⟨valid, there⟩
    obtain ⟨_, _, _, kept⟩ := pointed.get select call'
    exact ⟨valid, kept _ _ there⟩
  ready_use := by
    rintro s u call i call' i' _ ⟨valid, there⟩ _
    refine ⟨valid, ?_⟩
    rw [calls, (useObject_handlers select s call' i').1]
    exact there
  ready_other := by
    rintro s u call i m _ ⟨valid, there⟩
    refine ⟨valid, ?_⟩
    rw [(act_handlers s m).1]
    exact there

/-! ### What a run keeps -/

end SharedRepos

namespace EventRepos

theorem Identified.insert {repos : EventRepos} (identified : Identified repos) {k : Bytes}
    {h : Handler} (same : k = constructIdentity h.service h.entityIdx) (conf : Config)
    (defaultHandlerConf : HandlerConf) :
    Identified ⟨conf, defaultHandlerConf, repos.handlers.insert k h⟩ := by
  intro key h' there
  rw [OrdMap.find?_insert] at there
  split at there
  · next here =>
      cases there
      exact here.trans same
  · exact identified key h' there

end EventRepos

namespace ReposAtWork

open EventRepos

variable {σ : Type} {u : ReposAtWork σ}
  (select : Handler → EventCond → σ → Int32 × EventSelect × σ)

/-- A call at once is a step of the repository. -/
theorem perform_repos (u : ReposAtWork σ) (call : ReposCall) :
    (u.perform select call).2.repos = u.repos.step (.request call.request call.env) := by
  obtain ⟨request, env⟩ := call
  cases request with
  | addEvent now version evs => rfl
  | getEvent version cond =>
      simp only [perform, EventRepos.step, getEvent]
      split
      · split
        · rfl
        · rfl
      · rfl

theorem Identified.touch (identified : Identified u.repos) (call : ReposCall) :
    Identified (u.touch call).repos := by
  rw [ReposAtWork.touch]
  split
  · rcases findCreate_cases u.repos call.env call.request.service call.request.entityIdx with
      ⟨h, _, found⟩ | ⟨h, _, created, found⟩ | ⟨_, _, found⟩
    · rw [found]
      exact identified
    · rw [found]
      obtain ⟨service, entityIdx⟩ := Prod.mk.inj (Handler.pair_init created)
      apply identified.insert
      rw [service, entityIdx]
    · rw [found]
      exact identified
  · exact identified

theorem Identified.act (identified : Identified u.repos) (m : ReposMove) :
    Identified (u.act m).repos := by
  cases m with
  | loaded cfg => exact identified
  | updateDefault cfg => exact identified
  | handler identity m =>
      rw [ReposAtWork.act]
      cases there : u.repos.handlers.find? identity with
      | none => exact identified
      | some h =>
          obtain ⟨service, entityIdx⟩ := Prod.mk.inj (Handler.pair_move h m)
          apply identified.insert
          rw [service, entityIdx]
          exact identified identity h there

theorem Identified.event (identified : Identified u.repos)
    (e : SharedTable.Event ReposCall ReposAnswer ReposMove) :
    Identified ((oneByOne select).step u e).repos := by
  cases e with
  | got call => exact Identified.touch identified call
  | done call result =>
      change Identified (u.perform select call).2.repos
      rw [perform_repos]
      exact identified.step _
  | other m => exact Identified.act identified m

/-- The events that a handler of the service has in its slots. -/
def held (service : Bytes) (h : Handler) : Multiset EventData :=
  if h.service = service then Pipeline.eventsIn (h.events.values ++ h.processQueue) else 0

/-- The events of slots that were popped from a handler of the service. -/
def popped (service : Bytes) (t : (Bytes × Bytes) × EventsByTime) : Multiset EventData :=
  if t.1.1 = service then (t.2.events : Multiset EventData) else 0

/-- All events that the repository has, or had, for a service. -/
def kept (u : ReposAtWork σ) (service : Bytes) : Multiset EventData :=
  (u.repos.handlers.values.map (held service)).sum + (u.taken.map (popped service)).sum

/-- The events that a call has reported for the service with success. -/
def reported (service : Bytes) : ReposCall × ReposAnswer → Multiset EventData
  | (⟨.addEvent _ _ evs, _⟩, .added ret) =>
      if ret = 0 ∧ evs.service = service then (evs.data : Multiset EventData) else 0
  | _ => 0

variable (service : Bytes)

theorem held_init {defaultConf : HandlerConf} {cfg : Config} {env : InitEnv}
    {name entityIdx : Bytes} {h : Handler}
    (created : Handler.init defaultConf cfg env name entityIdx = some h) : held service h = 0 := by
  rw [held, (Handler.init_eq_some created).2]
  split
  · rfl
  · rfl

/-- A handler has the events of a report when it accepts it. -/
theorem held_addEvent (h : Handler) (now : Int64) (evs : EventReport) :
    held service (h.addEvent now evs).2 = held service h +
      if (h.addEvent now evs).1 = 0 ∧ evs.service = service then (evs.data : Multiset EventData)
      else 0 := by
  simp only [Handler.addEvent, EventHandler.addEvent]
  split
  · next accepted =>
      obtain ⟨own, _⟩ := EventHandler.addEventCheck_eq_zero_iff.mp accepted
      have service' : (h.toEventHandler.doAddEvent evs.timestamp evs.data).service = h.service :=
        rfl
      simp only [held, service', true_and, ← own]
      split
      · rcases h.toEventHandler.doAddEvent_values evs.timestamp evs.data with
          ⟨slot, _, content, _, values⟩ | ⟨slot, slot', others, _, content, _, before, after⟩
        · rw [Pipeline.eventsIn_append, Pipeline.eventsIn_append, Pipeline.eventsIn_perm values,
            Pipeline.eventsIn_cons, Multiset.coe_eq_coe.mpr content]
          have queue : (h.toEventHandler.doAddEvent evs.timestamp evs.data).processQueue =
            h.processQueue := rfl
          rw [queue]
          ac_rfl
        · rw [Pipeline.eventsIn_append, Pipeline.eventsIn_append, Pipeline.eventsIn_perm after,
            Pipeline.eventsIn_perm before, Pipeline.eventsIn_cons, Pipeline.eventsIn_cons,
            Multiset.coe_eq_coe.mpr content, ← Multiset.coe_add]
          have queue : (h.toEventHandler.doAddEvent evs.timestamp evs.data).processQueue =
            h.processQueue := rfl
          rw [queue]
          ac_rfl
      · rfl
  · have refused : ¬((-1 : Int32) = 0 ∧ evs.service = service) := by
      rintro ⟨success, _⟩
      exact absurd success (by decide)
    rw [if_neg refused, add_zero]

theorem sum_popped (h : Handler) (slots : List EventsByTime) :
    (slots.map fun slot => popped service (h.pair, slot)).sum =
      if h.service = service then Pipeline.eventsIn slots else 0 := by
  by_cases own : h.service = service
  · rw [if_pos own]
    induction slots with
    | nil => rfl
    | cons slot slots ih =>
        have first : popped service (h.pair, slot) = (slot.events : Multiset EventData) :=
          if_pos own
        rw [List.map_cons, List.sum_cons, ih, first, Pipeline.eventsIn_cons]
  · rw [if_neg own]
    apply List.sum_eq_zero
    intro events inside
    obtain ⟨slot, _, rfl⟩ := List.mem_map.mp inside
    exact if_neg own

/-- A move of a handler loses no event. -/
theorem held_move (h : Handler) (m : HandlerMove) :
    held service (h.move m).2 + ((h.move m).1.map fun slot =>
      popped service ((h.move m).2.pair, slot)).sum = held service h := by
  rw [Handler.pair_move, sum_popped]
  by_cases own : h.service = service
  · have content : ∀ h' : Handler, h'.service = h.service → held service h' =
        Pipeline.eventsIn h'.events.values + Pipeline.eventsIn h'.processQueue := by
      intro h' same
      rw [held, if_pos (same.trans own), Pipeline.eventsIn_append]
    have named : (h.move m).2.service = h.service := (Prod.mk.inj (Handler.pair_move h m)).1
    rw [if_pos own, content _ named, content h rfl]
    cases m with
    | updateRuntimeConf cfg => exact add_zero _
    | lingerCheckRun now =>
        have split := OrdMap.values_popWhile h.events (h.lingered now)
        simp only [Handler.move, EventHandler.lingerCheckRun]
        rw [← split, Pipeline.eventsIn_append, Pipeline.eventsIn_append,
          show Pipeline.eventsIn [] = 0 from rfl]
        ac_rfl
    | pop maxCount =>
        have split := EQueue.popMany_append maxCount h.processQueue
        simp only [Handler.move]
        nth_rewrite 3 [← split]
        rw [Pipeline.eventsIn_append]
        ac_rfl
  · have other : ¬(h.move m).2.service = service := by
      rw [(Prod.mk.inj (Handler.pair_move h m)).1]
      exact own
    rw [held, held, if_neg own, if_neg own, if_neg other, add_zero]

/-- One handler changes. -/
theorem kept_insert {h : Handler} {k : Bytes} (there : u.repos.handlers.find? k = some h)
    (h' : Handler) (more : List ((Bytes × Bytes) × EventsByTime)) (stores : σ) :
    kept ⟨{ u.repos with handlers := u.repos.handlers.insert k h' }, u.taken ++ more, stores⟩
        service + held service h =
      u.kept service + (held service h' + (more.map (popped service)).sum) := by
  obtain ⟨others, before, after⟩ := OrdMap.values_insert_of_some h' there
  have old := (before.map (held service)).sum_eq
  have new := (after.map (held service)).sum_eq
  simp only [kept, new, old, List.map_append, List.sum_append, List.map_cons, List.sum_cons]
  ac_rfl

/-- A handler that is made has no events. -/
theorem kept_findCreate (u : ReposAtWork σ) (env : InitEnv) (name entityIdx : Bytes) :
    kept { u with repos := (u.repos.findCreateEventHandler env name entityIdx).2 } service =
      u.kept service := by
  rcases findCreate_cases u.repos env name entityIdx with
    ⟨h, _, found⟩ | ⟨h, absent, created, found⟩ | ⟨_, _, found⟩
  · rw [found]
  · have added := OrdMap.values_insert_of_none h absent
    rw [found, kept, (added.map (held service)).sum_eq, List.map_cons, List.sum_cons,
      held_init service created, zero_add]
    rfl
  · rw [found]

/-- The handler of a call is kept under its identity. -/
theorem find?_of_found {repos repos' : EventRepos} {env : InitEnv} {name entityIdx : Bytes}
    {h : Handler} (found : repos.findCreateEventHandler env name entityIdx = (some h, repos')) :
    repos'.handlers.find? (constructIdentity name entityIdx) = some h := by
  rcases findCreate_cases repos env name entityIdx with
    ⟨h', there, result⟩ | ⟨h', _, _, result⟩ | ⟨_, _, result⟩
  · rw [result] at found
    cases found
    exact there
  · rw [result] at found
    cases found
    exact OrdMap.find?_insert_self _ _ _
  · rw [result] at found
    cases found

/-- A call that reports with success adds what it reports. -/
theorem kept_perform (call : ReposCall) :
    (u.perform select call).2.kept service =
      u.kept service + reported service (call, (u.perform select call).1) := by
  obtain ⟨request, env⟩ := call
  cases request with
  | addEvent now version evs =>
      have refused : ¬((-1 : Int32) = 0 ∧ evs.service = service) := by
        rintro ⟨success, _⟩
        exact absurd success (by decide)
      by_cases valid : AddEventParam version evs
      · have touched := kept_findCreate service u env evs.service evs.entityIdx
        simp only [perform, addEvent, if_pos valid, reported]
        cases found : u.repos.findCreateEventHandler env evs.service evs.entityIdx with
        | mk made repos =>
            rw [found] at touched
            cases made with
            | none =>
                rw [if_neg refused, add_zero]
                exact touched
            | some h =>
                have changed := kept_insert (u := ⟨repos, u.taken, u.stores⟩) service
                  (find?_of_found found) (h.addEvent now evs).2 [] u.stores
                rw [held_addEvent, List.append_nil, touched] at changed
                apply add_right_cancel (b := held service h)
                refine changed.trans ?_
                rw [List.map_nil, List.sum_nil]
                ac_rfl
      · simp only [perform, addEvent, if_neg valid, reported, if_neg refused, add_zero]
  | getEvent version cond =>
      by_cases valid : GetEventParam version cond
      · have touched := kept_findCreate service u env cond.service cond.entityIdx
        simp only [perform, getEvent, if_pos valid, reported, add_zero]
        cases found : u.repos.findCreateEventHandler env cond.service cond.entityIdx with
        | mk made repos =>
            rw [found] at touched
            cases made with
            | none => exact touched
            | some h => exact touched
      · simp only [perform, getEvent, if_neg valid, reported, add_zero]

theorem kept_act (m : ReposMove) : (u.act m).kept service = u.kept service := by
  cases m with
  | loaded cfg => rfl
  | updateDefault cfg => rfl
  | handler identity m =>
      rw [act]
      cases there : u.repos.handlers.find? identity with
      | none => rfl
      | some h =>
          have changed := kept_insert service there (h.move m).2
            ((h.move m).1.map fun slot => ((h.move m).2.pair, slot)) u.stores
          rw [List.map_map] at changed
          have moved := held_move service h m
          apply add_right_cancel
          rw [changed]
          exact congrArg _ moved

/-- What is reported with success by what happens. -/
def reportedBy (e : SharedTable.Event ReposCall ReposAnswer ReposMove) : Multiset EventData :=
  (e.result.map (reported service)).getD 0

theorem kept_event {e : SharedTable.Event ReposCall ReposAnswer ReposMove}
    (answers : (oneByOne select).Answers u e) :
    ((oneByOne select).step u e).kept service = u.kept service + reportedBy service e := by
  cases e with
  | got call =>
      refine Eq.trans ?_ (add_zero _).symm
      change (u.touch call).kept service = _
      rw [touch]
      split
      · exact kept_findCreate service u _ _ _
      · rfl
  | done call result =>
      have performed : (u.perform select call).1 = result := answers
      have more := kept_perform select service (u := u) call
      rw [performed] at more
      exact more
  | other m => exact (kept_act service m).trans (add_zero _).symm

theorem kept_run {events : List (SharedTable.Event ReposCall ReposAnswer ReposMove)}
    (answers : Along (oneByOne select).step (oneByOne select).Answers u events) :
    (run (oneByOne select).step u events).kept service =
      u.kept service + ((events.filterMap SharedTable.Event.result).map (reported service)).sum := by
  induction events generalizing u with
  | nil => exact (add_zero _).symm
  | cons e events ih =>
      have rest := ih answers.2
      rw [kept_event select service answers.1] at rest
      rw [run_cons, rest, add_assoc, List.filterMap_cons, reportedBy]
      cases e.result with
      | none =>
          rw [Option.map_none, Option.getD_none, zero_add]
      | some r =>
          rw [Option.map_some, Option.getD_some, List.map_cons, List.sum_cons]

end ReposAtWork

namespace SharedRepos

variable {σ : Type} (select : Handler → EventCond → σ → Int32 × EventSelect × σ)

/-! ### Every interleaving -/

/-- What threads can do: call, go on with a call, and move what belongs to the repository. -/
abbrev ThreadAction := SharedTable.Action ReposCall ReposMove

/-- A repository without handlers and calls. -/
def uncalled (conf : Config) (defaultHandlerConf : HandlerConf) (stores : σ) :
    SharedTable.Callers (SharedRepos σ) ReposCall Nat ReposAnswer :=
  ⟨⟨conf, defaultHandlerConf, .empty, [], [], stores⟩, []⟩

def threadStep :
    SharedTable.Callers (SharedRepos σ) ReposCall Nat ReposAnswer → ThreadAction →
      SharedTable.Callers (SharedRepos σ) ReposCall Nat ReposAnswer :=
  (calls select).step fun m s => act s m

/-- What happens in a run, in the order in which calls get their handlers and use them. -/
def history (start : SharedTable.Callers (SharedRepos σ) ReposCall Nat ReposAnswer)
    (actions : List ThreadAction) : List (SharedTable.Event ReposCall ReposAnswer ReposMove) :=
  movesOf (threadStep select) (calls select).events start actions

variable (conf : Config) (defaultHandlerConf : HandlerConf) (stores : σ)

/-- A run from the start, seen as operations one after the other. -/
theorem linearized (actions : List ThreadAction) :
    let start := uncalled conf defaultHandlerConf stores
    let threads := run (threadStep select) start actions
    let oneByOne := ReposAtWork.oneByOne select
    Pointed threads.shared ∧ SharedTable.AllReady Ready threads ∧
      threads.shared.view = run oneByOne.step start.shared.view (history select start actions) ∧
      Along oneByOne.step oneByOne.Answers start.shared.view (history select start actions) := by
  intro start threads oneByOne
  have pointed : Pointed start.shared := by
    constructor
    · intro k i there
      cases there
    · intro k k' i there _
      cases there
    · intro i inside
      cases inside
  have ready : SharedTable.AllReady Ready start := by
    intro i call pointer there
    cases there
  obtain ⟨⟨kept, final⟩, allReady, answers⟩ := (linearizes select).run
    (u := start.shared.view) ⟨pointed, rfl⟩ ready actions
  exact ⟨kept, allReady, final.symm, answers⟩

/-- In every interleaving, no two objects are for the same service and entity, every handler
is kept under the name of its own, and a call that has got one has one of its name. -/
theorem one_object_each (actions : List ThreadAction) :
    let threads := run (threadStep select) (uncalled conf defaultHandlerConf stores) actions
    (threads.shared.objects.map Handler.pair).Nodup ∧
      EventRepos.Identified threads.shared.view.repos ∧
      ∀ call i, (call, .got i) ∈ threads.calls → ∃ h, threads.shared.objects[i]? = some h ∧
        constructIdentity h.service h.entityIdx = call.identity := by
  intro threads
  obtain ⟨pointed, ready, final, _⟩ := linearized select conf defaultHandlerConf stores actions
  have identified : EventRepos.Identified threads.shared.view.repos := by
    rw [show threads.shared.view = _ from final]
    apply run_invariant (P := fun u : ReposAtWork σ => EventRepos.Identified u.repos)
    · intro u e identified
      exact ReposAtWork.Identified.event select identified e
    · intro k h there
      cases there
  refine ⟨?_, identified, ?_⟩
  · rw [List.Nodup, List.pairwise_map, List.pairwise_iff_getElem]
    intro i j inside inside' less same
    obtain ⟨k, there⟩ := pointed.named i inside
    obtain ⟨k', there'⟩ := pointed.named j inside'
    obtain ⟨h, object, found⟩ := pointed.object there
    obtain ⟨h', object', found'⟩ := pointed.object there'
    rw [List.getElem?_eq_getElem inside] at object
    rw [List.getElem?_eq_getElem inside'] at object'
    cases object
    cases object'
    have names : k = k' := identified.onePerPair k k' _ _ found found' same
    rw [names, there'] at there
    cases there
    exact lt_irrefl _ less
  · intro call i called
    obtain ⟨position, at'⟩ := List.getElem?_of_mem called
    obtain ⟨_, there⟩ := ready position call i at'
    obtain ⟨h, object, found⟩ := pointed.object there
    exact ⟨h, object, (identified _ h found).symm⟩

/-- In every interleaving, the events that the calls have reported for a service with success
are the events in the slots of its handlers and those that were popped from them. -/
theorem reports_conserved (actions : List ThreadAction) (service : Bytes) :
    let threads := run (threadStep select) (uncalled conf defaultHandlerConf stores) actions
    threads.shared.view.kept service =
      ((SharedTable.results threads.calls).map (ReposAtWork.reported service)).sum := by
  intro threads
  obtain ⟨_, _, final, answers⟩ := linearized select conf defaultHandlerConf stores actions
  have done : (SharedTable.results threads.calls).Perm
      ((history select _ actions).filterMap SharedTable.Event.result) :=
    SharedTable.results_run (uncalled conf defaultHandlerConf stores) actions
  have whole := ReposAtWork.kept_run select service answers
  have nothing : (uncalled conf defaultHandlerConf stores).shared.view.kept service = 0 := rfl
  rw [nothing, zero_add] at whole
  calc threads.shared.view.kept service
      = _ := congrArg (fun u => ReposAtWork.kept u service) final
    _ = _ := whole
    _ = _ := (done.map (ReposAtWork.reported service)).sum_eq.symm

/-- Two reports of a service find no handler; one makes it, and it accepts both. -/
example :
    let report (value : Int64) : ThreadAction :=
      .call ⟨.addEvent 100 (bytes "1.0.0") ⟨100, bytes "a", [], [⟨value, bytes "m", [], value⟩]⟩,
        EventRepos.allWell 0⟩
    let threads := run (threadStep fun _ _ (u : Unit) => (0, .zero, u))
      (uncalled (EventRepos.ofDefault 10).conf (EventRepos.ofDefault 10).defaultHandlerConf ())
      [report 1, report 2, .look 0, .look 1, .fill 1, .fill 0, .use 0, .use 1]
    (SharedTable.results threads.calls).map Prod.snd = [.added 0, .added 0] ∧
      threads.shared.objects.length = 1 := by
  decide +kernel

end SharedRepos

end Heracles.Business
