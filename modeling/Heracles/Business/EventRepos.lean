import Heracles.Base.Runs
import Heracles.Base.Text
import Heracles.Business.HandlerConf

/-!
The repository of handlers.

A request goes to the handler kept under the identity of its service and entity,
`service#entity_idx`, or the service alone when the entity is empty; the first
request creates it. Nothing keeps `#` out of a name, so two pairs may have one
identity. `requests_served_iff` says that this is the only way for a request to
reach a handler that was created for another pair.
-/

namespace Heracles.Business

open Heracles.Base

/-- The name a handler is kept under. -/
def constructIdentity (service entityIdx : Bytes) : Bytes :=
  service ++ if entityIdx = [] then [] else bytes "#" ++ entityIdx

/-- A handler with the type of its store. -/
structure Handler extends EventHandler where
  storeType : Bytes
deriving DecidableEq

/-- What an initialisation finds: the value of its uninitialised local variable,
the types of store that are available, and whether threads and timers start. -/
structure InitEnv where
  valueI : Int32
  storeFactory : Bytes → Bool
  started : Bool

/-- `conf` is the configuration that `ConfHelper` has loaded. -/
structure EventRepos where
  conf : Config
  defaultHandlerConf : HandlerConf
  handlers : OrdMap Bytes Handler
deriving DecidableEq

namespace Handler

/-- The constructor of `EventHandler` and its `init`. -/
def init (defaultConf : HandlerConf) (cfg : Config) (env : InitEnv) (service entityIdx : Bytes) :
    Option Handler :=
  if service = [] then none
  else
    let conf := defaultConf.forService cfg service env.valueI
    if env.storeFactory conf.storeType ∧ env.started then
      some ⟨.create service entityIdx conf.toEventHandlerConf, conf.storeType⟩
    else none

def addEvent (h : Handler) (now : Int64) (ev : EventReport) : Int32 × Handler :=
  let (ret, handler) := h.toEventHandler.addEvent now ev
  (ret, { h with toEventHandler := handler })

def updateRuntimeConf (h : Handler) (cfg : Config) : Handler :=
  { h with conf := h.conf.updateRuntimeConf cfg h.service }

/-- The service and the entity a handler was created for. -/
def pair (h : Handler) : Bytes × Bytes := (h.service, h.entityIdx)

@[simp] theorem pair_addEvent (h : Handler) (now : Int64) (ev : EventReport) :
    (h.addEvent now ev).2.pair = h.pair := by
  simp only [addEvent, EventHandler.addEvent]
  split
  · rfl
  · rfl

@[simp] theorem pair_updateRuntimeConf (h : Handler) (cfg : Config) :
    (h.updateRuntimeConf cfg).pair = h.pair := rfl

theorem init_eq_some {defaultConf : HandlerConf} {cfg : Config} {env : InitEnv}
    {service entityIdx : Bytes} {h : Handler}
    (created : init defaultConf cfg env service entityIdx = some h) :
    service ≠ [] ∧ h = ⟨.create service entityIdx
      (defaultConf.forService cfg service env.valueI).toEventHandlerConf,
      (defaultConf.forService cfg service env.valueI).storeType⟩ := by
  unfold init at created
  split at created
  · cases created
  · next named =>
      simp only at created
      split at created
      · cases created
        exact ⟨named, rfl⟩
      · cases created

theorem pair_init {defaultConf : HandlerConf} {cfg : Config} {env : InitEnv}
    {service entityIdx : Bytes} {h : Handler}
    (created : init defaultConf cfg env service entityIdx = some h) :
    h.pair = (service, entityIdx) := by
  rw [(init_eq_some created).2]
  rfl

end Handler

namespace EventRepos

/-- `init`, once: the number of helper threads must be positive and the list must
have a valid `[default]` section whose store is available. -/
def init (cfg : Config) (env : InitEnv) : Option EventRepos :=
  if lookupValue cfg.supportProcessTaskSize 1 ≤ 0 ∨ ¬env.started then none
  else
    match cfg.byServiceName (bytes "[default]") with
    | none => none
    | some s =>
        match s.defaultConf env.valueI with
        | none => none
        | some conf => if env.storeFactory conf.storeType then some ⟨cfg, conf, .empty⟩ else none

/-- `module_runtime`, which `ConfHelper` calls once it has `cfg` loaded. -/
def moduleRuntime (repos : EventRepos) (cfg : Config) : EventRepos :=
  { conf := cfg
    defaultHandlerConf :=
      { repos.defaultHandlerConf with
        toEventHandlerConf :=
          repos.defaultHandlerConf.toEventHandlerConf.updateRuntimeConf cfg (bytes "[default]") }
    handlers := repos.handlers.mapVal fun h => h.updateRuntimeConf cfg }

/-- The handler of a request, which is created if there is none. -/
def findCreateEventHandler (repos : EventRepos) (env : InitEnv) (service entityIdx : Bytes) :
    Option Handler × EventRepos :=
  let identity := constructIdentity service entityIdx
  match repos.handlers.find? identity with
  | some handler => (some handler, repos)
  | none =>
      match Handler.init repos.defaultHandlerConf repos.conf env service entityIdx with
      | some handler =>
          (some handler, { repos with handlers := repos.handlers.insert identity handler })
      | none => (none, repos)

/-- The parameter check of `add_event`. -/
def AddEventParam (version : Bytes) (evs : EventReport) : Prop :=
  version = bytes "1.0.0" ∧ 0 < evs.timestamp ∧ evs.service ≠ [] ∧ evs.data ≠ []

instance (version : Bytes) (evs : EventReport) : Decidable (AddEventParam version evs) :=
  inferInstanceAs (Decidable (_ ∧ _))

def addEvent (repos : EventRepos) (env : InitEnv) (now : Int64) (version : Bytes)
    (evs : EventReport) : Int32 × EventRepos :=
  if AddEventParam version evs then
    match repos.findCreateEventHandler env evs.service evs.entityIdx with
    | (none, repos) => (-1, repos)
    | (some handler, repos) =>
        let (ret, handler) := handler.addEvent now evs
        (ret, { repos with
          handlers :=
            repos.handlers.insert (constructIdentity evs.service evs.entityIdx) handler })
  else (-1, repos)

/-- The parameter check of `get_event`. -/
def GetEventParam (version : Bytes) (cond : EventCond) : Prop :=
  version = bytes "1.0.0" ∧ cond.service ≠ [] ∧ ¬cond.tmInterval < 0 ∧ cond.metric ≠ []

instance (version : Bytes) (cond : EventCond) : Decidable (GetEventParam version cond) :=
  inferInstanceAs (Decidable (_ ∧ _))

/-- `get_event`, where `select` is the select of the handler's store and `σ` the
state of the stores. -/
def getEvent {σ : Type} (repos : EventRepos) (env : InitEnv)
    (select : Handler → EventCond → σ → Int32 × EventSelect × σ) (version : Bytes)
    (cond : EventCond) (stores : σ) : Int32 × EventSelect × EventRepos × σ :=
  if GetEventParam version cond then
    match repos.findCreateEventHandler env cond.service cond.entityIdx with
    | (none, repos) => (-1, .zero, repos, stores)
    | (some handler, repos) =>
        let (ret, stat, stores) := select handler cond stores
        (ret, stat, repos, stores)
  else (-1, .zero, repos, stores)

/-! ### Requests -/

inductive Request where
  | addEvent (now : Int64) (version : Bytes) (evs : EventReport)
  | getEvent (version : Bytes) (cond : EventCond)

namespace Request

/-- The parameters pass their check. -/
def Valid : Request → Prop
  | addEvent _ version evs => AddEventParam version evs
  | getEvent version cond => GetEventParam version cond

instance (r : Request) : Decidable r.Valid := by
  cases r <;> unfold Valid <;> infer_instance

def service : Request → Bytes
  | addEvent _ _ evs => evs.service
  | getEvent _ cond => cond.service

def entityIdx : Request → Bytes
  | addEvent _ _ evs => evs.entityIdx
  | getEvent _ cond => cond.entityIdx

def pair (r : Request) : Bytes × Bytes := (r.service, r.entityIdx)

def identity (r : Request) : Bytes := constructIdentity r.service r.entityIdx

end Request

/-- What happens to the repository: a request, with what an initialisation would
find then, and a new configuration. -/
inductive Action where
  | request (r : Request) (env : InitEnv)
  | moduleRuntime (cfg : Config)

def step (repos : EventRepos) : Action → EventRepos
  | .request (.addEvent now version evs) env => (repos.addEvent env now version evs).2
  | .request (.getEvent version cond) env =>
      (repos.getEvent env (fun _ _ (_ : Unit) => (0, .zero, ())) version cond ()).2.2.1
  | .moduleRuntime cfg => repos.moduleRuntime cfg

/-- The handler that deals with a request was created for its service and entity. -/
def Served (repos : EventRepos) : Action → Prop
  | .request r env =>
      r.Valid → ∀ h, (repos.findCreateEventHandler env r.service r.entityIdx).1 = some h →
        h.service = r.service ∧ h.entityIdx = r.entityIdx
  | .moduleRuntime _ => True

/-- There is at most one handler for a service and an entity. -/
def OnePerPair (repos : EventRepos) : Prop :=
  ∀ k k' h h', repos.handlers.find? k = some h → repos.handlers.find? k' = some h' →
    h.pair = h'.pair → k = k'

/-- The request makes a handler: none is kept under its identity, and the
initialisation succeeds. -/
def Creates (repos : EventRepos) (r : Request) (env : InitEnv) : Prop :=
  r.Valid ∧ repos.handlers.find? r.identity = none ∧
    (Handler.init repos.defaultHandlerConf repos.conf env r.service r.entityIdx).isSome

/-- A request that comes after the one that made the handler of its identity is for
the same service and entity. -/
def Apart (start : EventRepos) (actions : List Action) : Prop :=
  ∀ before first env mid second env',
    before ++ .request first env :: mid ++ [.request second env'] <+: actions →
      Creates (run step start before) first env → second.Valid →
        first.identity = second.identity → first.pair = second.pair

/-! ### Identities -/

theorem constructIdentity_nil (service : Bytes) : constructIdentity service [] = service :=
  List.append_nil service

theorem constructIdentity_of_ne {entityIdx : Bytes} (given : entityIdx ≠ []) (service : Bytes) :
    constructIdentity service entityIdx = service ++ 35 :: entityIdx := by
  rw [constructIdentity, if_neg given]
  rfl

/-- What stands before the first `#` of an identity is the service. -/
theorem takeWhile_constructIdentity {service : Bytes} (plain : 35 ∉ service) (entityIdx : Bytes) :
    (constructIdentity service entityIdx).takeWhile (· ≠ 35) = service := by
  by_cases empty : entityIdx = []
  · rw [empty, constructIdentity_nil]
    refine List.takeWhile_eq_self_iff.mpr fun c member => ?_
    exact decide_eq_true fun same => plain (same ▸ member)
  · rw [constructIdentity_of_ne empty, takeWhile_ne_append plain]

/-- Services without `#` keep their pairs apart. -/
theorem constructIdentity_injective {service service' entityIdx entityIdx' : Bytes}
    (plain : 35 ∉ service) (plain' : 35 ∉ service')
    (same : constructIdentity service entityIdx = constructIdentity service' entityIdx') :
    service = service' ∧ entityIdx = entityIdx' := by
  have services : service = service' := by
    rw [← takeWhile_constructIdentity plain entityIdx, same,
      takeWhile_constructIdentity plain' entityIdx']
  subst services
  refine ⟨rfl, ?_⟩
  have tails := List.append_cancel_left same
  by_cases empty : entityIdx = []
  · by_cases empty' : entityIdx' = []
    · rw [empty, empty']
    · rw [if_pos empty, if_neg empty'] at tails
      cases tails
  · by_cases empty' : entityIdx' = []
    · rw [if_neg empty, if_pos empty'] at tails
      cases tails
    · rw [if_neg empty, if_neg empty'] at tails
      exact List.append_cancel_left tails

/-! ### What a step does to the handlers -/

/-- The handler that is kept, a new one, or none. -/
theorem findCreate_cases (repos : EventRepos) (env : InitEnv) (service entityIdx : Bytes) :
    (∃ h, repos.handlers.find? (constructIdentity service entityIdx) = some h ∧
        repos.findCreateEventHandler env service entityIdx = (some h, repos)) ∨
      (∃ h, repos.handlers.find? (constructIdentity service entityIdx) = none ∧
        Handler.init repos.defaultHandlerConf repos.conf env service entityIdx = some h ∧
        repos.findCreateEventHandler env service entityIdx =
          (some h, { repos with
            handlers := repos.handlers.insert (constructIdentity service entityIdx) h })) ∨
      (repos.handlers.find? (constructIdentity service entityIdx) = none ∧
        Handler.init repos.defaultHandlerConf repos.conf env service entityIdx = none ∧
        repos.findCreateEventHandler env service entityIdx = (none, repos)) := by
  unfold findCreateEventHandler
  cases kept : repos.handlers.find? (constructIdentity service entityIdx) with
  | some h => exact Or.inl ⟨h, rfl, by simp [kept]⟩
  | none =>
      cases created : Handler.init repos.defaultHandlerConf repos.conf env service entityIdx with
      | some h => exact Or.inr (Or.inl ⟨h, rfl, rfl, by simp [kept]⟩)
      | none => exact Or.inr (Or.inr ⟨rfl, rfl, by simp [kept]⟩)

/-- A step keeps the handlers, gives a handler another content, adds the one that
its request makes, or updates them all. -/
theorem step_cases (repos : EventRepos) (a : Action) :
    (repos.step a).handlers = repos.handlers ∨
      (∃ k h h', repos.handlers.find? k = some h ∧ h'.pair = h.pair ∧
        (repos.step a).handlers = repos.handlers.insert k h') ∨
      (∃ r env h, a = .request r env ∧ Creates repos r env ∧ h.pair = r.pair ∧
        (repos.step a).handlers = repos.handlers.insert r.identity h) ∨
      ∃ cfg, (repos.step a).handlers = repos.handlers.mapVal fun h => h.updateRuntimeConf cfg := by
  cases a with
  | moduleRuntime cfg => exact Or.inr (Or.inr (Or.inr ⟨cfg, rfl⟩))
  | request r env =>
      cases r with
      | addEvent now version evs =>
          by_cases valid : AddEventParam version evs
          · simp only [step, addEvent, if_pos valid]
            rcases findCreate_cases repos env evs.service evs.entityIdx with
              ⟨h, kept, found⟩ | ⟨h, absent, created, found⟩ | ⟨_, _, found⟩
            · rw [found]
              exact Or.inr (Or.inl ⟨_, h, _, kept, Handler.pair_addEvent h now evs, rfl⟩)
            · rw [found]
              refine Or.inr (Or.inr (Or.inl ⟨_, env, (h.addEvent now evs).2, rfl, ?_, ?_, ?_⟩))
              · exact ⟨valid, absent, Option.isSome_iff_exists.mpr ⟨h, created⟩⟩
              · rw [Handler.pair_addEvent]
                exact Handler.pair_init created
              · exact OrdMap.insert_insert _ _ _ _
            · rw [found]
              exact Or.inl rfl
          · simp only [step, addEvent, if_neg valid]
            exact Or.inl trivial
      | getEvent version cond =>
          by_cases valid : GetEventParam version cond
          · simp only [step, getEvent, if_pos valid]
            rcases findCreate_cases repos env cond.service cond.entityIdx with
              ⟨h, kept, found⟩ | ⟨h, absent, created, found⟩ | ⟨_, _, found⟩
            · rw [found]
              exact Or.inl rfl
            · rw [found]
              refine Or.inr (Or.inr (Or.inl ⟨_, env, h, rfl, ?_, ?_, rfl⟩))
              · exact ⟨valid, absent, Option.isSome_iff_exists.mpr ⟨h, created⟩⟩
              · exact Handler.pair_init created
            · rw [found]
              exact Or.inl rfl
          · simp only [step, getEvent, if_neg valid]
            exact Or.inl trivial

/-- A handler after a step was there before it, for the same pair, or the request
made it. -/
theorem step_origin {repos : EventRepos} {a : Action} {k : Bytes} {h : Handler}
    (kept : (repos.step a).handlers.find? k = some h) :
    (∃ h', repos.handlers.find? k = some h' ∧ h'.pair = h.pair) ∨
      ∃ r env, a = .request r env ∧ Creates repos r env ∧ r.identity = k ∧ r.pair = h.pair := by
  rcases step_cases repos a with
    same | ⟨key, h₁, h₂, there, samePair, changed⟩ | ⟨r, env, h₁, made, creates, pair, added⟩ |
      ⟨cfg, updated⟩
  · rw [same] at kept
    exact Or.inl ⟨h, kept, rfl⟩
  · rw [changed, OrdMap.find?_insert] at kept
    split at kept
    · next here =>
        cases kept
        exact Or.inl ⟨h₁, here ▸ there, samePair.symm⟩
    · exact Or.inl ⟨h, kept, rfl⟩
  · rw [added, OrdMap.find?_insert] at kept
    split at kept
    · next here =>
        cases kept
        exact Or.inr ⟨r, env, made, creates, here.symm, pair.symm⟩
    · exact Or.inl ⟨h, kept, rfl⟩
  · rw [updated, OrdMap.find?_mapVal] at kept
    obtain ⟨h', before, rfl⟩ := Option.map_eq_some_iff.mp kept
    exact Or.inl ⟨h', before, rfl⟩

/-- A handler for the pair `p` is kept under `k`. -/
def Keeps (k : Bytes) (p : Bytes × Bytes) (repos : EventRepos) : Prop :=
  ∃ h, repos.handlers.find? k = some h ∧ h.pair = p

/-- A handler stays, for its pair. -/
theorem Keeps.step {repos : EventRepos} {k : Bytes} {p : Bytes × Bytes}
    (kept : Keeps k p repos) (a : Action) : Keeps k p (repos.step a) := by
  rw [Keeps]
  obtain ⟨h, kept, rfl⟩ := kept
  rcases step_cases repos a with
    same | ⟨key, h₁, h₂, there, samePair, changed⟩ | ⟨r, env, h₁, made, creates, pair, added⟩ |
      ⟨cfg, updated⟩
  · exact ⟨h, same ▸ kept, rfl⟩
  · rw [changed, OrdMap.find?_insert]
    split
    · next here =>
        rw [here, there] at kept
        cases kept
        exact ⟨h₂, rfl, samePair⟩
    · exact ⟨h, kept, rfl⟩
  · rw [added, OrdMap.find?_insert, if_neg]
    · exact ⟨h, kept, rfl⟩
    · rintro rfl
      rw [creates.2.1] at kept
      cases kept
  · rw [updated, OrdMap.find?_mapVal, kept]
    exact ⟨h.updateRuntimeConf cfg, rfl, rfl⟩

/-- The handler of a request is kept under the identity of the request. -/
theorem step_request {repos : EventRepos} {r : Request} {env : InitEnv} (valid : r.Valid)
    {h : Handler} (found : (repos.findCreateEventHandler env r.service r.entityIdx).1 = some h) :
    Keeps r.identity h.pair (repos.step (.request r env)) := by
  have made : ∃ repos', repos.findCreateEventHandler env r.service r.entityIdx =
      (some h, repos') ∧ repos'.handlers.find? r.identity = some h := by
    rcases findCreate_cases repos env r.service r.entityIdx with
      ⟨h', there, result⟩ | ⟨h', _, _, result⟩ | ⟨_, _, result⟩
    · rw [result] at found ⊢
      cases found
      exact ⟨_, rfl, there⟩
    · rw [result] at found ⊢
      cases found
      exact ⟨_, rfl, OrdMap.find?_insert_self _ _ _⟩
    · rw [result] at found
      cases found
  obtain ⟨repos', result, kept⟩ := made
  cases r with
  | addEvent now version evs =>
      rw [Request.service, Request.entityIdx] at result
      simp only [step, addEvent, if_pos (show AddEventParam version evs from valid), result]
      exact ⟨_, OrdMap.find?_insert_self _ _ _, Handler.pair_addEvent h now evs⟩
  | getEvent version cond =>
      rw [Request.service, Request.entityIdx] at result
      simp only [step, getEvent, if_pos (show GetEventParam version cond from valid), result]
      exact ⟨h, kept, rfl⟩

/-! ### Whole runs -/

/-- Every handler is kept under the identity of its pair. -/
def Identified (repos : EventRepos) : Prop :=
  ∀ k h, repos.handlers.find? k = some h → k = constructIdentity h.service h.entityIdx

theorem Identified.onePerPair {repos : EventRepos} (identified : Identified repos) :
    OnePerPair repos := by
  intro k k' h h' kept kept' samePair
  obtain ⟨service, entityIdx⟩ := Prod.mk.inj samePair
  rw [identified k h kept, identified k' h' kept', service, entityIdx]

theorem Identified.step {repos : EventRepos} (identified : Identified repos) (a : Action) :
    Identified (repos.step a) := by
  intro k h kept
  rcases step_origin kept with ⟨h', before, samePair⟩ | ⟨r, env, _, _, rfl, samePair⟩
  · obtain ⟨service, entityIdx⟩ := Prod.mk.inj samePair
    rw [identified k h' before, service, entityIdx]
  · obtain ⟨service, entityIdx⟩ := Prod.mk.inj samePair
    rw [Request.identity, service, entityIdx]

theorem handlers_init {cfg : Config} {env : InitEnv} {start : EventRepos}
    (initialised : init cfg env = some start) : start.handlers = .empty := by
  unfold init at initialised
  split at initialised
  · cases initialised
  · split at initialised
    · cases initialised
    · split at initialised
      · cases initialised
      · split at initialised
        · cases initialised
          rfl
        · cases initialised

/-- Every handler was made by a request of the run for its pair. -/
theorem origin {start : EventRepos} (fresh : start.handlers = .empty) (actions : List Action)
    {k : Bytes} {h : Handler}
    (kept : (run EventRepos.step start actions).handlers.find? k = some h) :
    ∃ before first env mid, actions = before ++ .request first env :: mid ∧
      Creates (run EventRepos.step start before) first env ∧ first.identity = k ∧
        first.pair = h.pair := by
  induction actions using List.reverseRecOn generalizing h with
  | nil =>
      rw [run_nil, fresh] at kept
      cases kept
  | append_singleton actions a ih =>
      rw [run_append] at kept
      rcases step_origin kept with ⟨h', earlier, samePair⟩ | ⟨r, env, rfl, creates, same, pair⟩
      · obtain ⟨before, first, env, mid, rfl, creates, same, pair⟩ := ih earlier
        exact ⟨before, first, env, mid ++ [a], by simp, creates, same, pair.trans samePair⟩
      · exact ⟨actions, r, env, [], rfl, creates, same, pair⟩

/-- A request after the one that made its handler is served by that handler. -/
theorem apart_of_served {start : EventRepos} {actions : List Action}
    (served : Along EventRepos.step Served start actions) : Apart start actions := by
  intro before first env mid second env' early creates valid same
  obtain ⟨validFirst, absent, success⟩ := creates
  obtain ⟨h, created⟩ := Option.isSome_iff_exists.mp success
  have made : ((run EventRepos.step start before).findCreateEventHandler env first.service
      first.entityIdx).1 = some h := by
    rcases findCreate_cases (run EventRepos.step start before) env first.service
      first.entityIdx with ⟨_, there, _⟩ | ⟨h', _, created', result⟩ | ⟨_, failed, _⟩
    · exact absurd (absent.symm.trans there) (by simp)
    · rw [created] at created'
      cases created'
      rw [result]
    · exact absurd (created.symm.trans failed) (by simp)
  have kept := step_request validFirst made
  rw [Handler.pair_init created] at kept
  have later := run_invariant (P := Keeps first.identity (first.service, first.entityIdx))
    (fun _ a kept => kept.step a) kept mid
  rw [same] at later
  obtain ⟨h', there, pair⟩ := later
  have serves := along_iff_prefix.mp served (before ++ .request first env :: mid)
    (.request second env') early valid
  rw [run_append, run_cons] at serves
  rcases findCreate_cases _ env' second.service second.entityIdx with
    ⟨h₂, there₂, result⟩ | ⟨_, absent₂, _, _⟩ | ⟨absent₂, _, _⟩
  · cases Option.some.inj (there₂.symm.trans there)
    have own := serves h' (congrArg Prod.fst result)
    exact pair.symm.trans (Prod.ext own.1 own.2)
  · exact absurd (absent₂.symm.trans there) (by simp)
  · exact absurd (absent₂.symm.trans there) (by simp)

theorem served_of_apart {start : EventRepos} (fresh : start.handlers = .empty)
    {actions : List Action} (apart : Apart start actions) :
    Along EventRepos.step Served start actions := by
  refine along_iff_prefix.mpr fun before a early => ?_
  cases a with
  | moduleRuntime cfg => trivial
  | request r env =>
      intro valid h found
      have pair : h.pair = r.pair := by
        rcases findCreate_cases (run EventRepos.step start before) env r.service r.entityIdx with
          ⟨h', there, result⟩ | ⟨h', _, created, result⟩ | ⟨_, _, result⟩
        · rw [result] at found
          cases found
          obtain ⟨first, maker, env', mid, rfl, creates, same, pair⟩ := origin fresh before there
          exact pair.symm.trans (apart first maker env' mid r env early creates valid same)
        · rw [result] at found
          cases found
          exact Handler.pair_init created
        · rw [result] at found
          cases found
      exact Prod.mk.inj pair

/-- Services without `#` keep the requests of a run apart. -/
theorem apart_of_plain (start : EventRepos) {actions : List Action}
    (plain : ∀ r env, .request r env ∈ actions → 35 ∉ r.service) : Apart start actions := by
  intro before first env mid second env' early _ _ same
  obtain ⟨service, entityIdx⟩ := constructIdentity_injective
    (plain first env (early.subset (by simp))) (plain second env' (early.subset (by simp))) same
  exact Prod.ext service entityIdx

/-- There is one handler at most for a pair. Every request is served by the handler
of its pair exactly when none comes after one that made a handler for another pair
under the same identity. -/
theorem requests_served_iff {cfg : Config} {env : InitEnv} {start : EventRepos}
    (initialised : init cfg env = some start) (actions : List Action) :
    OnePerPair (run EventRepos.step start actions) ∧
      (Along EventRepos.step Served start actions ↔ Apart start actions) := by
  have fresh := handlers_init initialised
  have identified : Identified start := by
    intro k h kept
    rw [fresh] at kept
    cases kept
  exact ⟨(run_invariant (P := Identified) (fun _ a kept => kept.step a) identified
    actions).onePerPair, apart_of_served, served_of_apart fresh⟩

/-- The repository of a configuration with only a `[default]` section, all of whose
values are `value`, on LevelDB. -/
def ofDefault (value : Int32) : EventRepos where
  conf := ⟨none, some [⟨some (bytes "[default]"), none, some value, some value, some value,
    some (bytes "leveldb")⟩]⟩
  defaultHandlerConf := ⟨⟨value, value, value⟩, bytes "leveldb"⟩
  handlers := .empty

/-- An environment in which every initialisation succeeds. -/
def allWell (valueI : Int32) : InitEnv := ⟨valueI, fun _ => true, true⟩

/-- A report of one event at time 100. -/
def oneEvent (service entityIdx : Bytes) : Request :=
  .addEvent 100 (bytes "1.0.0") ⟨100, service, entityIdx, [⟨1, bytes "m", [], 1⟩]⟩

theorem init_ofDefault : init (ofDefault 10).conf (allWell 0) = some (ofDefault 10) := by
  decide +kernel

/-- Reports for a service, and for one of its entities. -/
theorem requests_served_two :
    OnePerPair (run EventRepos.step (ofDefault 10)
      [.request (oneEvent (bytes "a") []) (allWell 0),
        .request (oneEvent (bytes "a") (bytes "b")) (allWell 0)]) :=
  (requests_served_iff init_ofDefault _).1

/-- The entity `b` of the service `a` has made a handler; the report for the service
`a#b` is given to it, and refused. -/
theorem foreign_handler :
    let repos := run EventRepos.step (ofDefault 10)
      [.request (oneEvent (bytes "a") (bytes "b")) (allWell 0)]
    ((repos.findCreateEventHandler (allWell 0) (bytes "a#b") []).1.map Handler.pair =
        some (bytes "a", bytes "b")) ∧
      (oneEvent (bytes "a#b") []).Valid ∧
      ¬Served repos (.request (oneEvent (bytes "a#b") []) (allWell 0)) ∧
      (repos.addEvent (allWell 0) 100 (bytes "1.0.0")
        ⟨100, bytes "a#b", [], [⟨1, bytes "m", [], 1⟩]⟩).1 = -1 := by
  refine ⟨by decide +kernel, by decide +kernel, fun served => ?_, by decide +kernel⟩
  have found : ((run EventRepos.step (ofDefault 10)
      [.request (oneEvent (bytes "a") (bytes "b")) (allWell 0)]).findCreateEventHandler
        (allWell 0) (bytes "a#b") []).1.map (·.service) = some (bytes "a") := by
    decide +kernel
  obtain ⟨h, kept, service⟩ := Option.map_eq_some_iff.mp found
  have own := (served (by decide +kernel) h kept).1
  rw [service] at own
  exact absurd own (by decide +kernel)

end EventRepos

end Heracles.Business
