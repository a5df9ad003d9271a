import Heracles.Business.EventRepos

/-!
New and updated handlers under one configuration.

A handler that is created while a configuration is loaded takes the default
settings and overrides them by a section found under `instance_name`; a handler
that exists when the configuration is loaded keeps its settings and overrides them
by a section found under `service_name`. `handler_conf_iff` says for which
configurations both end with the settings that the service's own section and
`[default]` ask for.
-/

namespace Heracles.Business

open Heracles.Base

namespace Config

/-- A positive setting of the service's own section. -/
def ownValue (cfg : Config) (service : Bytes) (key : Key) : Option Int32 :=
  (cfg.byServiceName service).bind fun s => s.positive key

/-- A setting of the `[default]` section. -/
def defaultValue (cfg : Config) (key : Key) : Option Int32 :=
  (cfg.byServiceName (bytes "[default]")).bind fun s => s.setting key

/-- What a handler of the service should be set to. -/
def expected (cfg : Config) (service : Bytes) (key : Key) : Option Int32 :=
  cfg.ownValue service key <|> cfg.defaultValue key

/-- What the section found under `instance_name` leaves in the local variable, if
it is positive. -/
def readValue (cfg : Config) (service : Bytes) (valueI : Int32) (key : Key) : Option Int32 :=
  (cfg.byInstanceName service).bind fun s =>
    (some (s.carried valueI key)).filter fun value => 0 < value

end Config

/-- A new handler gets the expected value: the section under `instance_name` gives
the positive value of the service's own section, or that of `[default]` when there
is none; without a value from it, the default settings already have the own value,
or there is none and `[default]` has the setting. -/
def FreshReads (defaults : EventHandlerConf) (cfg : Config) (service : Bytes) (valueI : Int32)
    (key : Key) : Prop :=
  match cfg.ownValue service key, cfg.readValue service valueI key with
  | some own, some read => own = read
  | some own, none => own = defaults.value key
  | none, some read => cfg.defaultValue key = some read
  | none, none => (cfg.defaultValue key).isSome

instance (defaults : EventHandlerConf) (cfg : Config) (service : Bytes) (valueI : Int32)
    (key : Key) : Decidable (FreshReads defaults cfg service valueI key) := by
  unfold FreshReads
  split <;> infer_instance

/-- An updated handler gets the expected value: the own section sets it, or the
handler had the value of `[default]` before. -/
def UpdateReads (old : EventHandlerConf) (cfg : Config) (service : Bytes) (key : Key) : Prop :=
  (cfg.ownValue service key).isSome ∨ cfg.defaultValue key = some (old.value key)

instance (old : EventHandlerConf) (cfg : Config) (service : Bytes) (key : Key) :
    Decidable (UpdateReads old cfg service key) :=
  inferInstanceAs (Decidable (_ ∨ _))

theorem HandlerConf.value_forService (conf : HandlerConf) (cfg : Config) (service : Bytes)
    (valueI : Int32) (key : Key) :
    (conf.forService cfg service valueI).value key =
      (cfg.readValue service valueI key).getD (conf.value key) := by
  rw [forService, Config.readValue]
  cases cfg.byInstanceName service with
  | none => rfl
  | some s =>
      rw [ServiceSection.value_override]
      by_cases positive : 0 < s.carried valueI key
      · simp [Option.filter, positive]
      · simp [Option.filter, positive]

theorem EventHandlerConf.value_updateRuntimeConf (conf : EventHandlerConf) (cfg : Config)
    (service : Bytes) (key : Key) :
    (conf.updateRuntimeConf cfg service).value key =
      (cfg.ownValue service key).getD (conf.value key) := by
  rw [updateRuntimeConf, Config.ownValue]
  cases cfg.byServiceName service with
  | none => rfl
  | some s => exact s.value_update conf key

namespace EventRepos

/-- The states of the repository while `cfg` is loaded: after the start with it,
after it has been loaded again, and after requests. -/
inductive Loaded (cfg : Config) : EventRepos → Prop
  | start {env : InitEnv} {repos : EventRepos} : init cfg env = some repos → Loaded cfg repos
  | reload (earlier : EventRepos) : Loaded cfg (earlier.moduleRuntime cfg)
  | request {repos : EventRepos} (r : Request) (env : InitEnv) :
      Loaded cfg repos → Loaded cfg (repos.step (.request r env))

/-- The default settings `init` succeeds with are those it has read. -/
theorem init_eq_some {cfg : Config} {env : InitEnv} {repos : EventRepos}
    (started : init cfg env = some repos) :
    repos.conf = cfg ∧ ∃ s, cfg.byServiceName (bytes "[default]") = some s ∧
      s.defaultConf env.valueI = some repos.defaultHandlerConf := by
  unfold init at started
  split at started
  · cases started
  · split at started
    · cases started
    · next s found =>
        split at started
        · cases started
        · next conf valid =>
            split at started
            · cases started
              exact ⟨rfl, s, found, valid⟩
            · cases started

/-- Under a configuration that `init` accepts, the settings of `[default]` are
positive. -/
theorem defaultValue_pos {cfg : Config} (accepted : ∃ env, (init cfg env).isSome) {key : Key}
    {value : Int32} (given : cfg.defaultValue key = some value) : 0 < value := by
  obtain ⟨env, success⟩ := accepted
  obtain ⟨repos, started⟩ := Option.isSome_iff_exists.mp success
  obtain ⟨_, s, found, valid⟩ := init_eq_some started
  rw [Config.defaultValue, found] at given
  have positive := (ServiceSection.value_defaultConf valid key).2
  rwa [ServiceSection.carried_of_some given] at positive

/-- Getting a handler leaves the settings of the repository alone. -/
theorem findCreate_frame (repos : EventRepos) (env : InitEnv) (service entityIdx : Bytes) :
    (repos.findCreateEventHandler env service entityIdx).2.conf = repos.conf ∧
      (repos.findCreateEventHandler env service entityIdx).2.defaultHandlerConf =
        repos.defaultHandlerConf := by
  rcases findCreate_cases repos env service entityIdx with
    ⟨_, _, result⟩ | ⟨_, _, _, result⟩ | ⟨_, _, result⟩
  · rw [result]
    exact ⟨rfl, rfl⟩
  · rw [result]
    exact ⟨rfl, rfl⟩
  · rw [result]
    exact ⟨rfl, rfl⟩

/-- So does a request. -/
theorem step_request_frame (repos : EventRepos) (r : Request) (env : InitEnv) :
    (repos.step (.request r env)).conf = repos.conf ∧
      (repos.step (.request r env)).defaultHandlerConf = repos.defaultHandlerConf := by
  cases r with
  | addEvent now version evs =>
      simp only [step, addEvent]
      split
      · have frame := findCreate_frame repos env evs.service evs.entityIdx
        revert frame
        generalize repos.findCreateEventHandler env evs.service evs.entityIdx = result
        obtain ⟨handler, after⟩ := result
        cases handler with
        | none => exact id
        | some h => exact id
      · exact ⟨rfl, rfl⟩
  | getEvent version cond =>
      simp only [step, getEvent]
      split
      · have frame := findCreate_frame repos env cond.service cond.entityIdx
        revert frame
        generalize repos.findCreateEventHandler env cond.service cond.entityIdx = result
        obtain ⟨handler, after⟩ := result
        cases handler with
        | none => exact id
        | some h => exact id
      · exact ⟨rfl, rfl⟩

/-- While `cfg` is loaded the default settings have the values `[default]` sets. -/
theorem Loaded.defaults {cfg : Config} (accepted : ∃ env, (init cfg env).isSome)
    {repos : EventRepos} (loaded : Loaded cfg repos) :
    repos.conf = cfg ∧ ∀ key value, cfg.defaultValue key = some value →
      repos.defaultHandlerConf.value key = value := by
  induction loaded with
  | start started =>
      obtain ⟨same, s, found, valid⟩ := init_eq_some started
      refine ⟨same, fun key value given => ?_⟩
      rw [Config.defaultValue, found] at given
      rw [(ServiceSection.value_defaultConf valid key).1, ServiceSection.carried_of_some given]
  | reload earlier =>
      refine ⟨rfl, fun key value given => ?_⟩
      have positive := defaultValue_pos accepted given
      have own : cfg.ownValue (bytes "[default]") key = some value := by
        rw [Config.defaultValue] at given
        obtain ⟨s, found, setting⟩ := Option.bind_eq_some_iff.mp given
        rw [Config.ownValue, found]
        simp [ServiceSection.positive, setting, Option.filter, positive]
      have updated := EventHandlerConf.value_updateRuntimeConf
        earlier.defaultHandlerConf.toEventHandlerConf cfg (bytes "[default]") key
      rw [own] at updated
      exact updated
  | request r env _ ih =>
      obtain ⟨conf, defaults⟩ := step_request_frame _ r env
      rw [conf, defaults]
      exact ih

/-- A new handler gets the expected value of a setting exactly when its section is
found, or not found, for it. -/
theorem fresh_iff {cfg : Config} (accepted : ∃ env, (init cfg env).isSome) {repos : EventRepos}
    (loaded : Loaded cfg repos) (service : Bytes) (valueI : Int32) (key : Key) :
    cfg.expected service key =
        some ((repos.defaultHandlerConf.forService cfg service valueI).value key) ↔
      FreshReads repos.defaultHandlerConf.toEventHandlerConf cfg service valueI key := by
  rw [HandlerConf.value_forService, Config.expected, FreshReads]
  cases own : cfg.ownValue service key with
  | some value =>
      cases read : cfg.readValue service valueI key with
      | some other => simp
      | none => simp
  | none =>
      cases read : cfg.readValue service valueI key with
      | some other => simp
      | none =>
          simp only [Option.orElse_eq_orElse, Option.orElse_none, Option.getD_none]
          constructor
          · intro same
            rw [same]
            rfl
          · intro given
            obtain ⟨value, given⟩ := Option.isSome_iff_exists.mp given
            rw [given, (loaded.defaults accepted).2 key value given]

/-- An updated handler gets the expected value of a setting exactly when its own
section sets it or the handler had the default before. -/
theorem updated_iff (old : EventHandlerConf) (cfg : Config) (service : Bytes) (key : Key) :
    cfg.expected service key = some ((old.updateRuntimeConf cfg service).value key) ↔
      UpdateReads old cfg service key := by
  rw [EventHandlerConf.value_updateRuntimeConf, Config.expected, UpdateReads]
  cases cfg.ownValue service key with
  | some value => simp
  | none => simp

/-- The `[default]` section has `value` everywhere; the section of `svc` sets only
`event_linger`, and is named by `service_name` and, if `instanceName`, by
`instance_name` too. -/
def withSection (value eventLinger : Int32) (instanceName : Bool) : Config where
  supportProcessTaskSize := none
  services := some
    [⟨some (bytes "[default]"), none, some value, some value, some value, some (bytes "leveldb")⟩,
      ⟨some (bytes "svc"), if instanceName then some (bytes "svc") else none, some eventLinger,
        some value, some value, none⟩]

/-- A repository that has started with `withSection` and made a handler for `svc`. -/
def withHandler (value eventLinger : Int32) (instanceName : Bool) : EventRepos where
  conf := withSection value eventLinger instanceName
  defaultHandlerConf := ⟨⟨value, value, value⟩, bytes "leveldb"⟩
  handlers := OrdMap.empty.insert (bytes "svc")
    ⟨.create (bytes "svc") [] ⟨if instanceName then eventLinger else value, value, value⟩,
      bytes "leveldb"⟩

end EventRepos

end Heracles.Business
