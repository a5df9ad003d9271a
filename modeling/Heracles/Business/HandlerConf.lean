import Heracles.Business.EventHandler

/-!
The settings of the handlers and where they are read.

The configuration has a list of sections. `EventRepos::init` reads the section of
`[default]`, `EventHandler::init` the section of its service, and both have a
counterpart that reads the list again when it is reloaded. A setting is looked up
into a local variable that keeps its value when the setting is absent; the two
`init` functions do not initialise it, so `valueI` is what it holds at the start.
-/

namespace Heracles.Business

open Heracles.Base

/-- A section of `rpc.business.services`: what `lookupValue` finds in it. -/
structure ServiceSection where
  serviceName : Option Bytes
  instanceName : Option Bytes
  eventLinger : Option Int32
  eventStep : Option Int32
  additionalProcessStepSize : Option Int32
  storeType : Option Bytes
deriving DecidableEq

/-- What the event repository reads of a configuration. -/
structure Config where
  supportProcessTaskSize : Option Int32
  services : Option (List ServiceSection)
deriving DecidableEq

/-- All members of `EventHandlerConf`. -/
structure HandlerConf extends EventHandlerConf where
  storeType : Bytes
deriving DecidableEq

/-- `lookupValue`: without the setting the variable keeps its value. -/
def lookupValue {α : Type} (setting : Option α) (value : α) : α := setting.getD value

/-- The first section with a given `service_name`. -/
def Config.byServiceName (cfg : Config) (name : Bytes) : Option ServiceSection :=
  (cfg.services.getD []).find? fun s => lookupValue s.serviceName [] = name

/-- The first section with a given `instance_name`. -/
def Config.byInstanceName (cfg : Config) (name : Bytes) : Option ServiceSection :=
  (cfg.services.getD []).find? fun s => lookupValue s.instanceName [] = name

def storeTypes : List Bytes := [bytes "mysql", bytes "redis", bytes "leveldb"]

/-- The `[default]` section as `EventRepos::init` reads it. -/
def ServiceSection.defaultConf (s : ServiceSection) (valueI : Int32) : Option HandlerConf :=
  let eventLinger := lookupValue s.eventLinger valueI
  if eventLinger ≤ 0 then none
  else
    let eventStep := lookupValue s.eventStep eventLinger
    if eventStep ≤ 0 then none
    else
      let stepSize := lookupValue s.additionalProcessStepSize eventStep
      if stepSize ≤ 0 then none
      else
        let storeType := lookupValue s.storeType []
        if storeType ∉ storeTypes then none
        else some ⟨⟨eventLinger, eventStep, stepSize⟩, storeType⟩

/-- The `[default]` section as `EventRepos::module_runtime` and the section of a
service as `EventHandler::update_runtime_conf` reads it. -/
def ServiceSection.update (s : ServiceSection) (conf : EventHandlerConf) : EventHandlerConf :=
  let positive (setting : Option Int32) (old : Int32) : Int32 :=
    match setting with
    | some value => if 0 < value then value else old
    | none => old
  { eventLinger := positive s.eventLinger conf.eventLinger
    eventStep := positive s.eventStep conf.eventStep
    additionalProcessStepSize :=
      positive s.additionalProcessStepSize conf.additionalProcessStepSize }

/-- The section of a service as `EventHandler::init` reads it. -/
def ServiceSection.override (s : ServiceSection) (conf : HandlerConf) (valueI : Int32) :
    HandlerConf :=
  let positive (value old : Int32) : Int32 := if 0 < value then value else old
  let eventLinger := lookupValue s.eventLinger valueI
  let eventStep := lookupValue s.eventStep eventLinger
  let stepSize := lookupValue s.additionalProcessStepSize eventStep
  let storeType := lookupValue s.storeType []
  { eventLinger := positive eventLinger conf.eventLinger
    eventStep := positive eventStep conf.eventStep
    additionalProcessStepSize := positive stepSize conf.additionalProcessStepSize
    storeType := if storeType ∈ storeTypes then storeType else conf.storeType }

/-- The settings of a handler that `EventHandler::init` creates. -/
def HandlerConf.forService (conf : HandlerConf) (cfg : Config) (service : Bytes)
    (valueI : Int32) : HandlerConf :=
  match cfg.byInstanceName service with
  | some s => s.override conf valueI
  | none => conf

/-- `EventHandler::update_runtime_conf`. -/
def EventHandlerConf.updateRuntimeConf (conf : EventHandlerConf) (cfg : Config)
    (service : Bytes) : EventHandlerConf :=
  match cfg.byServiceName service with
  | some s => s.update conf
  | none => conf

/-! ### Setting by setting -/

/-- The settings that are numbers. -/
inductive Key where
  | eventLinger
  | eventStep
  | additionalProcessStepSize
deriving DecidableEq

def ServiceSection.setting (s : ServiceSection) : Key → Option Int32
  | .eventLinger => s.eventLinger
  | .eventStep => s.eventStep
  | .additionalProcessStepSize => s.additionalProcessStepSize

def EventHandlerConf.value (conf : EventHandlerConf) : Key → Int32
  | .eventLinger => conf.eventLinger
  | .eventStep => conf.eventStep
  | .additionalProcessStepSize => conf.additionalProcessStepSize

/-- What the local variable holds after a key has been looked up in its turn. -/
def ServiceSection.carried (s : ServiceSection) (valueI : Int32) : Key → Int32
  | .eventLinger => lookupValue s.eventLinger valueI
  | .eventStep => lookupValue s.eventStep (lookupValue s.eventLinger valueI)
  | .additionalProcessStepSize =>
      lookupValue s.additionalProcessStepSize
        (lookupValue s.eventStep (lookupValue s.eventLinger valueI))

/-- A setting that is present and positive. -/
def ServiceSection.positive (s : ServiceSection) (key : Key) : Option Int32 :=
  (s.setting key).filter fun value => 0 < value

theorem ServiceSection.carried_of_some {s : ServiceSection} {key : Key} {value : Int32}
    (present : s.setting key = some value) (valueI : Int32) : s.carried valueI key = value := by
  cases key with
  | eventLinger =>
      rw [carried, show s.eventLinger = some value from present]
      rfl
  | eventStep =>
      rw [carried, show s.eventStep = some value from present]
      rfl
  | additionalProcessStepSize =>
      rw [carried, show s.additionalProcessStepSize = some value from present]
      rfl

theorem ServiceSection.value_override (s : ServiceSection) (conf : HandlerConf) (valueI : Int32)
    (key : Key) :
    (s.override conf valueI).value key =
      if 0 < s.carried valueI key then s.carried valueI key else conf.value key := by
  cases key with
  | eventLinger => rfl
  | eventStep => rfl
  | additionalProcessStepSize => rfl

theorem ServiceSection.value_update (s : ServiceSection) (conf : EventHandlerConf) (key : Key) :
    (s.update conf).value key = (s.positive key).getD (conf.value key) := by
  have same (setting : Option Int32) (old : Int32) :
      (match setting with
        | some value => if 0 < value then value else old
        | none => old) = (setting.filter fun value => decide (0 < value)).getD old := by
    cases setting with
    | none => rfl
    | some value =>
        by_cases positive : 0 < value
        · simp [Option.filter, positive]
        · simp [Option.filter, positive]
  cases key with
  | eventLinger => exact same s.eventLinger conf.eventLinger
  | eventStep => exact same s.eventStep conf.eventStep
  | additionalProcessStepSize =>
      exact same s.additionalProcessStepSize conf.additionalProcessStepSize

/-- Each value of the default settings is the one that was in the variable. -/
theorem ServiceSection.value_defaultConf {s : ServiceSection} {valueI : Int32} {conf : HandlerConf}
    (valid : s.defaultConf valueI = some conf) (key : Key) :
    conf.value key = s.carried valueI key ∧ 0 < s.carried valueI key := by
  have positive {value : Int32} (more : ¬value ≤ 0) : 0 < value := by
    rw [Int32.le_iff_toInt_le] at more
    rw [Int32.lt_iff_toInt_lt]
    omega
  unfold defaultConf at valid
  simp only at valid
  split at valid
  · cases valid
  · next linger =>
      split at valid
      · cases valid
      · next step =>
          split at valid
          · cases valid
          · next stepSize =>
              split at valid
              · cases valid
              · cases valid
                cases key with
                | eventLinger => exact ⟨rfl, positive linger⟩
                | eventStep => exact ⟨rfl, positive step⟩
                | additionalProcessStepSize => exact ⟨rfl, positive stepSize⟩

end Heracles.Business
