import Heracles.Rpc.MonitorTaskService

/-!
The thread configuration of a service.

`init` looks for the section of its instance and hands it on; the settings are
checked by the base class, which reports with an `int`, and the function between
them reports with a `bool` but fails with `return -1`. So no section is ever
refused (`init_of_first`), and `valid_configuration_iff` says which lists of
sections are handled as they should be.
-/

namespace Heracles.Rpc

open Heracles.Base

structure ExecutorConf where
  execThreadNumber : Int32
  execThreadNumberHard : Int32
  execThreadStepSize : Int32
  deriving DecidableEq

/-- A section of `rpc.services`: what `lookupValue` finds in it. -/
structure ServiceSetting where
  instanceName : Option Bytes
  execThreadPoolSize : Option Int32
  execThreadPoolSizeHard : Option Int32
  execThreadPoolStepSize : Option Int32
  deriving DecidableEq

/-- An `int` that is returned as a `bool`. -/
def boolOfInt (n : Int32) : Bool := n ≠ 0

/-- `RpcServiceBase::handle_rpc_service_conf`: its result and what it makes of `conf`. -/
def RpcServiceBase.handleRpcServiceConf (setting : ServiceSetting) (conf : ExecutorConf) :
    Int32 × ExecutorConf :=
  let conf := { conf with
    execThreadNumber := setting.execThreadPoolSize.getD conf.execThreadNumber }
  let conf := { conf with
    execThreadNumberHard := setting.execThreadPoolSizeHard.getD conf.execThreadNumberHard }
  let conf := { conf with
    execThreadStepSize := setting.execThreadPoolStepSize.getD conf.execThreadStepSize }
  let conf :=
    if conf.execThreadNumberHard < conf.execThreadNumber then
      { conf with execThreadNumberHard := conf.execThreadNumber }
    else conf
  if conf.execThreadNumber ≤ 0 ∨ 100 < conf.execThreadNumber ∨ 100 < conf.execThreadNumberHard ∨
      conf.execThreadNumberHard < conf.execThreadNumber then (-1, conf)
  else if conf.execThreadStepSize < 0 then (-1, conf)
  else (0, conf)

/-- The service as far as its configuration goes; `confPtr` is what `conf_ptr_` points
to. -/
structure MonitorTaskService where
  instanceName : Bytes
  confPtr : Option ExecutorConf
  deriving DecidableEq

namespace MonitorTaskService

/-- `handle_rpc_service_conf`. The configuration that is filled in is a local variable
without an initial value, `conf`. -/
def handleRpcServiceConf (s : MonitorTaskService) (setting : ServiceSetting)
    (conf : ExecutorConf) : Bool × MonitorTaskService :=
  let s := { s with confPtr := some (s.confPtr.getD ⟨0, 0, 0⟩) }
  let (ret, conf) := RpcServiceBase.handleRpcServiceConf setting conf
  if ret ≠ 0 then (boolOfInt (-1), s)
  else (true, { s with confPtr := some conf })

/-- The loop of `init` over the sections. -/
def search (s : MonitorTaskService) (conf : ExecutorConf) :
    List ServiceSetting → Bool × MonitorTaskService
  | [] => (false, s)
  | service :: rest =>
      let instanceName := service.instanceName.getD []
      if instanceName = [] then s.search conf rest
      else if instanceName = s.instanceName then
        let (handled, s) := s.handleRpcServiceConf service conf
        if ¬ handled then (false, s) else (true, s)
      else s.search conf rest

/-- `init`, given what `get_conf` returns and what the configuration has for
`rpc.services`. -/
def init (s : MonitorTaskService) (conf : ExecutorConf) :
    Option (Option (List ServiceSetting)) → Bool × MonitorTaskService
  | none => (false, s)
  | some none => (false, s)
  | some (some rpcServices) => s.search conf rpcServices

/-- `get_executor_conf`; `none` when its assertion fails. -/
def getExecutorConf (s : MonitorTaskService) : Option ExecutorConf := s.confPtr

/-! ### What is claimed -/

/-- The first section that is named like the instance. -/
def first (s : MonitorTaskService) (rpcServices : List ServiceSetting) : Option ServiceSetting :=
  rpcServices.find? fun service =>
    service.instanceName.getD [] ≠ [] ∧ service.instanceName.getD [] = s.instanceName

end MonitorTaskService

/-- The section gives this configuration: it has all three numbers, and the hard limit
is raised to at least the base number. -/
def ServiceSetting.Gives (setting : ServiceSetting) (conf : ExecutorConf) : Prop :=
  setting.execThreadPoolSize = some conf.execThreadNumber ∧
    setting.execThreadPoolSizeHard.map (max · conf.execThreadNumber) =
      some conf.execThreadNumberHard ∧
    setting.execThreadPoolStepSize = some conf.execThreadStepSize

/-- The configurations a service may start with. -/
structure ExecutorConf.Valid (conf : ExecutorConf) : Prop where
  number : 1 ≤ conf.execThreadNumber
  hard : conf.execThreadNumber ≤ conf.execThreadNumberHard
  limit : conf.execThreadNumberHard ≤ 100
  step : 0 ≤ conf.execThreadStepSize

/-- The section gives a valid configuration. -/
def ServiceSetting.Valid (setting : ServiceSetting) : Prop :=
  ∃ conf, setting.Gives conf ∧ conf.Valid

namespace MonitorTaskService

/-- `init` succeeds exactly with a valid first section, whose values are then stored; an
invalid one makes it fail and leaves what is stored. -/
structure StartsValid (s : MonitorTaskService) (conf : ExecutorConf)
    (rpcServices : List ServiceSetting) : Prop where
  succeeds : (s.init conf (some (some rpcServices))).1 = true ↔
    ∃ setting, s.first rpcServices = some setting ∧ setting.Valid
  stores : ∀ setting given, s.first rpcServices = some setting → setting.Gives given →
    given.Valid → (s.init conf (some (some rpcServices))).2.getExecutorConf = some given
  refuses : ∀ setting, s.first rpcServices = some setting → ¬ setting.Valid →
    s.init conf (some (some rpcServices)) = (false, s)

/-! ### The search -/

/-- The loop handles the first section of the instance, if there is one. -/
theorem search_eq (s : MonitorTaskService) (conf : ExecutorConf)
    (rpcServices : List ServiceSetting) :
    s.search conf rpcServices =
      match s.first rpcServices with
      | none => (false, s)
      | some setting => s.handleRpcServiceConf setting conf := by
  induction rpcServices with
  | nil => rfl
  | cons service rest ih =>
      rw [search, first, List.find?_cons]
      by_cases unnamed : service.instanceName.getD [] = []
      · simp only [unnamed, ne_eq, not_true_eq_false, false_and, decide_false, if_true]
        exact ih
      · by_cases same : service.instanceName.getD [] = s.instanceName
        · rw [if_neg unnamed, if_pos same]
          simp only [same ▸ unnamed, same, ne_eq, not_false_eq_true, and_self, decide_true]
          cases handled : s.handleRpcServiceConf service conf with
          | mk ok after =>
              cases ok with
              | false => rfl
              | true => rfl
        · simp only [unnamed, same, ne_eq, and_false, decide_false, if_false]
          exact ih

/-- Every section is handled with success. -/
theorem handleRpcServiceConf_fst (s : MonitorTaskService) (setting : ServiceSetting)
    (conf : ExecutorConf) : (s.handleRpcServiceConf setting conf).1 = true := by
  unfold handleRpcServiceConf
  dsimp only
  split
  · rfl
  · rfl

/-- What a section gives, if it is valid, is loaded and accepted. -/
theorem handleRpcServiceConf_base {setting : ServiceSetting} {given : ExecutorConf}
    (gives : setting.Gives given) (valid : given.Valid) (conf : ExecutorConf) :
    RpcServiceBase.handleRpcServiceConf setting conf = (0, given) := by
  obtain ⟨number, hard, step⟩ := gives
  obtain ⟨limit, present, raised⟩ := Option.map_eq_some_iff.mp hard
  have above : ¬ given.execThreadNumber ≤ 0 := by
    have one := valid.number
    rw [Int32.le_iff_toInt_le, Int32.toInt_one] at one
    rw [Int32.le_iff_toInt_le, Int32.toInt_zero]
    omega
  have most : given.execThreadNumber ≤ 100 := le_trans valid.hard valid.limit
  have loaded : (if limit < given.execThreadNumber then
      ExecutorConf.mk given.execThreadNumber given.execThreadNumber given.execThreadStepSize
      else ⟨given.execThreadNumber, limit, given.execThreadStepSize⟩) = given := by
    split
    · next less =>
        rw [max_eq_right less.le] at raised
        exact congrArg (ExecutorConf.mk _ · _) raised
    · next more =>
        rw [max_eq_left (not_lt.mp more)] at raised
        exact congrArg (ExecutorConf.mk _ · _) raised
  simp only [RpcServiceBase.handleRpcServiceConf, number, present, step, Option.getD_some, loaded]
  rw [if_neg, if_neg (not_lt.mpr valid.step)]
  rintro (none | many | hardMany | below)
  · exact above none
  · exact absurd most (not_le.mpr many)
  · exact absurd valid.limit (not_le.mpr hardMany)
  · exact absurd valid.hard (not_le.mpr below)

theorem handleRpcServiceConf_of_valid {setting : ServiceSetting} {given : ExecutorConf}
    (gives : setting.Gives given) (valid : given.Valid) (s : MonitorTaskService)
    (conf : ExecutorConf) :
    (s.handleRpcServiceConf setting conf).2.getExecutorConf = some given := by
  unfold handleRpcServiceConf
  rw [handleRpcServiceConf_base gives valid]
  rfl

/-! ### Which lists are handled right -/

/-- Whatever the first section of the instance says, `init` succeeds. -/
theorem init_of_first {s : MonitorTaskService} {rpcServices : List ServiceSetting}
    {setting : ServiceSetting} (found : s.first rpcServices = some setting) (conf : ExecutorConf) :
    (s.init conf (some (some rpcServices))).1 = true := by
  rw [init, search_eq, found]
  exact handleRpcServiceConf_fst s setting conf

/-- A service starts only with a valid thread configuration exactly when the first
section named like it, if there is one, is valid. -/
theorem valid_configuration_iff (s : MonitorTaskService) (conf : ExecutorConf)
    (rpcServices : List ServiceSetting) :
    StartsValid s conf rpcServices ↔
      ∀ setting, s.first rpcServices = some setting → setting.Valid := by
  constructor
  · intro starts setting found
    by_contra invalid
    have refused := congrArg Prod.fst (starts.refuses setting found invalid)
    rw [init_of_first found conf] at refused
    cases refused
  · intro valid
    cases found : s.first rpcServices with
    | none =>
        have failed : s.init conf (some (some rpcServices)) = (false, s) := by
          rw [init, search_eq, found]
        refine ⟨?_, ?_, ?_⟩
        · rw [failed, found]
          exact iff_of_false Bool.false_ne_true nofun
        · rw [found]
          exact nofun
        · rw [found]
          exact nofun
    | some setting =>
        have ok := valid setting found
        refine ⟨iff_of_true (init_of_first found conf) ⟨setting, found, ok⟩, ?_, ?_⟩
        · intro other given same gives givenValid
          obtain rfl := Option.some.inj (found.symm.trans same)
          rw [init, search_eq, found]
          exact handleRpcServiceConf_of_valid gives givenValid s conf
        · intro other same invalid
          obtain rfl := Option.some.inj (found.symm.trans same)
          exact absurd ok invalid

/-- A section that asks for no threads. -/
private def noThreads : ServiceSetting :=
  ⟨some (bytes "MonitorTaskService"), some 0, some 0, some 0⟩

/-- A service whose section asks for no threads starts. -/
theorem starts_without_threads :
    ¬ ∀ s conf rpcServices, StartsValid s conf rpcServices := by
  intro always
  have starts := always ⟨bytes "MonitorTaskService", none⟩ ⟨0, 0, 0⟩ [noThreads]
  have found : first ⟨bytes "MonitorTaskService", none⟩ [noThreads] = some noThreads := by
    decide +kernel
  have invalid : ¬ noThreads.Valid := by
    rintro ⟨given, ⟨number, _⟩, valid⟩
    have one := valid.number
    rw [← Option.some.inj number] at one
    exact absurd one (by decide)
  have refused := congrArg Prod.fst (starts.refuses noThreads found invalid)
  rw [init_of_first found] at refused
  cases refused

end MonitorTaskService

end Heracles.Rpc
