import Heracles.Business.EventRepos

/-!
The `[default]` section at the start.

The three numbers are looked up into one variable, which is checked and stored
without asking whether the lookup has found anything. `defaultConf_eq_none` says
when the section is refused; otherwise a number that is missing is the one before
it (`value_of_missing`).
-/

namespace Heracles.Business

open Heracles.Base

namespace ServiceSection

/-- A number that is set is not positive, or the first one is missing and the
variable held none at the start, or the type of the store is not known. -/
def Refused (s : ServiceSection) (valueI : Int32) : Prop :=
  (∃ key value, s.setting key = some value ∧ value ≤ 0) ∨
    (s.eventLinger = none ∧ valueI ≤ 0) ∨ lookupValue s.storeType [] ∉ storeTypes

/-- The section sets every number itself to a positive value, and these are the
ones that are stored. -/
def Owns (s : ServiceSection) (conf : HandlerConf) : Prop :=
  ∀ key, ∃ value, s.setting key = some value ∧ 0 < value ∧ conf.value key = value

/-- What a key that is missing leaves in the variable. -/
def before (s : ServiceSection) (valueI : Int32) : Key → Int32
  | .eventLinger => valueI
  | .eventStep => s.carried valueI .eventLinger
  | .additionalProcessStepSize => s.carried valueI .eventStep

theorem carried_of_none {s : ServiceSection} {key : Key} (missing : s.setting key = none)
    (valueI : Int32) : s.carried valueI key = s.before valueI key := by
  cases key with
  | eventLinger =>
      rw [carried, show s.eventLinger = none from missing]
      rfl
  | eventStep =>
      rw [carried, show s.eventStep = none from missing]
      rfl
  | additionalProcessStepSize =>
      rw [carried, show s.additionalProcessStepSize = none from missing]
      rfl

/-- A number that is missing has the value of the one before it. -/
theorem value_of_missing {s : ServiceSection} {valueI : Int32} {conf : HandlerConf}
    (valid : s.defaultConf valueI = some conf) {key : Key} (missing : s.setting key = none) :
    conf.value key = s.before valueI key := by
  rw [(value_defaultConf valid key).1, carried_of_none missing]

/-- A key fails its check on its own value, or passes on what it was left. -/
theorem carried_le_cases {s : ServiceSection} {valueI : Int32} {key : Key}
    (refused : s.carried valueI key ≤ 0) :
    (∃ value, s.setting key = some value ∧ value ≤ 0) ∨
      (s.setting key = none ∧ s.before valueI key ≤ 0) := by
  cases found : s.setting key with
  | none =>
      rw [carried_of_none found] at refused
      exact Or.inr ⟨rfl, refused⟩
  | some value =>
      rw [carried_of_some found] at refused
      exact Or.inl ⟨value, rfl, refused⟩

/-- The section leaves a number in the variable that does not pass its check. -/
def LeavesLow (s : ServiceSection) (valueI : Int32) : Prop :=
  (∃ key value, s.setting key = some value ∧ value ≤ 0) ∨ (s.eventLinger = none ∧ valueI ≤ 0)

theorem exists_carried_le_iff {s : ServiceSection} {valueI : Int32} :
    (∃ key, s.carried valueI key ≤ 0) ↔ s.LeavesLow valueI := by
  constructor
  · have linger (refused : s.carried valueI .eventLinger ≤ 0) : s.LeavesLow valueI := by
      rcases carried_le_cases refused with own | left
      · exact Or.inl ⟨.eventLinger, own⟩
      · exact Or.inr left
    have step (refused : s.carried valueI .eventStep ≤ 0) : s.LeavesLow valueI := by
      rcases carried_le_cases refused with own | left
      · exact Or.inl ⟨.eventStep, own⟩
      · exact linger left.2
    rintro ⟨key, refused⟩
    cases key with
    | eventLinger => exact linger refused
    | eventStep => exact step refused
    | additionalProcessStepSize =>
        rcases carried_le_cases refused with own | left
        · exact Or.inl ⟨.additionalProcessStepSize, own⟩
        · exact step left.2
  · rintro (⟨key, value, set, low⟩ | ⟨missing, low⟩)
    · refine ⟨key, ?_⟩
      rw [carried_of_some set]
      exact low
    · refine ⟨.eventLinger, ?_⟩
      rw [carried, missing]
      exact low

theorem defaultConf_eq (s : ServiceSection) (valueI : Int32) :
    s.defaultConf valueI =
      if s.carried valueI .eventLinger ≤ 0 then none
      else if s.carried valueI .eventStep ≤ 0 then none
      else if s.carried valueI .additionalProcessStepSize ≤ 0 then none
      else if lookupValue s.storeType [] ∉ storeTypes then none
      else
        some ⟨⟨s.carried valueI .eventLinger, s.carried valueI .eventStep,
          s.carried valueI .additionalProcessStepSize⟩, lookupValue s.storeType []⟩ := rfl

theorem defaultConf_eq_none {s : ServiceSection} {valueI : Int32} :
    s.defaultConf valueI = none ↔
      (∃ key, s.carried valueI key ≤ 0) ∨ lookupValue s.storeType [] ∉ storeTypes := by
  rw [defaultConf_eq]
  constructor
  · intro refused
    by_contra! accepted
    obtain ⟨positive, known⟩ := accepted
    have passes (key : Key) : ¬s.carried valueI key ≤ 0 := Int32.not_le.mpr (positive key)
    rw [if_neg (passes .eventLinger), if_neg (passes .eventStep),
      if_neg (passes .additionalProcessStepSize), if_neg (not_not.mpr known)] at refused
    cases refused
  · rintro (⟨key, low⟩ | unknown)
    · cases key with
      | eventLinger => rw [if_pos low]
      | eventStep => rw [if_pos low, ite_self]
      | additionalProcessStepSize => rw [if_pos low, ite_self, ite_self]
    · rw [if_pos unknown, ite_self, ite_self, ite_self]

/-- The section is refused, or sets all three numbers, exactly when none of the
stored ones comes from elsewhere. -/
theorem owns_iff {s : ServiceSection} {valueI : Int32} :
    (∀ conf, s.defaultConf valueI = some conf → s.Owns conf) ↔
      (∀ key, (s.setting key).isSome) ∨ s.Refused valueI := by
  have refused : s.Refused valueI ↔ s.defaultConf valueI = none := by
    rw [defaultConf_eq_none, exists_carried_le_iff, LeavesLow, or_assoc]
    rfl
  rw [refused]
  constructor
  · intro owns
    cases accepted : s.defaultConf valueI with
    | none => exact Or.inr rfl
    | some conf =>
        refine Or.inl fun key => ?_
        obtain ⟨value, set, _⟩ := owns conf accepted key
        rw [set]
        rfl
  · rintro (sets | none) conf accepted
    · intro key
      obtain ⟨value, set⟩ := Option.isSome_iff_exists.mp (sets key)
      obtain ⟨stored, positive⟩ := value_defaultConf accepted key
      rw [carried_of_some set] at stored positive
      exact ⟨value, set, positive, stored⟩
    · rw [none] at accepted
      cases accepted

end ServiceSection

namespace EventRepos

/-- What `init` has stored once it is past the `[default]` section. -/
def pastDefault (cfg : Config) (valueI : Int32) : Option HandlerConf :=
  (cfg.byServiceName (bytes "[default]")).bind fun s => s.defaultConf valueI

/-- Behind the section only the store is still tried. -/
theorem init_eq (cfg : Config) (env : InitEnv) :
    init cfg env =
      if lookupValue cfg.supportProcessTaskSize 1 ≤ 0 ∨ ¬env.started then none
      else (pastDefault cfg env.valueI).bind fun conf =>
        if env.storeFactory conf.storeType then some ⟨cfg, conf, .empty⟩ else none := by
  rw [init, pastDefault]
  cases cfg.byServiceName (bytes "[default]") with
  | none => rfl
  | some s =>
      simp only [Option.bind_some]
      cases s.defaultConf env.valueI with
      | none => rfl
      | some conf => rfl

/-- For every configuration the defaults are the section's own numbers exactly
when the section has all three or is refused for one it has, for the variable's
first value or for the type of the store. -/
theorem defaults_own_iff (cfg : Config) (valueI : Int32) :
    (∀ conf, pastDefault cfg valueI = some conf →
        ∃ s, cfg.byServiceName (bytes "[default]") = some s ∧
          ∀ key, ∃ value, s.setting key = some value ∧ 0 < value ∧ conf.value key = value) ↔
      ∀ s, cfg.byServiceName (bytes "[default]") = some s →
        (∀ key, (s.setting key).isSome) ∨
          (∃ key value, s.setting key = some value ∧ value ≤ 0) ∨
          (s.eventLinger = none ∧ valueI ≤ 0) ∨ lookupValue s.storeType [] ∉ storeTypes := by
  rw [pastDefault]
  cases found : cfg.byServiceName (bytes "[default]") with
  | none => exact iff_of_true nofun nofun
  | some s =>
      simp only [Option.bind_some, Option.some.injEq, exists_eq_left', forall_eq']
      exact ServiceSection.owns_iff

/-- The example configuration: `event_linger` and `event_step` are set, the size
of an additional step is not. -/
def exampleConfig : Config where
  supportProcessTaskSize := some 5
  services := some
    [⟨some (bytes "[default]"), none, some 10, some 3, none, some (bytes "leveldb")⟩]

/-- It is accepted, with the event step as the size that is missing. -/
theorem example_takes_event_step :
    pastDefault exampleConfig 0 = some ⟨⟨10, 3, 3⟩, bytes "leveldb"⟩ ∧
      ¬(∀ conf, pastDefault exampleConfig 0 = some conf →
        ∃ s, exampleConfig.byServiceName (bytes "[default]") = some s ∧
          ∀ key, ∃ value, s.setting key = some value ∧ 0 < value ∧ conf.value key = value) := by
  have accepted : pastDefault exampleConfig 0 = some ⟨⟨10, 3, 3⟩, bytes "leveldb"⟩ := by
    decide +kernel
  refine ⟨accepted, fun own => ?_⟩
  obtain ⟨s, found, sets⟩ := own _ accepted
  obtain ⟨value, set, _⟩ := sets .additionalProcessStepSize
  have first : exampleConfig.byServiceName (bytes "[default]") =
      some ⟨some (bytes "[default]"), none, some 10, some 3, none, some (bytes "leveldb")⟩ := by
    decide +kernel
  cases first.symm.trans found
  cases set

end EventRepos

end Heracles.Business
