import Heracles.Client.MessageIds

/-!
The size of a report under a configuration that changes.

`report_event` asserts that the slot is not larger than `size_per_report_`, and
`module_runtime` sets that size without looking at the slot. A slot that fits
keeps fitting as long as no new size is below what the slot holds; a size that is
makes the assertion of the next call fail (`assertion_fails_of_lowered`).
-/

namespace Heracles.Client

open Heracles.Base
open Heracles.Business

/-- What `rpc.monitor_client` holds when it is read again; a setting that is
missing, or of another type, is `none`. -/
structure MonitorClientSetting where
  reportEnabled : Option Bool
  reportQueueLimit : Option Int32
  sizePerReport : Option Int32
  deriving DecidableEq

/-- The client with the part of its configuration that only the submit thread
reads. -/
structure ConfiguredClient where
  client : HeraclesClientImpl
  reportQueueLimit : Int32

namespace ConfiguredClient

/-- A client with the queue limit of a configuration that does not set it. -/
def fresh (conf : HeraclesClientConf) (service entityIdx : Bytes) : ConfiguredClient where
  client := HeraclesClientImpl.fresh conf service entityIdx
  reportQueueLimit := 0

/-- Only a positive size is taken over. -/
def setSizePerReport (conf : HeraclesClientConf) (value : Int32) : HeraclesClientConf :=
  if positive : 0 < value then { conf with sizePerReport := value, positive := positive } else conf

/-- `module_runtime`; `none` stands for a file without `rpc.monitor_client`. -/
def moduleRuntime (c : ConfiguredClient) (setting : Option MonitorClientSetting) :
    Int × ConfiguredClient :=
  match setting with
  | none => (-1, c)
  | some setting =>
      let conf := c.client.conf
      let conf :=
        match setting.reportEnabled with
        | some value => { conf with reportEnabled := value }
        | none => conf
      let reportQueueLimit :=
        match setting.reportQueueLimit with
        | some value => if 0 ≤ value then value else c.reportQueueLimit
        | none => c.reportQueueLimit
      let conf :=
        match setting.sizePerReport with
        | some value => setSizePerReport conf value
        | none => conf
      (0, { c with client := { c.client with conf := conf }, reportQueueLimit := reportQueueLimit })

/-- A call of either function. -/
inductive Op where
  | reportEvent (r : ReportCall)
  | moduleRuntime (setting : Option MonitorClientSetting)
  deriving DecidableEq

def step (c : ConfiguredClient) : Op → ConfiguredClient
  | .reportEvent r => { c with client := c.client.report r }
  | .moduleRuntime setting => (c.moduleRuntime setting).2

end ConfiguredClient

namespace HeraclesClientImpl

/-- The slot holds no more than a report may. -/
def Within (c : HeraclesClientImpl) : Prop :=
  (c.currentSlot.length : Int) ≤ c.conf.sizePerReport.toInt

instance (c : HeraclesClientImpl) : Decidable c.Within := inferInstanceAs (Decidable (_ ≤ _))

/-- Where the call evaluates its assertion the condition holds, and the report it
pushes, if any, has at most the size in force. -/
def Asserts (c : HeraclesClientImpl) (r : ReportCall) : Prop :=
  c.conf.reportEnabled = true → c.Due r.now →
    (c.currentSlot.length : Int) ≤ c.conf.sizePerReport.toInt ∧
      ∀ report ∈ c.flushed r.now, (report.data.length : Int) ≤ c.conf.sizePerReport.toInt

theorem asserts_of_within {c : HeraclesClientImpl} (within : c.Within) (r : ReportCall) :
    c.Asserts r := by
  intro _ _
  refine ⟨within, fun report pushed => ?_⟩
  rw [flushed] at pushed
  split at pushed
  · rw [List.mem_singleton.mp pushed]
    exact within
  · cases pushed

/-- A slot that is too large is due, so the next call looks at it. -/
theorem not_asserts_of_not_within {c : HeraclesClientImpl} (enabled : c.conf.reportEnabled = true)
    (large : ¬c.Within) (r : ReportCall) : ¬c.Asserts r := by
  intro asserts
  have due : c.Due r.now := Or.inl (not_le.mp large).le
  exact large (asserts enabled due).1

theorem Within.report {c : HeraclesClientImpl} (within : c.Within) (r : ReportCall) :
    (c.report r).Within := by
  by_cases enabled : c.conf.reportEnabled = true
  · rw [Within, conf_report]
    exact Sender.length_reportEvent_le enabled r.metric r.value r.tag r.now
  · rw [HeraclesClientImpl.report, reportEvent, if_pos enabled]
    exact within

end HeraclesClientImpl

namespace ConfiguredClient

/-- The property of a call. -/
def Holds (c : ConfiguredClient) : Op → Prop
  | .reportEvent r => c.client.Asserts r
  | .moduleRuntime _ => True

/-- The update does not set a size below what the slot holds. -/
def Fits (c : ConfiguredClient) : Op → Prop
  | .reportEvent _ => True
  | .moduleRuntime setting =>
      ∀ value, (setting.bind MonitorClientSetting.sizePerReport) = some value → 0 < value →
        (c.client.currentSlot.length : Int) ≤ value.toInt

/-- What an update leaves of the slot and the size. -/
theorem moduleRuntime_cases (c : ConfiguredClient) (setting : Option MonitorClientSetting) :
    (c.moduleRuntime setting).2.client.currentSlot = c.client.currentSlot ∧
      ((c.moduleRuntime setting).2.client.conf.sizePerReport = c.client.conf.sizePerReport ∧
          (∀ value, setting.bind MonitorClientSetting.sizePerReport = some value → ¬0 < value) ∨
        ∃ value, setting.bind MonitorClientSetting.sizePerReport = some value ∧ 0 < value ∧
          (c.moduleRuntime setting).2.client.conf.sizePerReport = value) := by
  cases setting with
  | none => exact ⟨rfl, Or.inl ⟨rfl, nofun⟩⟩
  | some setting =>
      refine ⟨rfl, ?_⟩
      obtain ⟨reportEnabled, reportQueueLimit, sizePerReport⟩ := setting
      cases sizePerReport with
      | none =>
          refine Or.inl ⟨?_, nofun⟩
          cases reportEnabled with
          | none => rfl
          | some value => rfl
      | some size =>
          by_cases positive : 0 < size
          · refine Or.inr ⟨size, rfl, positive, ?_⟩
            simp only [moduleRuntime, setSizePerReport, dif_pos positive]
          · refine Or.inl ⟨?_, ?_⟩
            · simp only [moduleRuntime, setSizePerReport, dif_neg positive]
              cases reportEnabled with
              | none => rfl
              | some value => rfl
            · intro value same
              cases same
              exact positive

theorem within_step {c : ConfiguredClient} (within : c.client.Within) {op : Op} (fits : c.Fits op) :
    (c.step op).client.Within := by
  cases op with
  | reportEvent r => exact within.report r
  | moduleRuntime setting =>
      obtain ⟨slot, ⟨same, _⟩ | ⟨value, set, positive, size⟩⟩ := c.moduleRuntime_cases setting
      · rw [HeraclesClientImpl.Within, step, slot, same]
        exact within
      · rw [HeraclesClientImpl.Within, step, slot, size]
        exact fits value set positive

/-- A size below what the slot holds makes the assertion of the next call fail. -/
theorem assertion_fails_of_lowered {c : ConfiguredClient} {setting : Option MonitorClientSetting}
    (lowered : ¬c.Fits (.moduleRuntime setting))
    (enabled : (c.step (.moduleRuntime setting)).client.conf.reportEnabled = true)
    (r : ReportCall) : ¬(c.step (.moduleRuntime setting)).Holds (.reportEvent r) := by
  refine HeraclesClientImpl.not_asserts_of_not_within enabled ?_ r
  intro within
  refine lowered fun value set positive => ?_
  obtain ⟨slot, ⟨_, unset⟩ | ⟨value', set', _, size⟩⟩ := c.moduleRuntime_cases setting
  · exact absurd positive (unset value set)
  · cases set.symm.trans set'
    rw [HeraclesClientImpl.Within, step, slot, size] at within
    exact within

/-- In every run in which no update sets a size below what the slot holds, every
assertion and every report is within the size in force; after an update that does,
the next call fails. -/
theorem batch_size_kept (conf : HeraclesClientConf) (service entityIdx : Bytes) (ops : List Op) :
    (Along step Fits (fresh conf service entityIdx) ops →
        ∀ before op, before ++ [op] <+: ops →
          Holds (run step (fresh conf service entityIdx) before) op) ∧
      ∀ before setting r, before ++ [.moduleRuntime setting] <+: ops →
        ¬Fits (run step (fresh conf service entityIdx) before) (.moduleRuntime setting) →
        (run step (fresh conf service entityIdx)
          (before ++ [.moduleRuntime setting])).client.conf.reportEnabled = true →
        ¬Holds (run step (fresh conf service entityIdx) (before ++ [.moduleRuntime setting]))
          (.reportEvent r) := by
  constructor
  · intro fits
    rw [← along_iff_prefix]
    have start : (fresh conf service entityIdx).client.Within :=
      Int.le_of_lt (Sender.positive_size conf)
    refine fits.of_invariant (P := fun c => c.client.Within) (fun c op within => within_step within)
      (fun c op within _ => ?_) start
    cases op with
    | reportEvent r => exact HeraclesClientImpl.asserts_of_within within r
    | moduleRuntime _ => trivial
  · intro before setting r _ lowered enabled
    rw [run_append, run_cons, run_nil] at enabled ⊢
    exact assertion_fails_of_lowered lowered enabled r

/-- One event, at one second. -/
def sample : Op := .reportEvent ⟨bytes "m", 1, bytes "T", 1⟩

/-- `size_per_report` alone is set. -/
def resize (value : Int32) : Op := .moduleRuntime (some ⟨none, none, some value⟩)

/-- The size is set to what the slot holds. -/
theorem batch_size_kept_resized :
    Holds (run step (fresh ⟨true, 5, by decide⟩ [] []) [sample, sample, resize 2]) sample := by
  refine (batch_size_kept ⟨true, 5, by decide⟩ [] [] [sample, sample, resize 2, sample]).1 ?_
    [sample, sample, resize 2] sample (List.prefix_refl _)
  refine ⟨trivial, trivial, ?_, trivial, trivial⟩
  intro value set positive
  cases set
  decide

/-- A slot of two events, and a size of one: the assertion fails and the report
of both goes out. -/
theorem lowered_size_fails :
    ¬Holds (run step (fresh ⟨true, 5, by decide⟩ [] []) [sample, sample, resize 1]) sample ∧
      (run step (fresh ⟨true, 5, by decide⟩ [] [])
        [sample, sample, resize 1, sample]).client.submitQueue.map (fun report =>
          report.data.length) = [2] := by
  constructor
  · intro holds
    exact absurd (holds (by decide) (Or.inl (by decide))).1 (by decide)
  · decide

end ConfiguredClient

end Heracles.Client
