import Heracles.Base.Refine
import Heracles.Client.BatchSize

/-!
Setting the client up.

The one client of a process is set up by `init`, which exists with a file, with its
settings and with plain arguments, and may be called again whenever it has failed. What a
failed call has set stays: its service is the service of the next call that names none.
`set_up_once` says what holds in all such runs: no call starts a second submit thread, and
from the first success on service, entity and address are those of every report.
-/

namespace Heracles.Client

open Heracles.Base
open Heracles.Business
open Heracles.Utils

/-- What `rpc.monitor_client` holds when `init` reads it. -/
structure MonitorClientSection extends MonitorClientSetting where
  servAddr : Option Bytes
  servPort : Option Int32
  service : Option Bytes
  entityIdx : Option Bytes
  deriving DecidableEq

/-- The one client of a process. `submitThreads` counts the threads that were started, and
`reported` are the reports that have left the queue. -/
structure ClientInstance where
  configured : ConfiguredClient
  monitorAddr : Bytes
  monitorPort : UInt16
  clientAgent : Option (Bytes × UInt16)
  submitThreads : Nat
  alreadyInitialized : Bool
  cfgFile : Bytes
  reported : List EventReport

namespace ClientInstance

/-- The client before any call; its service is the name of the program. -/
def start (program : Bytes) : ClientInstance where
  configured := .fresh ⟨true, 5000, by decide⟩ program []
  monitorAddr := []
  monitorPort := 0
  clientAgent := none
  submitThreads := 0
  alreadyInitialized := false
  cfgFile := []
  reported := []

/-- The client proper. -/
def client (s : ClientInstance) : HeraclesClientImpl := s.configured.client

/-- The members that `init` sets under the lock: an empty service or entity sets none. -/
def rename (s : ClientInstance) (service entityIdx addr : Bytes) (port : UInt16) :
    ClientInstance :=
  { s with
    configured := { s.configured with
      client := { s.client with
        service := if service ≠ [] then service else s.client.service
        entityIdx := if entityIdx ≠ [] then entityIdx else s.client.entityIdx } }
    monitorAddr := addr
    monitorPort := port }

/-- `init` with all arguments; `pong` is whether the server answers the ping. -/
def initWith (s : ClientInstance) (service entityIdx addr : Bytes) (port : UInt16)
    (pong : Bool) : Bool × ClientInstance :=
  if s.alreadyInitialized then (true, s)
  else
    let s := s.rename service entityIdx addr port
    if s.client.service = [] ∨ s.monitorAddr = [] ∨ s.monitorPort = 0 then (false, s)
    else
      let s := { s with clientAgent := some (s.monitorAddr, s.monitorPort) }
      if ¬ pong then (false, s)
      else (true, { s with submitThreads := s.submitThreads + 1, alreadyInitialized := true })

/-- An address and a positive port are there. -/
def Addressed (setting : MonitorClientSection) : Prop :=
  setting.servAddr.getD [] ≠ [] ∧ 0 < setting.servPort.getD 0

instance decidableAddressed (setting : MonitorClientSection) : Decidable (Addressed setting) :=
  inferInstanceAs (Decidable (_ ∧ _))

/-- `init` with settings: it takes over what `module_runtime` would, and the port becomes a
16-bit number. -/
def initSetting (s : ClientInstance) (setting : MonitorClientSection) (pong : Bool) :
    Bool × ClientInstance :=
  if ¬ Addressed setting then (false, s)
  else
    let configured := (s.configured.moduleRuntime (some setting.toMonitorClientSetting)).2
    { s with configured := configured }.initWith (setting.service.getD [])
      (setting.entityIdx.getD []) (setting.servAddr.getD [])
      (setting.servPort.getD 0).toInt16.toUInt16 pong

/-- A configuration file: not readable, without `rpc.monitor_client`, or with it. -/
abbrev CfgFile := Option (Option MonitorClientSection)

/-- `init` with a file. -/
def initFile (s : ClientInstance) (cfgFile : Bytes) (file : CfgFile) (pong : Bool) :
    Bool × ClientInstance :=
  let s := { s with cfgFile := cfgFile }
  match file with
  | some (some setting) => s.initSetting setting pong
  | _ => (false, s)

/-- `init` without arguments reads the last file again. -/
def initAgain (s : ClientInstance) (file : CfgFile) (pong : Bool) : Bool × ClientInstance :=
  if s.cfgFile = [] then (false, s) else s.initFile s.cfgFile file pong

/-- The calls of `init`. -/
inductive InitCall where
  | direct (service entityIdx addr : Bytes) (port : UInt16)
  | setting (setting : MonitorClientSection)
  | file (cfgFile : Bytes) (file : CfgFile)
  | again (file : CfgFile)

def init (s : ClientInstance) (call : InitCall) (pong : Bool) : Bool × ClientInstance :=
  match call with
  | .direct service entityIdx addr port => s.initWith service entityIdx addr port pong
  | .setting setting => s.initSetting setting pong
  | .file cfgFile file => s.initFile cfgFile file pong
  | .again file => s.initAgain file pong

/-- `report_event` of the public class refuses until the client is initialized. -/
def reportEvent (s : ClientInstance) (r : ReportCall) : Int32 × ClientInstance :=
  if ¬ s.alreadyInitialized then (-1, s)
  else (0, { s with configured := { s.configured with client := s.client.report r } })

/-- `module_runtime` of the public class. -/
def moduleRuntime (s : ClientInstance) (setting : Option MonitorClientSetting) :
    Int × ClientInstance :=
  if ¬ s.alreadyInitialized then (-1, s)
  else
    let (ret, configured) := s.configured.moduleRuntime setting
    (ret, { s with configured := configured })

inductive Action where
  | init (call : InitCall) (pong : Bool)
  | reportEvent (r : ReportCall)
  | moduleRuntime (setting : Option MonitorClientSetting)
  /-- A submit thread flushes the slot, or takes a report from the queue. -/
  | reportEmptyEvent (now : Int64)
  | pop

def step (s : ClientInstance) : Action → ClientInstance
  | .init call pong => (s.init call pong).2
  | .reportEvent r => (s.reportEvent r).2
  | .moduleRuntime setting => (s.moduleRuntime setting).2
  | .reportEmptyEvent now =>
      if s.submitThreads = 0 then s
      else
        { s with configured := { s.configured with client := s.client.reportEmptyEvent now } }
  | .pop =>
      if s.submitThreads = 0 then s
      else
        match EQueue.pop s.client.submitQueue with
        | none => s
        | some (report, queue) =>
            { s with
              configured := { s.configured with client := { s.client with submitQueue := queue } }
              reported := s.reported ++ [report] }

/-! ### What a call of `init` does -/

/-- The service that settings come to the inner `init` with, if they do. -/
def ofSetting (setting : MonitorClientSection) : Option Bytes :=
  if Addressed setting then some (setting.service.getD []) else none

def ofFile : CfgFile → Option Bytes
  | some (some setting) => ofSetting setting
  | _ => none

/-- The service that a call comes to the inner `init` with, if it does. -/
def given (s : ClientInstance) : InitCall → Option Bytes
  | .direct service _ _ _ => some service
  | .setting setting => ofSetting setting
  | .file _ file => ofFile file
  | .again file => if s.cfgFile = [] then none else ofFile file

/-- Only settings were read: the client is as before but for its configuration. -/
structure Reread (s t : ClientInstance) : Prop where
  client : ∃ conf, t.client = { s.client with conf := conf }
  clientAgent : t.clientAgent = s.clientAgent
  monitorAddr : t.monitorAddr = s.monitorAddr
  monitorPort : t.monitorPort = s.monitorPort
  submitThreads : t.submitThreads = s.submitThreads
  alreadyInitialized : t.alreadyInitialized = s.alreadyInitialized
  reported : t.reported = s.reported

theorem moduleRuntime_client (c : ConfiguredClient) (setting : Option MonitorClientSetting) :
    ∃ conf, (c.moduleRuntime setting).2.client = { c.client with conf := conf } := by
  cases setting with
  | none => exact ⟨c.client.conf, rfl⟩
  | some setting => exact ⟨_, rfl⟩

theorem initSetting_cases (s : ClientInstance) (setting : MonitorClientSection) (pong : Bool) :
    ∃ t, Reread s t ∧ t.cfgFile = s.cfgFile ∧
      ((ofSetting setting = none ∧ s.initSetting setting pong = (false, t)) ∨
        ∃ service entityIdx addr port, ofSetting setting = some service ∧
          s.initSetting setting pong = t.initWith service entityIdx addr port pong) := by
  rw [ofSetting, initSetting]
  by_cases addressed : Addressed setting
  · rw [if_pos addressed, if_neg (not_not.mpr addressed)]
    refine ⟨{ s with
      configured := (s.configured.moduleRuntime (some setting.toMonitorClientSetting)).2 },
      ?_, rfl, Or.inr ⟨_, _, _, _, rfl, rfl⟩⟩
    exact ⟨moduleRuntime_client s.configured _, rfl, rfl, rfl, rfl, rfl, rfl⟩
  · rw [if_neg addressed, if_pos addressed]
    exact ⟨s, ⟨⟨s.client.conf, rfl⟩, rfl, rfl, rfl, rfl, rfl, rfl⟩, rfl, Or.inl ⟨rfl, rfl⟩⟩

theorem initFile_cases (s : ClientInstance) (cfgFile : Bytes) (file : CfgFile) (pong : Bool) :
    ∃ t, Reread s t ∧
      ((ofFile file = none ∧ s.initFile cfgFile file pong = (false, t)) ∨
        ∃ service entityIdx addr port, ofFile file = some service ∧
          s.initFile cfgFile file pong = t.initWith service entityIdx addr port pong) := by
  have named : Reread s { s with cfgFile := cfgFile } :=
    ⟨⟨s.client.conf, rfl⟩, rfl, rfl, rfl, rfl, rfl, rfl⟩
  rcases file with _ | _ | setting
  · exact ⟨_, named, Or.inl ⟨rfl, rfl⟩⟩
  · exact ⟨_, named, Or.inl ⟨rfl, rfl⟩⟩
  · obtain ⟨t, reread, _, result⟩ := initSetting_cases { s with cfgFile := cfgFile } setting pong
    refine ⟨t, ?_, result⟩
    exact ⟨reread.client, reread.clientAgent, reread.monitorAddr, reread.monitorPort,
      reread.submitThreads, reread.alreadyInitialized, reread.reported⟩

/-- Every call reads settings, or none, and then comes to the inner `init` or fails. -/
theorem init_cases (s : ClientInstance) (call : InitCall) (pong : Bool) :
    ∃ t, Reread s t ∧
      ((s.given call = none ∧ s.init call pong = (false, t)) ∨
        ∃ service entityIdx addr port, s.given call = some service ∧
          s.init call pong = t.initWith service entityIdx addr port pong) := by
  have same : Reread s s := ⟨⟨s.client.conf, rfl⟩, rfl, rfl, rfl, rfl, rfl, rfl⟩
  cases call with
  | direct service entityIdx addr port =>
      exact ⟨s, same, Or.inr ⟨service, entityIdx, addr, port, rfl, rfl⟩⟩
  | setting setting =>
      obtain ⟨t, reread, _, result⟩ := initSetting_cases s setting pong
      exact ⟨t, reread, result⟩
  | file cfgFile file => exact initFile_cases s cfgFile file pong
  | again file =>
      rw [given, init, initAgain]
      by_cases unset : s.cfgFile = []
      · rw [if_pos unset, if_pos unset]
        exact ⟨s, same, Or.inl ⟨rfl, rfl⟩⟩
      · rw [if_neg unset, if_neg unset]
        exact initFile_cases s s.cfgFile file pong

/-- The inner `init` refuses, or it starts the submit thread of a client that has none. -/
theorem initWith_cases (s : ClientInstance) (service entityIdx addr : Bytes) (port : UInt16)
    (pong : Bool) :
    (s.alreadyInitialized = true ∧ s.initWith service entityIdx addr port pong = (true, s)) ∨
      s.alreadyInitialized = false ∧
        ((∃ agent, s.initWith service entityIdx addr port pong =
            (false, { s.rename service entityIdx addr port with clientAgent := agent })) ∨
          (s.rename service entityIdx addr port).client.service ≠ [] ∧ addr ≠ [] ∧ port ≠ 0 ∧
            s.initWith service entityIdx addr port pong =
              (true, { s.rename service entityIdx addr port with
                clientAgent := some (addr, port)
                submitThreads := s.submitThreads + 1
                alreadyInitialized := true })) := by
  cases initialized : s.alreadyInitialized with
  | true => exact Or.inl ⟨rfl, by rw [initWith, if_pos initialized]⟩
  | false =>
      refine Or.inr ⟨rfl, ?_⟩
      have fresh : ¬ s.alreadyInitialized = true := by
        rw [initialized]
        exact Bool.false_ne_true
      rw [initWith, if_neg fresh]
      dsimp only
      split
      · exact Or.inl ⟨_, rfl⟩
      · next complete =>
          obtain ⟨named, complete⟩ := not_or.mp complete
          obtain ⟨addressed, ported⟩ := not_or.mp complete
          split
          · exact Or.inl ⟨_, rfl⟩
          · exact Or.inr ⟨named, addressed, ported, rfl⟩

/-! ### Runs -/

/-- The submit thread is there exactly when the client is initialized. Before that nothing is
taken; from then on all that `init` asks for is there. Every report carries the service and
the entity of the client. -/
structure Sound (s : ClientInstance) : Prop where
  threads : s.submitThreads = if s.alreadyInitialized then 1 else 0
  untouched : s.alreadyInitialized = false →
    s.reported = [] ∧ s.client.submitQueue = [] ∧ s.client.currentSlot = []
  complete : s.alreadyInitialized = true →
    s.client.service ≠ [] ∧ s.monitorAddr ≠ [] ∧ s.monitorPort ≠ 0 ∧
      s.clientAgent = some (s.monitorAddr, s.monitorPort)
  carried : ∀ report ∈ s.reported ++ s.client.submitQueue,
    report.service = s.client.service ∧ report.entityIdx = s.client.entityIdx

/-- Nothing that `init` sets has changed. -/
structure SameSetup (s t : ClientInstance) : Prop where
  alreadyInitialized : t.alreadyInitialized = s.alreadyInitialized
  submitThreads : t.submitThreads = s.submitThreads
  clientAgent : t.clientAgent = s.clientAgent
  service : t.client.service = s.client.service
  entityIdx : t.client.entityIdx = s.client.entityIdx

variable {s t : ClientInstance}

theorem SameSetup.refl (s : ClientInstance) : SameSetup s s := ⟨rfl, rfl, rfl, rfl, rfl⟩

theorem SameSetup.trans {u : ClientInstance} (first : SameSetup s t) (second : SameSetup t u) :
    SameSetup s u := by
  constructor
  · exact second.alreadyInitialized.trans first.alreadyInitialized
  · exact second.submitThreads.trans first.submitThreads
  · exact second.clientAgent.trans first.clientAgent
  · exact second.service.trans first.service
  · exact second.entityIdx.trans first.entityIdx

theorem Reread.sameSetup (reread : Reread s t) : SameSetup s t := by
  obtain ⟨conf, client⟩ := reread.client
  constructor
  · exact reread.alreadyInitialized
  · exact reread.submitThreads
  · exact reread.clientAgent
  · rw [client]
  · rw [client]

theorem Sound.reread (sound : Sound s) (reread : Reread s t) : Sound t := by
  obtain ⟨conf, client⟩ := reread.client
  constructor
  · rw [reread.submitThreads, reread.alreadyInitialized]
    exact sound.threads
  · rw [reread.alreadyInitialized, reread.reported, client]
    exact sound.untouched
  · rw [reread.alreadyInitialized, reread.monitorAddr, reread.monitorPort, reread.clientAgent,
      client]
    exact sound.complete
  · rw [reread.reported, client]
    exact sound.carried

/-- A call of `report_event` keeps service and entity, and pushes a report that carries them
if it pushes one. -/
theorem reportEvent_carries (c : HeraclesClientImpl) (metric : Bytes) (value : Int64)
    (tag : Bytes) (now : Int64) :
    (c.reportEvent metric value tag now).service = c.service ∧
      (c.reportEvent metric value tag now).entityIdx = c.entityIdx ∧
      ∀ report ∈ (c.reportEvent metric value tag now).submitQueue, report ∈ c.submitQueue ∨
        (report.service = c.service ∧ report.entityIdx = c.entityIdx) := by
  by_cases enabled : c.conf.reportEnabled = true
  · rw [Sender.reportEvent_eq enabled]
    refine ⟨rfl, rfl, ?_⟩
    intro report inside
    rcases List.mem_append.mp inside with old | new
    · exact Or.inl old
    · rw [HeraclesClientImpl.flushed] at new
      split at new
      · rw [List.mem_singleton.mp new]
        exact Or.inr ⟨rfl, rfl⟩
      · cases new
  · rw [HeraclesClientImpl.reportEvent, if_pos enabled]
    exact ⟨rfl, rfl, fun report inside => Or.inl inside⟩

theorem Sound.reportEvent (sound : Sound s) (initialized : s.alreadyInitialized = true)
    (metric : Bytes) (value : Int64) (tag : Bytes) (now : Int64) :
    let t : ClientInstance := { s with configured := { s.configured with
      client := s.client.reportEvent metric value tag now } }
    Sound t ∧ SameSetup s t := by
  intro t
  obtain ⟨service, entityIdx, queue⟩ := reportEvent_carries s.client metric value tag now
  refine ⟨⟨sound.threads, ?_, ?_, ?_⟩, ⟨rfl, rfl, rfl, service, entityIdx⟩⟩
  · intro fresh
    exact absurd (initialized.symm.trans fresh) (by decide)
  · intro _
    obtain ⟨named, rest⟩ := sound.complete initialized
    exact ⟨ne_of_eq_of_ne service named, rest⟩
  · intro report inside
    rw [show t.client.service = s.client.service from service,
      show t.client.entityIdx = s.client.entityIdx from entityIdx]
    rcases List.mem_append.mp inside with gone | waiting
    · exact sound.carried report (List.mem_append_left _ gone)
    · rcases queue report waiting with old | new
      · exact sound.carried report (List.mem_append_right _ old)
      · exact new

theorem Sound.initWith (sound : Sound s) (service entityIdx addr : Bytes) (port : UInt16)
    (pong : Bool) :
    Sound (s.initWith service entityIdx addr port pong).2 ∧
      (s.alreadyInitialized = true →
        SameSetup s (s.initWith service entityIdx addr port pong).2) := by
  rcases s.initWith_cases service entityIdx addr port pong with
    ⟨_, same⟩ | ⟨fresh, ⟨agent, failed⟩ | ⟨named, addressed, ported, started⟩⟩
  · rw [same]
    exact ⟨sound, fun _ => .refl s⟩
  · obtain ⟨gone, queue, slot⟩ := sound.untouched fresh
    rw [failed]
    refine ⟨⟨sound.threads, fun _ => ⟨gone, queue, slot⟩, ?_, ?_⟩, ?_⟩
    · intro initialized
      exact absurd (fresh.symm.trans initialized) (by decide)
    · intro report inside
      change report ∈ s.reported ++ s.client.submitQueue at inside
      rw [gone, queue] at inside
      cases inside
    · intro initialized
      exact absurd (fresh.symm.trans initialized) (by decide)
  · obtain ⟨gone, queue, slot⟩ := sound.untouched fresh
    have none : s.submitThreads = 0 := by
      rw [sound.threads, fresh]
      rfl
    rw [started]
    refine ⟨⟨?_, ?_, fun _ => ⟨named, addressed, ported, rfl⟩, ?_⟩, ?_⟩
    · change s.submitThreads + 1 = 1
      rw [none]
    · intro impossible
      cases impossible
    · intro report inside
      change report ∈ s.reported ++ s.client.submitQueue at inside
      rw [gone, queue] at inside
      cases inside
    · intro initialized
      exact absurd (fresh.symm.trans initialized) (by decide)

theorem Sound.initialized (sound : Sound s) (thread : s.submitThreads ≠ 0) :
    s.alreadyInitialized = true := by
  by_contra fresh
  apply thread
  rw [sound.threads, if_neg fresh]

theorem Sound.step (sound : Sound s) (a : Action) :
    Sound (s.step a) ∧ (s.alreadyInitialized = true → SameSetup s (s.step a)) := by
  have same := SameSetup.refl s
  cases a with
  | init call pong =>
      obtain ⟨t, reread, ⟨_, failed⟩ | ⟨service, entityIdx, addr, port, _, result⟩⟩ :=
        s.init_cases call pong
      · rw [ClientInstance.step, failed]
        exact ⟨sound.reread reread, fun _ => reread.sameSetup⟩
      · obtain ⟨sound', kept⟩ := (sound.reread reread).initWith service entityIdx addr port pong
        rw [ClientInstance.step, result]
        refine ⟨sound', ?_⟩
        intro initialized
        exact reread.sameSetup.trans (kept (reread.alreadyInitialized.trans initialized))
  | reportEvent r =>
      rw [ClientInstance.step, ClientInstance.reportEvent]
      split
      · exact ⟨sound, fun _ => same⟩
      · next started =>
          obtain ⟨sound', kept⟩ :=
            sound.reportEvent (not_not.mp started) r.metric r.value r.tag r.now
          exact ⟨sound', fun _ => kept⟩
  | moduleRuntime setting =>
      rw [ClientInstance.step, ClientInstance.moduleRuntime]
      split
      · exact ⟨sound, fun _ => same⟩
      · have reread : Reread s { s with
            configured := (s.configured.moduleRuntime setting).2 } :=
          ⟨moduleRuntime_client s.configured setting, rfl, rfl, rfl, rfl, rfl, rfl⟩
        exact ⟨sound.reread reread, fun _ => reread.sameSetup⟩
  | reportEmptyEvent now =>
      rw [ClientInstance.step]
      split
      · exact ⟨sound, fun _ => same⟩
      · next thread =>
          obtain ⟨sound', kept⟩ :=
            sound.reportEvent (sound.initialized thread) [] 0 (bytes "T") now
          exact ⟨sound', fun _ => kept⟩
  | pop =>
      rw [ClientInstance.step]
      split
      · exact ⟨sound, fun _ => same⟩
      · next thread =>
          have initialized := sound.initialized thread
          cases queue : s.client.submitQueue with
          | nil => exact ⟨sound, fun _ => same⟩
          | cons report rest =>
              refine ⟨⟨sound.threads, ?_, sound.complete, ?_⟩, fun _ => ⟨rfl, rfl, rfl, rfl, rfl⟩⟩
              · intro fresh
                exact absurd (initialized.symm.trans fresh) (by decide)
              · intro other inside
                apply sound.carried other
                change other ∈ (s.reported ++ [report]) ++ rest at inside
                rw [queue]
                rwa [List.append_assoc] at inside

/-- The service that a step names, if the client still takes one. -/
def names (s : ClientInstance) : Action → List Bytes
  | .init call _ =>
      if s.alreadyInitialized then [] else (s.given call).toList.filter fun name => name ≠ []
  | _ => []

/-- A step leaves the service that it names, or the one that was there. -/
theorem service_step (sound : Sound s) (a : Action) :
    (s.step a).client.service = ((s.names a).getLast?).getD s.client.service := by
  cases initialized : s.alreadyInitialized with
  | true =>
      have none : s.names a = [] := by
        cases a with
        | init call pong => exact if_pos initialized
        | _ => rfl
      rw [none]
      exact ((sound.step a).2 initialized).service
  | false =>
      cases a with
      | init call pong =>
          have fresh : ¬ s.alreadyInitialized = true := by
            rw [initialized]
            exact Bool.false_ne_true
          obtain ⟨t, reread, ⟨none, failed⟩ | ⟨service, entityIdx, addr, port, some, result⟩⟩ :=
            s.init_cases call pong
          · rw [step, failed, names, if_neg fresh, none]
            exact reread.sameSetup.service
          · have old : t.client.service = s.client.service := reread.sameSetup.service
            have renamed : (t.initWith service entityIdx addr port pong).2.client.service =
                if service ≠ [] then service else t.client.service := by
              rcases t.initWith_cases service entityIdx addr port pong with
                ⟨started, _⟩ | ⟨_, ⟨agent, failed⟩ | ⟨_, _, _, started⟩⟩
              · exact absurd (reread.alreadyInitialized.symm.trans started) fresh
              · rw [failed]
                rfl
              · rw [started]
                rfl
            rw [step, result, renamed, names, if_neg fresh, some, old]
            by_cases empty : service = []
            · simp [empty]
            · simp [empty]
      | reportEvent r =>
          rw [step, ClientInstance.reportEvent, initialized]
          rfl
      | moduleRuntime setting =>
          rw [step, ClientInstance.moduleRuntime, initialized]
          rfl
      | reportEmptyEvent now =>
          rw [step, if_pos]
          · rfl
          · rw [sound.threads, initialized]
            rfl
      | pop =>
          rw [step, if_pos]
          · rfl
          · rw [sound.threads, initialized]
            rfl

theorem service_run (sound : Sound s) (actions : List Action) :
    (run step s actions).client.service =
      ((movesOf step names s actions).getLast?).getD s.client.service := by
  induction actions generalizing s with
  | nil => rfl
  | cons a actions ih =>
      rw [run_cons, ih (sound.step a).1, service_step sound a, movesOf, List.getLast?_append]
      cases (movesOf step names (s.step a) actions).getLast? with
      | none => rfl
      | some name => rfl

theorem sound_run (sound : Sound s) (actions : List Action) :
    Sound (run step s actions) :=
  run_invariant (fun _ a sound => (sound.step a).1) sound actions

theorem sound_start (program : Bytes) : Sound (start program) := by
  constructor
  · rfl
  · intro _
    exact ⟨rfl, rfl, rfl⟩
  · intro impossible
    cases impossible
  · intro report inside
    cases inside

theorem sameSetup_run (sound : Sound s) (initialized : s.alreadyInitialized = true)
    (actions : List Action) : SameSetup s (run step s actions) := by
  have both : Sound (run step s actions) ∧ SameSetup s (run step s actions) := by
    refine run_invariant (P := fun t => Sound t ∧ SameSetup s t) ?_
      ⟨sound, .refl s⟩ actions
    rintro t a ⟨soundT, same⟩
    obtain ⟨sound', kept⟩ := soundT.step a
    exact ⟨sound', same.trans (kept (same.alreadyInitialized.trans initialized))⟩
  exact both.2

/-- In every run of calls of `init`, of the public functions and of the submit thread: there
is one submit thread once a call of `init` has succeeded and none before, no event is taken
before, every report carries the service and the entity of the client, the service is the
last one that a call of `init` has named up to the first success, and after that success
nothing that `init` sets changes any more. -/
theorem set_up_once (program : Bytes) (actions : List Action) :
    let s := run step (start program) actions
    Sound s ∧
      s.client.service =
        ((movesOf step names (start program) actions).getLast?).getD program ∧
      ∀ more, s.alreadyInitialized = true → SameSetup s (run step s more) := by
  intro s
  have sound : Sound s := sound_run (sound_start program) actions
  refine ⟨sound, service_run (sound_start program) actions, ?_⟩
  intro more initialized
  exact sameSetup_run sound initialized more

/-- A call that fails for its address names the client of the next one, and a third call
changes nothing any more. -/
theorem set_up_once_third :
    let direct (service addr : String) : Action :=
      .init (.direct (bytes service) [] (bytes addr) 8300) true
    let s := run step (start (bytes "prog")) [direct "svc" "", direct "" "host"]
    s.client.service = bytes "svc" ∧ SameSetup s (run step s [direct "other" "elsewhere"]) :=
  ⟨by decide, (set_up_once (bytes "prog") _).2.2 _ (by decide)⟩

end ClientInstance

end Heracles.Client
