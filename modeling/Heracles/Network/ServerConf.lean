import Heracles.Base.Text
import Heracles.Network.NetConf
import Heracles.Network.TcpConnAsync

/-!
The settings of the network server.

`load_conf` checks the `rpc.network` section and loads it over the values that
are there; a setting that is absent keeps its value. `module_runtime` loads it
into a fresh object and then copies members one by one, and three of the settings
that may change at run time are not among them. `applied_or_kept_iff` says for
which configurations that makes no difference.
-/

namespace Heracles.Network

open Heracles.Base

/-- What `lookupValue` finds in the `rpc.network` section. -/
structure NetworkSection where
  bindAddr : Option Bytes
  bindPort : Option Int32
  safeIp : Option Bytes
  backlogSize : Option Int32
  ioThreadPoolSize : Option Int32
  opsCancelTimeOut : Option Int32
  sessionCancelTimeOut : Option Int32
  serviceEnable : Option Bool
  serviceSpeed : Option Int32
  serviceConcurrency : Option Int32
  sendMaxMsgSize : Option Int32
  recvMaxMsgSize : Option Int32
  deriving DecidableEq

/-- All members of `NetConf`. -/
structure ServerConf extends NetConf where
  serviceConcurrency : Int32
  sessionCancelTimeOut : Int32
  opsCancelTimeOut : Int32
  sendMaxMsgSize : Int32
  recvMaxMsgSize : Int32
  bindAddr : Bytes
  bindPort : Int32
  safeIp : Finset Bytes
  backlogSize : Int32
  ioThreadNumber : Int32
  deriving DecidableEq

/-- `trim_copy`. -/
def trimCopy (s : Bytes) : Bytes := ((s.dropWhile isSpace).reverse.dropWhile isSpace).reverse

/-- The addresses of a list separated by `;`, without the empty ones. -/
def ipSet (ipList : Bytes) : Finset Bytes :=
  (((ipList.splitOn 59).map trimCopy).filter fun ip => ip ≠ []).toFinset

/-- The sizes that are refused. -/
def TooSmall (maxMsgSize : Int32) : Prop := maxMsgSize ≠ 0 ∧ maxMsgSize ≤ 32

instance instDecidableTooSmall (maxMsgSize : Int32) : Decidable (TooSmall maxMsgSize) :=
  inferInstanceAs (Decidable (_ ∧ _))

namespace ServerConf

/-- The default constructor. -/
def fresh : ServerConf where
  serviceEnabled := true
  serviceSpeed := 0
  serviceToken := 0
  timedFeedToken := false
  feedTimer := Timer.fresh
  serviceConcurrency := 0
  sessionCancelTimeOut := 0
  opsCancelTimeOut := 0
  sendMaxMsgSize := 0
  recvMaxMsgSize := 0
  bindAddr := []
  bindPort := 0
  safeIp := ∅
  backlogSize := 10
  ioThreadNumber := 1

/-- `load_conf`; `none` when a setting is refused. -/
def loadConf (c : ServerConf) (cfg : NetworkSection) : Option ServerConf :=
  let c := { c with
    bindAddr := cfg.bindAddr.getD c.bindAddr, bindPort := cfg.bindPort.getD c.bindPort }
  if c.bindAddr = [] ∨ c.bindPort ≤ 0 then none
  else
    let ipList := cfg.safeIp.getD []
    let c := { c with safeIp := if ipList = [] then c.safeIp else ipSet ipList }
    let c := { c with backlogSize := cfg.backlogSize.getD c.backlogSize }
    if c.backlogSize < 0 then none
    else
      let c := { c with ioThreadNumber := cfg.ioThreadPoolSize.getD c.ioThreadNumber }
      if c.ioThreadNumber < 0 then none
      else
        let c := { c with opsCancelTimeOut := cfg.opsCancelTimeOut.getD c.opsCancelTimeOut }
        if c.opsCancelTimeOut < 0 then none
        else
          let c := { c with
            sessionCancelTimeOut := cfg.sessionCancelTimeOut.getD c.sessionCancelTimeOut }
          if c.sessionCancelTimeOut < 0 then none
          else
            let c := { c with
              serviceEnabled := cfg.serviceEnable.getD c.serviceEnabled
              serviceSpeed := cfg.serviceSpeed.getD c.serviceSpeed }
            if c.serviceSpeed < 0 then none
            else
              let c := { c with
                serviceConcurrency := cfg.serviceConcurrency.getD c.serviceConcurrency }
              if c.serviceConcurrency < 0 then none
              else
                let c := { c with
                  sendMaxMsgSize := cfg.sendMaxMsgSize.getD c.sendMaxMsgSize
                  recvMaxMsgSize := cfg.recvMaxMsgSize.getD c.recvMaxMsgSize }
                if TooSmall c.sendMaxMsgSize ∨ TooSmall c.recvMaxMsgSize then none
                else some c

/-- `NetServer::init` as far as the settings go. -/
def init (cfg : NetworkSection) : Option ServerConf :=
  (fresh.loadConf cfg).map fun c =>
    if c.serviceSpeed ≠ 0 then { c with toNetConf := c.toNetConf.resetTimer } else c

/-- `NetServer::module_runtime`: its result and what it leaves. The tests for a
difference that guard plain assignments only decide about a line of the log. -/
def moduleRuntime (c : ServerConf) (cfg : NetworkSection) : Int32 × ServerConf :=
  match fresh.loadConf cfg with
  | none => (-1, c)
  | some conf =>
      let c := { c with sessionCancelTimeOut := conf.sessionCancelTimeOut }
      let c := { c with opsCancelTimeOut := conf.opsCancelTimeOut }
      let c := { c with safeIp := conf.safeIp }
      let c := { c with toNetConf := c.toNetConf.moduleRuntime conf.serviceSpeed }
      let c := { c with serviceConcurrency := conf.serviceConcurrency }
      (0, c)

/-- What connections read. -/
def toNetServer (c : ServerConf) : NetServer :=
  ⟨c.sendMaxMsgSize, c.recvMaxMsgSize, c.opsCancelTimeOut⟩

/-- `check_safe_ip`. -/
def checkSafeIp (c : ServerConf) (ip : Bytes) : Bool := c.safeIp = ∅ ∨ ip ∈ c.safeIp

/-! ### What loading gives -/

/-- The settings of the section over those of `c`. -/
def overlay (c : ServerConf) (cfg : NetworkSection) : ServerConf where
  serviceEnabled := cfg.serviceEnable.getD c.serviceEnabled
  serviceSpeed := cfg.serviceSpeed.getD c.serviceSpeed
  serviceToken := c.serviceToken
  timedFeedToken := c.timedFeedToken
  feedTimer := c.feedTimer
  serviceConcurrency := cfg.serviceConcurrency.getD c.serviceConcurrency
  sessionCancelTimeOut := cfg.sessionCancelTimeOut.getD c.sessionCancelTimeOut
  opsCancelTimeOut := cfg.opsCancelTimeOut.getD c.opsCancelTimeOut
  sendMaxMsgSize := cfg.sendMaxMsgSize.getD c.sendMaxMsgSize
  recvMaxMsgSize := cfg.recvMaxMsgSize.getD c.recvMaxMsgSize
  bindAddr := cfg.bindAddr.getD c.bindAddr
  bindPort := cfg.bindPort.getD c.bindPort
  safeIp := if cfg.safeIp.getD [] = [] then c.safeIp else ipSet (cfg.safeIp.getD [])
  backlogSize := cfg.backlogSize.getD c.backlogSize
  ioThreadNumber := cfg.ioThreadPoolSize.getD c.ioThreadNumber

/-- The settings that `load_conf` lets pass. -/
structure Valid (c : ServerConf) : Prop where
  bindAddr : c.bindAddr ≠ []
  bindPort : ¬ c.bindPort ≤ 0
  backlogSize : ¬ c.backlogSize < 0
  ioThreadNumber : ¬ c.ioThreadNumber < 0
  opsCancelTimeOut : ¬ c.opsCancelTimeOut < 0
  sessionCancelTimeOut : ¬ c.sessionCancelTimeOut < 0
  serviceSpeed : ¬ c.serviceSpeed < 0
  serviceConcurrency : ¬ c.serviceConcurrency < 0
  sendMaxMsgSize : ¬ TooSmall c.sendMaxMsgSize
  recvMaxMsgSize : ¬ TooSmall c.recvMaxMsgSize

/-- What is loaded is checked as a whole. -/
theorem loadConf_eq_some {c : ServerConf} {cfg : NetworkSection} {loaded : ServerConf} :
    c.loadConf cfg = some loaded ↔ Valid (c.overlay cfg) ∧ c.overlay cfg = loaded := by
  simp only [loadConf, ite_eq_iff, reduceCtorEq, and_false, false_or, not_or]
  constructor
  · rintro ⟨⟨addr, port⟩, backlog, threads, ops, session, speed, concurrency, ⟨send, recv⟩, same⟩
    exact ⟨⟨addr, port, backlog, threads, ops, session, speed, concurrency, send, recv⟩,
      Option.some.inj same⟩
  · rintro ⟨valid, same⟩
    exact ⟨⟨valid.bindAddr, valid.bindPort⟩, valid.backlogSize, valid.ioThreadNumber,
      valid.opsCancelTimeOut, valid.sessionCancelTimeOut, valid.serviceSpeed,
      valid.serviceConcurrency, ⟨valid.sendMaxMsgSize, valid.recvMaxMsgSize⟩, congrArg some same⟩

/-- A server starts with the limit on accepts that `NetConf.init` describes. -/
theorem init_toNetConf {cfg : NetworkSection} {c : ServerConf} (started : init cfg = some c) :
    c.toNetConf = NetConf.init c.serviceEnabled c.serviceSpeed := by
  obtain ⟨loaded, load, rfl⟩ := Option.map_eq_some_iff.mp started
  obtain ⟨_, rfl⟩ := loadConf_eq_some.mp load
  unfold NetConf.init
  by_cases limited : (fresh.overlay cfg).serviceSpeed ≠ 0
  · simp only [if_pos limited, NetConf.resetTimer]
    rfl
  · simp only [if_neg limited]
    rfl

/-- Loading at run time treats the limit on accepts as `NetConf` says. -/
theorem moduleRuntime_toNetConf {c : ServerConf} {cfg : NetworkSection} {loaded : ServerConf}
    (load : fresh.loadConf cfg = some loaded) :
    (c.moduleRuntime cfg).2.toNetConf = c.toNetConf.moduleRuntime loaded.serviceSpeed := by
  rw [moduleRuntime, load]

/-! ### The settings that may change at run time -/

/-- The settings that the example configuration marks as dynamic. -/
structure Dynamic where
  safeIp : Finset Bytes
  sessionCancelTimeOut : Int32
  opsCancelTimeOut : Int32
  serviceEnable : Bool
  serviceSpeed : Int32
  serviceConcurrency : Int32
  sendMaxMsgSize : Int32
  recvMaxMsgSize : Int32
  deriving DecidableEq

def dynamic (c : ServerConf) : Dynamic where
  safeIp := c.safeIp
  sessionCancelTimeOut := c.sessionCancelTimeOut
  opsCancelTimeOut := c.opsCancelTimeOut
  serviceEnable := c.serviceEnabled
  serviceSpeed := c.serviceSpeed
  serviceConcurrency := c.serviceConcurrency
  sendMaxMsgSize := c.sendMaxMsgSize
  recvMaxMsgSize := c.recvMaxMsgSize

/-- `module_runtime` fails and changes nothing, or returns 0 and leaves every
dynamic setting as a fresh server has it. -/
def AppliedOrKept (c : ServerConf) (cfg : NetworkSection) : Prop :=
  ((c.moduleRuntime cfg).1 ≠ 0 ∧ (c.moduleRuntime cfg).2 = c) ∨
    ((c.moduleRuntime cfg).1 = 0 ∧ ∃ loaded, fresh.loadConf cfg = some loaded ∧
      (c.moduleRuntime cfg).2.dynamic = loaded.dynamic)

/-- The three settings that `module_runtime` does not copy. -/
def fixed (c : ServerConf) : Bool × Int32 × Int32 :=
  (c.serviceEnabled, c.sendMaxMsgSize, c.recvMaxMsgSize)

/-- The limit on accepts takes over the speed and nothing else that is a setting. -/
theorem moduleRuntime_settings (c : NetConf) {serviceSpeed : Int32}
    (valid : ¬ serviceSpeed < 0) :
    (c.moduleRuntime serviceSpeed).serviceSpeed = serviceSpeed ∧
      (c.moduleRuntime serviceSpeed).serviceEnabled = c.serviceEnabled := by
  rw [NetConf.moduleRuntime, if_neg valid]
  split
  · next same => exact ⟨same, rfl⟩
  · split
    · exact ⟨rfl, rfl⟩
    · dsimp only
      split
      · exact ⟨rfl, rfl⟩
      · exact ⟨rfl, rfl⟩

/-- An accepted configuration gives its dynamic settings but for the fixed ones,
which stay. -/
theorem dynamic_moduleRuntime {c : ServerConf} {cfg : NetworkSection} {loaded : ServerConf}
    (load : fresh.loadConf cfg = some loaded) :
    (c.moduleRuntime cfg).2.dynamic = { loaded.dynamic with
      serviceEnable := c.serviceEnabled
      sendMaxMsgSize := c.sendMaxMsgSize
      recvMaxMsgSize := c.recvMaxMsgSize } := by
  obtain ⟨valid, rfl⟩ := loadConf_eq_some.mp load
  obtain ⟨speed, enabled⟩ := moduleRuntime_settings c.toNetConf valid.serviceSpeed
  simp only [moduleRuntime, load, dynamic, speed, enabled]

/-- Connections see another time-out and the sizes they have seen before. -/
theorem toNetServer_moduleRuntime {c : ServerConf} {cfg : NetworkSection} {loaded : ServerConf}
    (load : fresh.loadConf cfg = some loaded) :
    (c.moduleRuntime cfg).2.toNetServer =
      { c.toNetServer with opsCancelTimeOut := loaded.opsCancelTimeOut } := by
  rw [moduleRuntime, load]
  rfl

/-- No configuration that is loaded later changes the fixed settings. -/
theorem fixed_moduleRuntime (c : ServerConf) (cfg : NetworkSection) :
    (c.moduleRuntime cfg).2.fixed = c.fixed := by
  cases load : fresh.loadConf cfg with
  | none => rw [moduleRuntime, load]
  | some loaded =>
      obtain ⟨valid, rfl⟩ := loadConf_eq_some.mp load
      have enabled := (moduleRuntime_settings c.toNetConf valid.serviceSpeed).2
      simp only [moduleRuntime, load, fixed, enabled]

theorem fixed_run (c : ServerConf) (cfgs : List NetworkSection) :
    (run (fun c cfg => (moduleRuntime c cfg).2) c cfgs).fixed = c.fixed :=
  run_invariant (P := fun c' => c'.fixed = c.fixed)
    (fun c' cfg same => (fixed_moduleRuntime c' cfg).trans same) rfl cfgs

/-- A configuration is applied as a whole or not at all exactly when it is refused
or agrees with the server in the three settings that are not copied. -/
theorem applied_or_kept_iff (c : ServerConf) (cfg : NetworkSection) :
    AppliedOrKept c cfg ↔
      fresh.loadConf cfg = none ∨
        (cfg.serviceEnable.getD true = c.serviceEnabled ∧
          cfg.sendMaxMsgSize.getD 0 = c.sendMaxMsgSize ∧
            cfg.recvMaxMsgSize.getD 0 = c.recvMaxMsgSize) := by
  cases load : fresh.loadConf cfg with
  | none =>
      refine iff_of_true (Or.inl ?_) (Or.inl rfl)
      rw [moduleRuntime, load]
      refine ⟨?_, rfl⟩
      change (-1 : Int32) ≠ 0
      decide
  | some loaded =>
      have ret : (c.moduleRuntime cfg).1 = 0 := by rw [moduleRuntime, load]
      have copied := dynamic_moduleRuntime (c := c) load
      obtain ⟨_, rfl⟩ := loadConf_eq_some.mp load
      constructor
      · rintro (⟨failed, _⟩ | ⟨_, loaded, same, applied⟩)
        · exact absurd ret failed
        · obtain rfl := Option.some.inj (load.symm.trans same)
          rw [copied] at applied
          injection applied with _ _ _ enable _ _ send recv
          exact Or.inr ⟨enable.symm, send.symm, recv.symm⟩
      · rintro (never | ⟨enable, send, recv⟩)
        · cases never
        · refine Or.inr ⟨ret, _, load, copied.trans ?_⟩
          rw [← enable, ← send, ← recv]
          rfl

/-- A section with an address and a port and, if at all, `service_enable`. -/
private def sectionWith (serviceEnable : Option Bool) : NetworkSection :=
  { bindAddr := some (bytes "0.0.0.0")
    bindPort := some 8435
    safeIp := none
    backlogSize := none
    ioThreadPoolSize := none
    opsCancelTimeOut := none
    sessionCancelTimeOut := none
    serviceEnable := serviceEnable
    serviceSpeed := none
    serviceConcurrency := none
    sendMaxMsgSize := none
    recvMaxMsgSize := none }

/-- A running server is not disabled by `service_enable = false`. -/
theorem service_enable_kept :
    ¬ ∀ cfg₀ c cfg, init cfg₀ = some c → AppliedOrKept c cfg := by
  intro always
  have started : init (sectionWith none) = some (fresh.overlay (sectionWith none)) := by
    decide +kernel
  rcases always _ _ (sectionWith (some false)) started with ⟨failed, _⟩ | ⟨_, _, load, applied⟩
  · exact failed (by decide +kernel)
  · have loaded : fresh.loadConf (sectionWith (some false)) =
        some (fresh.overlay (sectionWith (some false))) := by
      decide +kernel
    obtain rfl := Option.some.inj (loaded.symm.trans load)
    have enabled := congrArg Dynamic.serviceEnable applied
    exact absurd enabled (by decide +kernel)

end ServerConf

end Heracles.Network
