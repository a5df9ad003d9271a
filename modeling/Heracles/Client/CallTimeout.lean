import Heracles.Client.RpcClientImpl

/-!
A timeout and the call it belongs to.

The timer is armed per call but nothing disarms it when the call returns or drops
its connection, and `was_timeout_` is cleared only by a call that arms the timer.
`Prompt` says of a step that neither shows; `own_timeout_iff` that the runs whose
steps are all prompt are exactly those in which a timeout touches its own call
only. The invariant is `Armed`: while a call runs, `was_timeout_` and the queued
completions that bear its number go back to an expiry during that call.
-/

namespace Heracles.Client

open Heracles.Base
open Heracles.Core
open Heracles.Network
open Heracles.Rpc

/-- The timer and what is queued of it, whether or not one has been created. -/
def RpcClientImpl.timer (c : RpcClientImpl) : Timer Nat := c.rpcCallTimer.getD Timer.fresh

theorem RpcClientImpl.completion_eq (c : RpcClientImpl) (i : Nat) :
    c.completion i = c.timer.queued[i]? := by
  rw [completion, timer]
  cases c.rpcCallTimer with
  | none => rfl
  | some timer => rfl

/-- The response answers the call's service and operation. -/
def Call.Answers (call : Call) (header : RpcResponseHeader) : Prop :=
  header.magic = kRpcHeaderMagic ∧ header.serviceId = call.serviceId ∧ header.opcode = call.opcode

namespace Caller

/-- A timeout shows in its own call only: an expiry never finds `conn_` null, the
timer of a call that has returned changes nothing, and a call that returns
`RPC_CALL_TIMEOUT` has seen its own timer expire. -/
structure OwnTimeout (s : Caller) (a : Action) : Prop where
  connected : (s.step a).crashed = false
  late : ∀ i number ec, a = .handler i → s.client.completion i = some (number, ec) →
    ¬s.Running number →
      (s.step a).client.wasTimeout = s.client.wasTimeout ∧
        (s.step a).client.conn = s.client.conn
  timeout : ∀ r, (s.step a).returned = s.returned ++ [r] →
    r.status = RpcClientStatus.RPC_CALL_TIMEOUT → s.expired = true

/-- A timer that has expired finds its call still in progress and connected, or
finds nothing left to do; no call without a timeout fails while `was_timeout_` is
set; and no response that a call accepts bears the status byte of a timeout. -/
def Prompt (s : Caller) : Action → Prop
  | .handler i =>
      ∀ number, s.client.completion i = some (number, .success) →
        ∃ conn, s.client.conn = some conn ∧
          (s.Running number ∨ s.client.wasTimeout = true ∧ conn.connStat = .kClosed)
  | .fail =>
      ∀ call status, s.progress = .failed call status → call.timeoutSec = 0 →
        s.client.wasTimeout = false
  | .recv offers =>
      ∀ call conn netMessage conn' socket response, s.progress = .sent call →
        s.client.conn = some conn →
        conn.recvNetMessage ⟨s.peer.undelivered, offers, 0⟩ Message.empty =
          some (true, netMessage, conn', socket) →
        RpcResponseMessage.parse netMessage.payload = some response →
        call.Answers response.header →
        response.header.status.code = RpcClientStatus.RPC_CALL_TIMEOUT.code → s.expired = true
  | _ => True

/-! ### The running call and its timer -/

/-- No timer has been armed for the running call. -/
def Untimed : Progress → Prop
  | .idle => False
  | .connected _ => True
  | .armed call | .sent call | .failed call _ => call.timeoutSec = 0

/-- A timer has been armed for the running call. -/
def Timed : Progress → Prop
  | .idle | .connected _ => False
  | .armed call | .sent call | .failed call _ => call.timeoutSec ≠ 0

structure Armed (s : Caller) : Prop where
  alive : s.crashed = false
  begun : ∀ number ∈ s.client.timer.labels, number ≤ s.calls
  untimed : Untimed s.progress → s.calls ∉ s.client.timer.labels ∧ s.expired = false
  timed : Timed s.progress → s.client.wasTimeout = true → s.expired = true
  queued : s.progress ≠ .idle → (s.calls, ErrorCode.success) ∈ s.client.timer.queued →
    s.expired = true

/-- A step of the call itself: the timer, its flag and the call stay. -/
structure Onward (s s' : Caller) : Prop where
  timer : s'.client.rpcCallTimer = s.client.rpcCallTimer
  wasTimeout : s'.client.wasTimeout = s.client.wasTimeout
  calls : s'.calls = s.calls
  expired : s'.expired = s.expired
  crashed : s'.crashed = s.crashed
  untimed : Untimed s'.progress → Untimed s.progress
  timed : Timed s'.progress → Timed s.progress
  running : s'.progress ≠ .idle → s.progress ≠ .idle

theorem Onward.refl (s : Caller) : Onward s s :=
  ⟨rfl, rfl, rfl, rfl, rfl, id, id, id⟩


theorem Armed.onward {s s' : Caller} (armed : Armed s) (onward : Onward s s') : Armed s' := by
  have timer : s'.client.timer = s.client.timer := by
    rw [RpcClientImpl.timer, RpcClientImpl.timer, onward.timer]
  constructor
  · exact onward.crashed.trans armed.alive
  · rw [timer, onward.calls]
    exact armed.begun
  · intro untimed
    rw [timer, onward.calls, onward.expired]
    exact armed.untimed (onward.untimed untimed)
  · intro timed flag
    rw [onward.expired]
    rw [onward.wasTimeout] at flag
    exact armed.timed (onward.timed timed) flag
  · intro running mem
    rw [timer, onward.calls] at mem
    rw [onward.expired]
    exact armed.queued (onward.running running) mem

/-- A failed call drops its connection and keeps its timer. -/
theorem onward_drop {s : Caller} {call : Call} (sent : s.progress = .sent call)
    (status : RpcClientStatus) : Onward s (s.drop call status) where
  timer := rfl
  wasTimeout := rfl
  calls := rfl
  expired := rfl
  crashed := rfl
  untimed := by
    rw [sent]
    exact id
  timed := by
    rw [sent]
    exact id
  running := by simp [sent]

theorem onward_send (s : Caller) (fault : Option (Nat × SocketError)) :
    Onward s (s.send fault) := by
  rcases s.send_cases fault with same | ⟨call, conn, ok, conn', sink, progress, _, _, next⟩
  · rw [same]
    exact Onward.refl s
  · rw [next]
    refine ⟨rfl, rfl, rfl, rfl, rfl, ?_, ?_, by simp [progress]⟩
    · intro untimed
      rw [progress]
      cases ok with
      | true => exact untimed
      | false => exact untimed
    · intro timed
      rw [progress]
      cases ok with
      | true => exact timed
      | false => exact timed

theorem onward_recv (s : Caller) (offers : Nat → Nat) : Onward s (s.recv offers) := by
  rcases s.recv_cases offers with same | ⟨call, conn, progress, _, outcome⟩
  · rw [same]
    exact Onward.refl s
  · rcases outcome with ⟨_, _, _, _, next⟩ | next
    · rw [next]
      exact ⟨rfl, rfl, rfl, rfl, rfl, False.elim, False.elim, fun running => absurd rfl running⟩
    · rw [next]
      exact onward_drop progress _

theorem onward_recvError (s : Caller) (ec : SocketError) : Onward s (s.recvError ec) := by
  rcases s.recvError_cases ec with same | ⟨call, conn, progress, _, next⟩
  · rw [same]
    exact Onward.refl s
  · rw [next]
    exact onward_drop progress _

theorem onward_fail (s : Caller) : Onward s s.fail := by
  rcases s.fail_cases with same | ⟨call, status, _, next⟩
  · rw [same]
    exact Onward.refl s
  · rw [next]
    exact ⟨rfl, rfl, rfl, rfl, rfl, False.elim, False.elim, fun running => absurd rfl running⟩

theorem onward_respond (s : Caller) (i : Nat) (response : Response) :
    Onward s (s.respond i response) := by
  rw [respond]
  split
  · exact ⟨rfl, rfl, rfl, rfl, rfl, id, id, id⟩
  · exact Onward.refl s

/-! ### The invariant, step by step -/

/-- A new call has a number no timer bears yet. -/
theorem Armed.enter {s : Caller} (armed : Armed s) (call : Call) (connects : Bool) :
    Armed (s.enter call connects) := by
  have begun : ∀ number ∈ s.client.timer.labels, number ≤ s.calls + 1 :=
    fun number mem => (armed.begun number mem).trans (Nat.le_succ _)
  have new : s.calls + 1 ∉ s.client.timer.labels := fun mem =>
    absurd (armed.begun _ mem) (Nat.not_succ_le_self _)
  have unqueued : (s.calls + 1, ErrorCode.success) ∉ s.client.timer.queued := fun mem =>
    new (Timer.mem_labels.mpr (Or.inr ⟨_, mem⟩))
  rcases s.enter_cases call connects with same | ⟨_, ⟨_, _, next⟩ | ⟨_, next⟩ | ⟨_, next⟩⟩
  · rw [same]
    exact armed
  · rw [next]
    exact ⟨armed.alive, begun, fun _ => ⟨new, rfl⟩, False.elim, fun _ mem => absurd mem unqueued⟩
  · rw [next]
    exact ⟨armed.alive, begun, fun _ => ⟨new, rfl⟩, False.elim, fun _ mem => absurd mem unqueued⟩
  · rw [next]
    exact ⟨armed.alive, begun, False.elim, False.elim, fun _ mem => absurd mem unqueued⟩

theorem timer_setRpcCallTimeout {c : RpcClientImpl} {number : Nat} {sec : UInt32} (timed : sec ≠ 0) :
    (c.setRpcCallTimeout number sec).timer = c.timer.rearm number := by
  rw [RpcClientImpl.setRpcCallTimeout, if_neg timed]
  rfl

theorem Armed.arm {s : Caller} (armed : Armed s) : Armed s.arm := by
  rcases s.arm_cases with same | ⟨call, progress, next⟩
  · rw [same]
    exact armed
  · have before : Untimed s.progress := by
      rw [progress]
      trivial
    obtain ⟨unarmed, unexpired⟩ := armed.untimed before
    rw [next]
    by_cases timed : call.timeoutSec = 0
    · have zero : ¬0 < call.timeoutSec := by
        rw [timed]
        decide
      rw [if_neg zero]
      exact ⟨armed.alive, armed.begun, fun _ => ⟨unarmed, unexpired⟩, fun has => absurd timed has,
        fun _ mem => armed.queued (by simp [progress]) mem⟩
    · have positive : 0 < call.timeoutSec := UInt32.pos_iff_ne_zero.mpr timed
      rw [if_pos positive]
      constructor
      · exact armed.alive
      · intro number mem
        rw [timer_setRpcCallTimeout timed] at mem
        rcases Timer.mem_labels_rearm mem with rfl | old
        · exact Nat.le_refl _
        · exact armed.begun number old
      · intro untimed
        exact absurd untimed timed
      · intro _ flag
        rw [RpcClientImpl.setRpcCallTimeout, if_neg timed] at flag
        cases flag
      · intro _ mem
        rw [timer_setRpcCallTimeout timed, Timer.queued_rearm, Timer.cancel,
          Timer.mem_queued_complete] at mem
        rcases mem with old | ⟨_, code⟩
        · exact absurd (Timer.mem_labels.mpr (Or.inr ⟨_, old⟩)) unarmed
        · cases code

theorem Armed.expire {s : Caller} (armed : Armed s) : Armed s.expire := by
  rw [Caller.expire]
  cases created : s.client.rpcCallTimer with
  | none => exact armed
  | some timer =>
      have same : s.client.timer = timer := by rw [RpcClientImpl.timer, created]; rfl
      constructor
      · exact armed.alive
      · intro number mem
        refine armed.begun number ?_
        rw [same]
        exact Timer.mem_labels_complete mem
      · intro untimed
        obtain ⟨unarmed, unexpired⟩ := armed.untimed untimed
        rw [same] at unarmed
        refine ⟨fun mem => unarmed (Timer.mem_labels_complete mem), ?_⟩
        simp only [unexpired, Bool.false_or, List.any_eq_false, decide_eq_true_eq]
        rintro number pending ⟨_, rfl⟩
        exact unarmed (Timer.mem_labels.mpr (Or.inl pending))
      · intro timed flag
        simp only [armed.timed timed flag, Bool.true_or]
      · intro running mem
        rcases Timer.mem_queued_complete.mp mem with old | ⟨pending, _⟩
        · have before := armed.queued running (by rwa [same])
          simp only [before, Bool.true_or]
        · have own : (timer.pending.any fun number => decide (s.Running number)) = true :=
            List.any_eq_true.mpr ⟨s.calls, pending, decide_eq_true ⟨running, rfl⟩⟩
          simp only [own, Bool.or_true]

theorem Armed.handler {s : Caller} (armed : Armed s) {i : Nat} (prompt : s.Prompt (.handler i)) :
    Armed (s.handler i) := by
  have taken : ∀ timer, s.client.rpcCallTimer = some timer →
      (∀ number ∈ (timer.take i).labels, number ∈ s.client.timer.labels) ∧
        ∀ c ∈ (timer.take i).queued, c ∈ s.client.timer.queued := by
    intro timer created
    have same : s.client.timer = timer := by rw [RpcClientImpl.timer, created]; rfl
    rw [same]
    exact ⟨fun number => Timer.mem_labels_take, fun c => Timer.mem_queued_take⟩
  rcases s.handler_cases i with ⟨_, same⟩ | ⟨number, timer, ⟨_, created, next⟩ |
    ⟨queued, created, ⟨held, _⟩ | ⟨conn, held, next⟩⟩⟩
  · rw [same]
    exact armed
  · obtain ⟨labels, fewer⟩ := taken timer created
    rw [next]
    exact ⟨armed.alive, fun number mem => armed.begun number (labels number mem),
      fun untimed => ⟨fun mem => (armed.untimed untimed).1 (labels _ mem),
        (armed.untimed untimed).2⟩,
      armed.timed, fun running mem => armed.queued running (fewer _ mem)⟩
  · obtain ⟨conn, connected, _⟩ := prompt number queued
    rw [held] at connected
    cases connected
  · obtain ⟨labels, fewer⟩ := taken timer created
    have mem : (number, ErrorCode.success) ∈ s.client.timer.queued := by
      rw [RpcClientImpl.completion_eq] at queued
      exact List.mem_of_getElem? queued
    rw [next]
    refine ⟨armed.alive, fun number mem => armed.begun number (labels number mem),
      fun untimed => ⟨fun mem => (armed.untimed untimed).1 (labels _ mem),
        (armed.untimed untimed).2⟩, ?_, fun running mem => armed.queued running (fewer _ mem)⟩
    intro timed _
    obtain ⟨_, _, own | ⟨flag, _⟩⟩ := prompt number queued
    · obtain ⟨running, rfl⟩ := own
      exact armed.queued running mem
    · exact armed.timed timed flag

theorem Armed.step {s : Caller} {a : Action} (armed : Armed s) (prompt : s.Prompt a) :
    Armed (s.step a) := by
  rw [step_alive armed.alive]
  cases a with
  | enter call connects => exact armed.enter call connects
  | arm => exact armed.arm
  | send fault => exact armed.onward (onward_send s fault)
  | recv offers => exact armed.onward (onward_recv s offers)
  | recvError ec => exact armed.onward (onward_recvError s ec)
  | fail => exact armed.onward (onward_fail s)
  | expire => exact armed.expire
  | handler i => exact armed.handler prompt
  | respond i response => exact armed.onward (onward_respond s i response)

/-! ### What a step shows -/

/-- A step that runs no handler and returns nothing shows no timeout. -/
theorem OwnTimeout.silent {s : Caller} {a : Action} (alive : (s.step a).crashed = false)
    (other : ∀ i, a ≠ .handler i)
    (returns : ∀ r, (s.step a).returned = s.returned ++ [r] →
      r.status ≠ RpcClientStatus.RPC_CALL_TIMEOUT) : OwnTimeout s a where
  connected := alive
  late i _ _ handler _ _ := absurd handler (other i)
  timeout r new timeout := absurd timeout (returns r new)

theorem ownTimeout_enter {s : Caller} (armed : Armed s) (call : Call) (connects : Bool) :
    OwnTimeout s (.enter call connects) := by
  have next := (armed.enter call connects).alive
  refine OwnTimeout.silent (by rwa [step_alive armed.alive]) (fun i => by simp) ?_
  rw [step_alive armed.alive]
  intro r new
  have moved : (s.enter call connects).returned = s.returned ++ [r] := new
  rcases s.enter_cases call connects with same | ⟨_, ⟨_, _, same⟩ | ⟨_, same⟩ | ⟨_, same⟩⟩
  · rw [same] at moved
    exact absurd moved not_appended
  · rw [same] at moved
    exact absurd moved not_appended
  · rw [same] at moved
    exact absurd moved not_appended
  · rw [same] at moved
    rw [appended moved]
    have other : RpcClientStatus.NETWORK_CONNECT_ERROR ≠ RpcClientStatus.RPC_CALL_TIMEOUT := by
      decide
    exact other

theorem checkResponse_timeout {call : Call} {netMessage : Message} :
    (call.checkResponse netMessage).1 = RpcClientStatus.RPC_CALL_TIMEOUT ↔
      ∃ response, RpcResponseMessage.parse netMessage.payload = some response ∧
        call.Answers response.header ∧
        response.header.status.code = RpcClientStatus.RPC_CALL_TIMEOUT.code := by
  rw [Call.checkResponse]
  cases parsed : RpcResponseMessage.parse netMessage.payload with
  | none => simp [RpcClientStatus.RECV_FORMAT_ERROR, RpcClientStatus.RPC_CALL_TIMEOUT]
  | some response =>
      simp only [Option.some.injEq, exists_eq_left']
      by_cases foreign : response.header.magic ≠ kRpcHeaderMagic ∨
          response.header.serviceId ≠ call.serviceId ∨ response.header.opcode ≠ call.opcode
      · have unanswered : ¬call.Answers response.header := by
          rintro ⟨magic, service, opcode⟩
          rcases foreign with other | other | other
          · exact other magic
          · exact other service
          · exact other opcode
        rw [if_pos foreign]
        constructor
        · intro timeout
          cases timeout
        · intro answered
          exact absurd answered.1 unanswered
      · have answers : call.Answers response.header := by
          simp only [not_or, not_not] at foreign
          exact foreign
        rw [if_neg foreign]
        by_cases accepted : response.header.status = RpcResponseStatus.OK
        · rw [if_neg (not_not.mpr accepted), accepted]
          simp [RpcClientStatus.OK, RpcClientStatus.RPC_CALL_TIMEOUT, RpcResponseStatus.OK]
        · rw [if_pos accepted]
          constructor
          · intro timeout
            exact ⟨answers, congrArg RpcClientStatus.code timeout⟩
          · intro timeout
            exact congrArg RpcClientStatus.mk timeout.2

/-- Neither a handler nor a return. -/
theorem OwnTimeout.still {s : Caller} {a : Action} (alive : (s.step a).crashed = false)
    (other : ∀ i, a ≠ .handler i) (same : (s.step a).returned = s.returned) : OwnTimeout s a := by
  refine OwnTimeout.silent alive other fun r new => ?_
  rw [same] at new
  exact absurd new not_appended

theorem ownTimeout_recv {s : Caller} (armed : Armed s) (offers : Nat → Nat) :
    OwnTimeout s (.recv offers) ↔ s.Prompt (.recv offers) := by
  have alive : (s.step (.recv offers)).crashed = false := by
    rw [step_alive armed.alive]
    exact (onward_recv s offers).crashed.trans armed.alive
  have perform : s.step (.recv offers) = s.recv offers := step_alive armed.alive _
  constructor
  · intro own call conn netMessage conn' socket response sent held read parsed answers code
    rcases s.recv_cases offers with same | ⟨call', conn₁, sent', held', outcome⟩
    · have moved : s.recv offers ≠ s := by
        rw [recv, sent, held]
        simp only [read]
        intro same
        have idle := congrArg Caller.progress same
        rw [sent] at idle
        cases idle
      exact absurd same moved
    · cases sent.symm.trans sent'
      cases held.symm.trans held'
      rcases outcome with ⟨netMessage', conn₂, socket', read', next⟩ | next
      · cases read.symm.trans read'
        have status := checkResponse_timeout.mpr ⟨response, parsed, answers, code⟩
        refine own.timeout ⟨s.calls, call, (call.checkResponse netMessage).1,
          (call.checkResponse netMessage).2⟩ ?_ status
        rw [perform, next]
        rfl
      · have kept := congrArg Caller.progress next
        rw [recv, sent, held] at kept
        simp only [read] at kept
        cases kept
  · intro prompt
    refine ⟨alive, fun i _ _ handler => (by cases handler), ?_⟩
    rw [perform]
    intro r new timeout
    rcases s.recv_cases offers with same | ⟨call, conn, sent, held, outcome⟩
    · rw [same] at new
      exact absurd new not_appended
    · rcases outcome with ⟨netMessage, conn', socket, read, next⟩ | next
      · rw [next] at new
        rw [appended new] at timeout
        obtain ⟨response, parsed, answers, code⟩ := checkResponse_timeout.mp timeout
        exact prompt call conn netMessage conn' socket response sent held read parsed answers code
      · rw [next] at new
        exact absurd new not_appended

theorem ownTimeout_fail {s : Caller} (armed : Armed s) (failure : NetworkFailure s) :
    OwnTimeout s .fail ↔ s.Prompt .fail := by
  have alive : (s.step .fail).crashed = false := by
    rw [step_alive armed.alive]
    exact (onward_fail s).crashed.trans armed.alive
  have perform : s.step .fail = s.fail := step_alive armed.alive _
  constructor
  · intro own call status failed untimed
    by_contra flag
    have set : s.client.wasTimeout = true := by simpa using flag
    have unexpired := (armed.untimed (by rw [failed]; exact untimed)).2
    have expired := own.timeout ⟨s.calls, call, RpcClientStatus.RPC_CALL_TIMEOUT, none⟩
      (by rw [perform, fail, failed]; simp [finish, RpcClientImpl.failure, set]) rfl
    rw [unexpired] at expired
    cases expired
  · intro prompt
    refine ⟨alive, fun i _ _ handler => (by cases handler), ?_⟩
    rw [perform]
    intro r new timeout
    rcases s.fail_cases with same | ⟨call, status, failed, next⟩
    · rw [same] at new
      exact absurd new not_appended
    · rw [next] at new
      rw [appended new] at timeout
      by_cases set : s.client.wasTimeout = true
      · refine armed.timed ?_ set
        rw [failed]
        intro untimed
        rw [prompt call status failed untimed] at set
        cases set
      · have kept : s.client.failure status = status := by
          rw [RpcClientImpl.failure, if_neg set]
        have same := kept.symm.trans timeout
        rcases failure call status failed with rfl | rfl
        · cases same
        · cases same

theorem ownTimeout_handler {s : Caller} (armed : Armed s) (i : Nat) :
    OwnTimeout s (.handler i) ↔ s.Prompt (.handler i) := by
  have perform : s.step (.handler i) = s.handler i := step_alive armed.alive _
  constructor
  · intro own number queued
    rcases s.handler_cases i with ⟨nothing, _⟩ | ⟨number', timer, ⟨aborted, _⟩ |
      ⟨expired, created, ⟨held, next⟩ | ⟨conn, held, next⟩⟩⟩
    · cases queued.symm.trans nothing
    · cases queued.symm.trans aborted
    · have crashed := own.connected
      rw [perform, next] at crashed
      cases crashed
    · refine ⟨conn, held, ?_⟩
      by_cases running : s.Running number
      · exact Or.inl running
      · obtain ⟨flag, kept⟩ := own.late i number _ rfl queued running
        rw [perform, next] at flag kept
        rw [held] at kept
        have closed := congrArg TcpConnSync.connStat (Option.some.inj kept)
        exact Or.inr ⟨flag.symm, closed.symm⟩
  · intro prompt
    refine ⟨?_, ?_, ?_⟩
    · rw [perform]
      exact (armed.handler prompt).alive
    · intro j number ec same queued late
      cases same
      rw [perform]
      rcases s.handler_cases i with ⟨nothing, _⟩ | ⟨number', timer, ⟨aborted, _, next⟩ |
        ⟨expired, created, ⟨held, next⟩ | ⟨conn, held, next⟩⟩⟩
      · cases queued.symm.trans nothing
      · rw [next]
        exact ⟨rfl, rfl⟩
      · obtain ⟨conn, connected, _⟩ := prompt number' expired
        cases held.symm.trans connected
      · cases queued.symm.trans expired
        obtain ⟨conn', connected, own | ⟨flag, closed⟩⟩ := prompt number expired
        · exact absurd own late
        · cases held.symm.trans connected
          rw [next, held]
          refine ⟨flag.symm, congrArg some ?_⟩
          rw [TcpConnSync.sockShutdownAndClose, ← closed]
    · rw [perform]
      intro r new
      exact absurd ((s.returned_handler i).symm.trans new) not_appended

/-- A step shows a timeout only in its own call exactly when it is prompt. -/
theorem ownTimeout_iff_prompt {s : Caller} (armed : Armed s) (failure : NetworkFailure s)
    (a : Action) : OwnTimeout s a ↔ s.Prompt a := by
  have alive := fun prompt => (armed.step (a := a) prompt).alive
  -- most steps run no handler and return from no call
  have quiet (prompt : s.Prompt a) (other : ∀ i, a ≠ .handler i)
      (same : (s.perform a).returned = s.returned) : OwnTimeout s a ↔ s.Prompt a := by
    rw [← step_alive armed.alive a] at same
    exact ⟨fun _ => prompt, fun _ => OwnTimeout.still (alive prompt) other same⟩
  cases a with
  | enter call connects => exact ⟨fun _ => trivial, fun _ => ownTimeout_enter armed call connects⟩
  | arm => exact quiet trivial (fun _ same => by cases same) s.returned_arm
  | send fault => exact quiet trivial (fun _ same => by cases same) (s.returned_send fault)
  | recv offers => exact ownTimeout_recv armed offers
  | recvError ec => exact quiet trivial (fun _ same => by cases same) (s.returned_recvError ec)
  | fail => exact ownTimeout_fail armed failure
  | expire => exact quiet trivial (fun _ same => by cases same) s.returned_expire
  | handler i => exact ownTimeout_handler armed i
  | respond i response =>
      exact quiet trivial (fun _ same => by cases same) (s.returned_respond i response)

/-! ### Whole runs -/

theorem armed_fresh (serverLimit : UInt32) (clientSetting : RpcClientSetting) :
    Armed (fresh serverLimit clientSetting) where
  alive := rfl
  begun := nofun
  untimed := False.elim
  timed := False.elim
  queued running := absurd rfl running

/-- Over every run of calls, timers and a server: the steps all show a timeout in
its own call only exactly when every step of the run is prompt. -/
theorem own_timeout_iff (serverLimit : UInt32) (clientSetting : RpcClientSetting)
    (actions : List Action) :
    (∀ before a, before ++ [a] <+: actions →
      OwnTimeout (run step (fresh serverLimit clientSetting) before) a) ↔
        Along step Prompt (fresh serverLimit clientSetting) actions := by
  rw [← along_iff_prefix]
  exact along_iff (P := fun s => Armed s ∧ NetworkFailure s)
    (fun s a invariant prompt => ⟨invariant.1.step prompt, invariant.2.step a⟩)
    (fun s a invariant => ownTimeout_iff_prompt invariant.1 invariant.2 a)
    ⟨armed_fresh serverLimit clientSetting, networkFailure_of_ne fun _ _ => nofun⟩

/-- A call with a timeout of five seconds, whose request is above the send limit,
drops its connection and returns; its timer expires later and finds `conn_` null. -/
theorem timeout_after_failed_call :
    (run step (fresh 0 ⟨16, 0⟩)
        [.enter ⟨1, 2, bytes "a", 5⟩ true, .arm, .send none, .fail, .expire]).returned =
        [⟨1, ⟨1, 2, bytes "a", 5⟩, RpcClientStatus.NETWORK_SEND_ERROR, none⟩] ∧
      (run step (fresh 0 ⟨16, 0⟩)
        [.enter ⟨1, 2, bytes "a", 5⟩ true, .arm, .send none, .fail, .expire,
          .handler 0]).crashed = true ∧
      ¬OwnTimeout (run step (fresh 0 ⟨16, 0⟩)
        [.enter ⟨1, 2, bytes "a", 5⟩ true, .arm, .send none, .fail, .expire]) (.handler 0) := by
  have crashed : (run step (fresh 0 ⟨16, 0⟩)
      [.enter ⟨1, 2, bytes "a", 5⟩ true, .arm, .send none, .fail, .expire,
        .handler 0]).crashed = true := by decide +kernel
  refine ⟨by decide +kernel, crashed, fun own => ?_⟩
  have alive : (run step (fresh 0 ⟨16, 0⟩)
      [.enter ⟨1, 2, bytes "a", 5⟩ true, .arm, .send none, .fail, .expire,
        .handler 0]).crashed = false := own.connected
  rw [crashed] at alive
  cases alive

end Caller

end Heracles.Client
