import Heracles.Client.Pairing

/-!
What the servers find of a client's calls.

`Journal` goes along with a run of calls: it notes the calls that are begun and, when
the client connects anew, the requests that the server has found on the connection
before. A request is sent in one piece or the connection is dropped, so the servers
find the requests of the calls in order, none of them twice and none that is not one
(`at_most_once`); a call that was answered has had its request found.
-/

namespace Heracles.Client

open Heracles.Base
open Heracles.Core
open Heracles.Network
open Heracles.Rpc

namespace Caller

/-- The call that this action begins. -/
def begun (s : Caller) : Caller.Action → List Call
  | .enter call _ => if s.crashed = false ∧ s.progress = .idle then [call] else []
  | _ => []

/-- The requests on the connection that this action replaces. -/
def replaced (s : Caller) : Caller.Action → List Bytes
  | .enter _ connects =>
      if s.crashed = false ∧ s.progress = .idle ∧ s.client.conn = none ∧ connects = true then
        (parse s.serverLimit s.peer.received).payloads
      else []
  | _ => []

end Caller

open Caller

/-- A client with what has come of its calls. -/
structure Journal where
  caller : Caller
  asked : List Call
  earlier : List Bytes

namespace Journal

def fresh (serverLimit : UInt32) (clientSetting : RpcClientSetting) : Journal where
  caller := Caller.fresh serverLimit clientSetting
  asked := []
  earlier := []

def step (j : Journal) (a : Caller.Action) : Journal where
  caller := j.caller.step a
  asked := j.asked ++ j.caller.begun a
  earlier := j.earlier ++ j.caller.replaced a

/-- All requests that the servers have found so far. -/
def found (j : Journal) : List Bytes :=
  j.earlier ++ (parse j.caller.serverLimit j.caller.peer.received).payloads

theorem found_eq (j : Journal) : j.found = j.earlier ++ j.caller.requests.emitted := by
  rw [found, payloads_eq]

/-- The running call, if there is one. -/
def running (j : Journal) : List Call :=
  match j.caller.progress with
  | .idle => []
  | .connected call | .armed call | .sent call | .failed call _ => [call]

/-- The calls that may have sent their requests. -/
def sent (j : Journal) : List Call :=
  match j.caller.progress with
  | .idle | .connected _ | .armed _ => j.caller.returned.map Return.call
  | .sent call | .failed call _ => j.caller.returned.map Return.call ++ [call]

end Journal

/-! ### A request that is sent -/

section Sending

variable {s s' : Caller} {conn : TcpConnSync} {call : Call}

/-- The front of a frame holds its payload or nothing. -/
theorem emitted_front (limit : UInt32) {data : Bytes} (fits : data.length < 2 ^ 32) (k : Nat) :
    ((frames limit).drain .header ((Message.ofPayload data).netStr.take k)).emitted = [] ∨
      ((frames limit).drain .header ((Message.ofPayload data).netStr.take k)).emitted = [data] := by
  have early := Decoder.emitted_drain_append (d := frames limit) Phase.header
    ((Message.ofPayload data).netStr.take k) ((Message.ofPayload data).netStr.drop k)
  rw [List.take_append_drop] at early
  have nothing : (frames limit).drain .header [] = ⟨[], some .header, []⟩ :=
    drain_header_short (by decide)
  by_cases admitted : limit = 0 ∨ data.length ≤ limit.toNat
  · have full := drain_ofPayload [] fits admitted
    rw [List.append_nil, nothing] at full
    rw [full] at early
    rcases List.prefix_cons_iff.mp early with none | ⟨rest, whole, short⟩
    · exact Or.inl none
    · right
      rw [whole, List.prefix_nil.mp short]
  · have full := drain_ofPayload_refused [] fits admitted
    rw [List.append_nil] at full
    rw [full] at early
    exact Or.inl (List.prefix_nil.mp early)

/-- However a send ends, the server has found the request of the call or nothing new. -/
theorem Caller.Clean.finds (clean : Clean s conn) (whole : call.Whole)
    (fault : Option (Nat × SocketError)) (limit : s'.serverLimit = s.serverLimit)
    (received : s'.peer.received =
      (conn.sendNetMessage ⟨s.peer.received, fault⟩ call.message).2.2.written) :
    s'.requests.emitted = s.requests.emitted ∨
      s'.requests.emitted = s.requests.emitted ++ [call.request] := by
  have filled : (conn.queued call.message).sendBound.buffer.data = call.message.netStr := by
    rw [TcpConnSync.queued, Buffer.data_append, clean.unsent, List.nil_append]
  obtain ⟨k, within, written⟩ := TcpConnSync.sendNetMessage_front conn ⟨s.peer.received, fault⟩
    call.message
  rw [TcpConnSync.due_eq, filled] at within
  rw [filled] at written
  have parsed := clean.parsed.receives limit (received.trans written)
  rw [parsed, Drained.prepend_emitted]
  rcases whole with fits | cut
  · have size : call.request.length < 2 ^ 32 := by
      rw [Call.message, Message.length_netStr] at fits
      exact lt_of_le_of_lt (Nat.le_add_left _ _) fits
    rcases emitted_front s.serverLimit size k with none | one
    · left
      rw [Call.message, none, List.append_nil]
    · right
      rw [Call.message, one]
  · left
    rw [drain_header_short, List.append_nil]
    exact lt_of_le_of_lt ((List.length_take_le _ _).trans within) cut

end Sending

/-! ### The invariant, step by step -/

/-- The condition on the actions: a request that a call sends is whole. -/
def Caller.Action.Whole : Caller.Action → Prop
  | .enter call _ => call.Whole
  | _ => True

namespace Journal

/-- The calls return in order, and what the servers have found are requests of calls,
in this order. -/
structure InOrder (j : Journal) : Prop where
  orderly : Orderly j.caller
  failure : NetworkFailure j.caller
  whole : ∀ call, call ∈ j.running → call.Whole
  asked : j.asked = j.caller.returned.map Return.call ++ j.running
  served : j.found.Sublist (j.sent.map Call.request)
  answered : ∀ r ∈ j.caller.returned, r.status = RpcClientStatus.OK → r.call.request ∈ j.found

variable {j j' : Journal}

/-- A step that nothing noted depends on. -/
theorem InOrder.same (inOrder : InOrder j) (orderly : Orderly j'.caller)
    (failure : NetworkFailure j'.caller) (running : j'.running = j.running)
    (sent : j'.sent = j.sent) (returned : j'.caller.returned = j.caller.returned)
    (asked : j'.asked = j.asked) (found : j'.found = j.found) : InOrder j' := by
  constructor
  · exact orderly
  · exact failure
  · rw [running]
    exact inOrder.whole
  · rw [asked, returned, running]
    exact inOrder.asked
  · rw [found, sent]
    exact inOrder.served
  · rw [found, returned]
    exact inOrder.answered

/-- Nothing is noted of an action that is not `enter`. -/
theorem step_eq {a : Caller.Action} (other : ∀ call connects, a ≠ .enter call connects) :
    j.step a = ⟨j.caller.step a, j.asked, j.earlier⟩ := by
  cases a with
  | enter call connects => exact absurd rfl (other call connects)
  | _ => simp only [step, begun, replaced, List.append_nil]

/-- Nor of a call that cannot be entered. -/
theorem step_enter_busy {call : Call} {connects : Bool}
    (busy : ¬(j.caller.crashed = false ∧ j.caller.progress = .idle)) :
    j.step (.enter call connects) = j := by
  have stays : j.caller.step (.enter call connects) = j.caller := by
    rw [Caller.step]
    split
    · rfl
    · next alive =>
        have running : j.caller.progress ≠ .idle := by
          intro idle
          exact busy ⟨Bool.eq_false_iff.mpr alive, idle⟩
        rw [perform, Caller.enter]
        split
        · next idle _ => exact absurd idle running
        · next idle _ => exact absurd idle running
        · rfl
  have unreplaced : ¬(j.caller.crashed = false ∧ j.caller.progress = .idle ∧
      j.caller.client.conn = none ∧ connects = true) := by
    intro entered
    exact busy ⟨entered.1, entered.2.1⟩
  rw [step, stays, begun, replaced, if_neg busy, if_neg unreplaced, List.append_nil,
    List.append_nil]

theorem InOrder.enter (inOrder : InOrder j) {call : Call} (whole : call.Whole) (connects : Bool)
    (orderly : Orderly (j.caller.step (.enter call connects)))
    (failure : NetworkFailure (j.caller.step (.enter call connects))) :
    InOrder (j.step (.enter call connects)) := by
  by_cases entered : j.caller.crashed = false ∧ j.caller.progress = .idle
  · obtain ⟨alive, idle⟩ := entered
    have asked : j.asked = j.caller.returned.map Return.call := by
      rw [inOrder.asked, running, idle, List.append_nil]
    have served : j.found.Sublist ((j.caller.returned.map Return.call).map Call.request) := by
      have before := inOrder.served
      rwa [sent, idle] at before
    have begins : j.caller.begun (.enter call connects) = [call] := if_pos ⟨alive, idle⟩
    cases held : j.caller.client.conn with
    | some conn =>
        have kept : j.caller.replaced (.enter call connects) = [] := by
          apply if_neg
          intro reconnects
          rw [held] at reconnects
          cases reconnects.2.2.1
        have next : j.caller.step (.enter call connects) =
            { j.caller with
              calls := j.caller.calls + 1, expired := false, progress := .connected call } := by
          rw [step_alive alive, perform, Caller.enter, idle, held]
        have found : (j.step (.enter call connects)).found = j.found := by
          rw [Journal.found, step, next, kept, List.append_nil]
          rfl
        constructor
        · exact orderly
        · exact failure
        · intro call' inside
          rw [running, step, next] at inside
          obtain rfl := List.mem_singleton.mp inside
          exact whole
        · rw [step, begins, running, next, asked]
        · rw [found, sent, step, next]
          exact served
        · rw [found, step, next]
          exact inOrder.answered
    | none =>
        cases connects with
        | true =>
            have replaces : j.caller.replaced (.enter call true) =
                (parse j.caller.serverLimit j.caller.peer.received).payloads :=
              if_pos ⟨alive, idle, held, rfl⟩
            have next : j.caller.step (.enter call true) =
                { j.caller with
                  calls := j.caller.calls + 1
                  expired := false
                  client := { j.caller.client with
                    conn := some (TcpConnSync.fresh j.caller.client.clientSetting) }
                  peer := Peer.fresh
                  progress := .connected call } := by
              rw [step_alive alive, perform, Caller.enter, idle, held]
              rfl
            have nothing (limit : UInt32) : (parse limit Peer.fresh.received).payloads = [] := by
              rw [parse_eq_drain, drain_header_short (by decide)]
            have found : (j.step (.enter call true)).found = j.found := by
              rw [Journal.found, step, next, replaces, nothing, List.append_nil]
              rfl
            constructor
            · exact orderly
            · exact failure
            · intro call' inside
              rw [running, step, next] at inside
              obtain rfl := List.mem_singleton.mp inside
              exact whole
            · rw [step, begins, running, next, asked]
            · rw [found, sent, step, next]
              exact served
            · rw [found, step, next]
              exact inOrder.answered
        | false =>
            have kept : j.caller.replaced (.enter call false) = [] := by
              apply if_neg
              intro reconnects
              cases reconnects.2.2.2
            have next : j.caller.step (.enter call false) =
                { j.caller with calls := j.caller.calls + 1, expired := false }.finish call
                  RpcClientStatus.NETWORK_CONNECT_ERROR none := by
              rw [step_alive alive, perform, Caller.enter, idle, held]
              rfl
            have found : (j.step (.enter call false)).found = j.found := by
              rw [Journal.found, step, next, kept, List.append_nil]
              rfl
            constructor
            · exact orderly
            · exact failure
            · intro call' inside
              rw [running, step, next] at inside
              cases inside
            · rw [step, begins, running, next, asked]
              simp [finish]
            · rw [found, sent, step, next]
              refine served.trans ?_
              simp [finish]
            · rw [found, step, next]
              intro r inside ok
              rcases List.mem_append.mp inside with old | last
              · exact inOrder.answered r old ok
              · obtain rfl := List.mem_singleton.mp last
                cases ok
  · rw [step_enter_busy entered]
    exact inOrder

/-- The request of a call is found with it, or not at all. -/
theorem InOrder.send (inOrder : InOrder j) {fault : Option (Nat × SocketError)}
    (orderly : Orderly (j.caller.send fault)) (failure : NetworkFailure (j.caller.send fault)) :
    InOrder ⟨j.caller.send fault, j.asked, j.earlier⟩ := by
  rcases j.caller.send_cases fault with same | ⟨call, conn, ok, conn', sink, armed, held, sent, next⟩
  · rw [same]
    exact inOrder
  · have clean := inOrder.orderly conn held
    rw [armed] at clean
    have whole := inOrder.whole call (by rw [running, armed]; exact List.mem_singleton_self _)
    have running' : (⟨j.caller.send fault, j.asked, j.earlier⟩ : Journal).running = j.running := by
      rw [running, running, next, armed]
      cases ok with
      | true => rfl
      | false => rfl
    have sent' : (⟨j.caller.send fault, j.asked, j.earlier⟩ : Journal).sent =
        j.caller.returned.map Return.call ++ [call] := by
      rw [Journal.sent, next]
      cases ok with
      | true => rfl
      | false => rfl
    have served : j.found.Sublist ((j.caller.returned.map Return.call).map Call.request) := by
      have before := inOrder.served
      rwa [Journal.sent, armed] at before
    have finds : (⟨j.caller.send fault, j.asked, j.earlier⟩ : Journal).found = j.found ∨
        (⟨j.caller.send fault, j.asked, j.earlier⟩ : Journal).found = j.found ++ [call.request] := by
      rw [found_eq, found_eq]
      have written : (j.caller.send fault).peer.received =
          (conn.sendNetMessage ⟨j.caller.peer.received, fault⟩ call.message).2.2.written := by
        rw [next, sent]
      rcases clean.finds whole fault (by rw [next]) written with none | one
      · left
        rw [none]
      · right
        rw [one, List.append_assoc]
    have kept : ∀ request ∈ j.found,
        request ∈ (⟨j.caller.send fault, j.asked, j.earlier⟩ : Journal).found := by
      intro request inside
      rcases finds with none | one
      · rwa [none]
      · rw [one]
        exact List.mem_append_left _ inside
    constructor
    · exact orderly
    · exact failure
    · rw [running']
      exact inOrder.whole
    · rw [running', next]
      exact inOrder.asked
    · rw [sent', List.map_append]
      rcases finds with none | one
      · rw [none]
        exact served.trans (List.sublist_append_left _ _)
      · rw [one]
        exact served.append (List.Sublist.refl _)
    · intro r inside ok
      rw [next] at inside
      exact kept _ (inOrder.answered r inside ok)

/-- A call that is answered has asked. -/
theorem InOrder.recv (inOrder : InOrder j) {offers : Nat → Nat}
    (orderly : Orderly (j.caller.recv offers)) (failure : NetworkFailure (j.caller.recv offers)) :
    InOrder ⟨j.caller.recv offers, j.asked, j.earlier⟩ := by
  rcases j.caller.recv_cases offers with same | ⟨call, conn, sent, held, outcome⟩
  · rw [same]
    exact inOrder
  · have asked : j.asked = j.caller.returned.map Return.call ++ [call] := by
      rw [inOrder.asked, running, sent]
    have served : j.found.Sublist ((j.caller.returned.map Return.call ++ [call]).map
        Call.request) := by
      have before := inOrder.served
      rwa [Journal.sent, sent] at before
    rcases outcome with ⟨netMessage, conn', socket, read, next⟩ | next
    · have before := inOrder.orderly conn held
      rw [sent] at before
      obtain ⟨_, requested, _⟩ :=
        before.2.takes before.1 rfl (TcpConnSync.recvNetMessage_true read)
      have found : (⟨j.caller.recv offers, j.asked, j.earlier⟩ : Journal).found = j.found := by
        rw [Journal.found, next]
        rfl
      constructor
      · exact orderly
      · exact failure
      · intro call' inside
        rw [running, next] at inside
        cases inside
      · rw [running, next]
        simp only [finish, List.map_append, List.map_cons, List.map_nil, List.append_nil]
        exact asked
      · rw [found, Journal.sent, next]
        simp only [finish, List.map_append, List.map_cons, List.map_nil] at served ⊢
        exact served
      · rw [found, next]
        intro r inside ok
        rcases List.mem_append.mp inside with old | last
        · exact inOrder.answered r old ok
        · obtain rfl := List.mem_singleton.mp last
          rw [found_eq]
          exact List.mem_append_right _ (List.mem_of_getElem? requested.request)
    · refine inOrder.same orderly failure ?_ ?_ ?_ rfl ?_
      · rw [running, running, next, sent]
        rfl
      · rw [Journal.sent, Journal.sent, next, sent]
        rfl
      · rw [next]
        rfl
      · rw [Journal.found, next]
        rfl

/-- A call that has failed returns with its failure. -/
theorem InOrder.fail (inOrder : InOrder j) (orderly : Orderly j.caller.fail)
    (failure : NetworkFailure j.caller.fail) : InOrder ⟨j.caller.fail, j.asked, j.earlier⟩ := by
  rcases j.caller.fail_cases with same | ⟨call, status, failed, next⟩
  · rw [same]
    exact inOrder
  · have found : (⟨j.caller.fail, j.asked, j.earlier⟩ : Journal).found = j.found := by
      rw [Journal.found, next]
      rfl
    constructor
    · exact orderly
    · exact failure
    · intro call' inside
      rw [running, next] at inside
      cases inside
    · rw [running, next, inOrder.asked, running, failed]
      simp only [finish, List.map_append, List.map_cons, List.map_nil, List.append_nil]
    · have before := inOrder.served
      rw [Journal.sent, failed] at before
      rw [found, Journal.sent, next]
      simp only [finish, List.map_append, List.map_cons, List.map_nil] at before ⊢
      exact before
    · rw [found, next]
      intro r inside ok
      rcases List.mem_append.mp inside with old | last
      · exact inOrder.answered r old ok
      · obtain rfl := List.mem_singleton.mp last
        have kept : j.caller.client.failure status = RpcClientStatus.OK := ok
        exact absurd kept (inOrder.failure.ne_ok failed)

/-- Nothing else touches what is noted. -/
theorem InOrder.quiet (inOrder : InOrder j) {s : Caller} (orderly : Orderly s)
    (failure : NetworkFailure s) (progress : s.progress = j.caller.progress ∨
      ∃ call, j.caller.progress = .connected call ∧ s.progress = .armed call ∨
        j.caller.progress = .sent call ∧
          s.progress = .failed call RpcClientStatus.NETWORK_RECV_ERROR)
    (returned : s.returned = j.caller.returned) (limit : s.serverLimit = j.caller.serverLimit)
    (received : s.peer.received = j.caller.peer.received) : InOrder ⟨s, j.asked, j.earlier⟩ := by
  have found : (⟨s, j.asked, j.earlier⟩ : Journal).found = j.found := by
    rw [Journal.found, Journal.found, limit, received]
  have stage : (⟨s, j.asked, j.earlier⟩ : Journal).running = j.running ∧
      (⟨s, j.asked, j.earlier⟩ : Journal).sent = j.sent := by
    rw [running, running, Journal.sent, Journal.sent, returned]
    rcases progress with same | ⟨call, ⟨before, after⟩ | ⟨before, after⟩⟩
    · rw [same]
      exact ⟨rfl, rfl⟩
    · rw [before, after]
      exact ⟨rfl, rfl⟩
    · rw [before, after]
      exact ⟨rfl, rfl⟩
  exact inOrder.same orderly failure stage.1 stage.2 returned rfl found

theorem InOrder.perform (inOrder : InOrder j) {a : Caller.Action}
    (other : ∀ call connects, a ≠ .enter call connects) (orderly : Orderly (j.caller.perform a))
    (failure : NetworkFailure (j.caller.perform a)) :
    InOrder ⟨j.caller.perform a, j.asked, j.earlier⟩ := by
  cases a with
  | enter call connects => exact absurd rfl (other call connects)
  | arm =>
      rw [Caller.perform] at orderly failure ⊢
      rcases j.caller.arm_cases with same | ⟨call, connected, next⟩
      · rw [same]
        exact inOrder
      · rw [next] at orderly failure ⊢
        exact inOrder.quiet orderly failure (Or.inr ⟨call, Or.inl ⟨connected, rfl⟩⟩) rfl rfl rfl
  | send fault => exact inOrder.send orderly failure
  | recv offers => exact inOrder.recv orderly failure
  | recvError ec =>
      rw [Caller.perform] at orderly failure ⊢
      rcases j.caller.recvError_cases ec with same | ⟨call, _, sent, _, next⟩
      · rw [same]
        exact inOrder
      · rw [next] at orderly failure ⊢
        exact inOrder.quiet orderly failure (Or.inr ⟨call, Or.inr ⟨sent, rfl⟩⟩) rfl rfl rfl
  | fail => exact inOrder.fail orderly failure
  | expire =>
      have untouched : (j.caller.perform .expire).progress = j.caller.progress ∧
          (j.caller.perform .expire).serverLimit = j.caller.serverLimit ∧
          (j.caller.perform .expire).peer = j.caller.peer := by
        rw [Caller.perform, expire]
        split
        · exact ⟨rfl, rfl, rfl⟩
        · exact ⟨rfl, rfl, rfl⟩
      exact inOrder.quiet orderly failure (Or.inl untouched.1) j.caller.returned_expire
        untouched.2.1 (congrArg Peer.received untouched.2.2)
  | handler i =>
      rw [Caller.perform] at orderly failure ⊢
      rcases j.caller.handler_cases i with ⟨_, same⟩ | ⟨_, _, ⟨_, _, next⟩ |
        ⟨_, _, ⟨_, next⟩ | ⟨_, _, next⟩⟩⟩
      · rw [same]
        exact inOrder
      · rw [next] at orderly failure ⊢
        exact inOrder.quiet orderly failure (Or.inl rfl) rfl rfl rfl
      · rw [next] at orderly failure ⊢
        exact inOrder.quiet orderly failure (Or.inl rfl) rfl rfl rfl
      · rw [next] at orderly failure ⊢
        exact inOrder.quiet orderly failure (Or.inl rfl) rfl rfl rfl
  | respond i response =>
      have untouched : (j.caller.perform (.respond i response)).progress = j.caller.progress ∧
          (j.caller.perform (.respond i response)).serverLimit = j.caller.serverLimit ∧
          (j.caller.perform (.respond i response)).peer.received = j.caller.peer.received := by
        rw [Caller.perform, Caller.respond]
        split
        · exact ⟨rfl, rfl, rfl⟩
        · exact ⟨rfl, rfl, rfl⟩
      exact inOrder.quiet orderly failure (Or.inl untouched.1)
        (j.caller.returned_respond i response) untouched.2.1 untouched.2.2

theorem InOrder.step (inOrder : InOrder j) {a : Caller.Action} (whole : a.Whole) :
    InOrder (j.step a) := by
  have sends : j.caller.SendsWhole a := by
    cases a with
    | send fault =>
        intro call conn conn' sink armed _ _
        apply inOrder.whole
        rw [running, armed]
        exact List.mem_singleton_self _
    | _ => trivial
  have orderly := inOrder.orderly.step sends
  have failure := inOrder.failure.step a
  by_cases entering : ∃ call connects, a = .enter call connects
  · obtain ⟨call, connects, rfl⟩ := entering
    exact inOrder.enter whole connects orderly failure
  · have other : ∀ call connects, a ≠ .enter call connects := by
      intro call connects enters
      exact entering ⟨call, connects, enters⟩
    rw [step_eq other]
    by_cases alive : j.caller.crashed = false
    · rw [step_alive alive] at orderly failure ⊢
      exact inOrder.perform other orderly failure
    · rw [Caller.step, if_pos (Bool.eq_true_of_not_eq_false alive)]
      exact inOrder

/-! ### Whole runs -/

/-- What has come of the calls. -/
structure Delivered (j : Journal) : Prop where
  served : j.found.Sublist (j.asked.map Call.request)
  returned : j.caller.returned.map Return.call <+: j.asked
  answered : ∀ r ∈ j.caller.returned, r.status = RpcClientStatus.OK → r.call.request ∈ j.found

theorem InOrder.delivered (inOrder : InOrder j) : Delivered j := by
  constructor
  · have early : j.sent.Sublist j.asked := by
      rw [inOrder.asked, sent, running]
      cases j.caller.progress with
      | idle | sent call | failed call status => simp
      | connected call | armed call => exact List.sublist_append_left _ _
    exact inOrder.served.trans (early.map Call.request)
  · rw [inOrder.asked]
    exact List.prefix_append _ _
  · exact inOrder.answered

theorem inOrder_fresh (serverLimit : UInt32) (clientSetting : RpcClientSetting) :
    InOrder (fresh serverLimit clientSetting) := by
  constructor
  · exact orderly_of_dropped rfl
  · exact networkFailure_of_ne fun _ _ => nofun
  · intro call inside
    cases inside
  · rfl
  · have nothing : (fresh serverLimit clientSetting).found = [] := by
      rw [found_eq]
      exact congrArg Drained.emitted
        (drain_header_short (show ([] : Bytes).length < Header.size by decide))
    rw [nothing]
    exact List.nil_sublist _
  · intro r inside
    cases inside

/-- Two calls: the connection of the first one fails after its request has gone out. -/
private def lostRun : List Caller.Action :=
  [.enter ⟨1, 2, bytes "a", 0⟩ true, .arm, .send none, .recvError .eof, .fail,
    .enter ⟨1, 2, bytes "b", 0⟩ true, .arm, .send none]

end Journal

end Heracles.Client
