import Heracles.Client.Receiving
import Heracles.Client.RpcClientImpl
import Heracles.Client.Sending

/-!
A response and the request it answers.

Messages carry no identifier, so a response belongs to a request by its place on
the connection. Between calls a kept connection is `Clean`: nothing is unread,
the server has parsed what it received into one request for each call served so
far and has answered all of these. While a response is awaited at most one is on
its way (`Awaiting`). Every other exit drops the connection.
-/

namespace Heracles.Client

open Heracles.Base
open Heracles.Core
open Heracles.Network
open Heracles.Rpc

/-- The size of the call's message on the wire, as 32 bits count it, is its size,
or is too small for a header. -/
def Call.Whole (call : Call) : Prop :=
  call.message.netStr.length < 2 ^ 32 ∨ call.message.netStr.length % 2 ^ 32 < Header.size

instance (call : Call) : Decidable call.Whole := inferInstanceAs (Decidable (_ ∨ _))

namespace Caller

/-- What the server has parsed of the current connection. -/
def requests (s : Caller) : Drained UInt8 Phase Bytes :=
  (frames s.serverLimit).drain .header s.peer.received

theorem payloads_eq (s : Caller) :
    (parse s.serverLimit s.peer.received).payloads = s.requests.emitted := by
  rw [parse_eq_drain]
  rfl

/-- `respload` answers the request of the running call: the server has found
exactly that request at the call's place on the connection, and what it sent in
answer to that place carries `respload`. -/
def Paired (s : Caller) (call : Call) (respload : Bytes) : Prop :=
  (parse s.serverLimit s.peer.received).payloads[s.peer.carried]? = some call.request ∧
    ∃ answer response, (s.peer.carried, answer) ∈ s.peer.answers ∧
      RpcResponseMessage.parse answer.payload = some response ∧ response.payload = respload

/-- A call that returns `OK` returns the answer to its own request. -/
def NoCrosstalk (s : Caller) (a : Action) : Prop :=
  ∀ r, (s.step a).returned = s.returned ++ [r] → r.status = RpcClientStatus.OK →
    ∃ respload, r.respload = some respload ∧ Paired s r.call respload

/-- Every request that is sent is whole. -/
def SendsWhole (s : Caller) : Action → Prop
  | .send fault =>
      ∀ call conn conn' sink, s.progress = .armed call → s.client.conn = some conn →
        conn.sendNetMessage ⟨s.peer.received, fault⟩ call.message = (true, conn', sink) →
        call.Whole
  | _ => True

/-! ### The connection between calls and during one -/

/-- The server is at the end of a frame, the last of `n`. -/
def AtFrame (s : Caller) (n : Nat) : Prop :=
  s.requests.phase = some .header ∧ s.requests.rest = [] ∧ s.requests.emitted.length = n

structure Clean (s : Caller) (conn : TcpConnSync) : Prop where
  unsent : conn.sendBound.buffer.data = []
  unread : conn.recvBound.buffer.data = []
  undelivered : s.peer.undelivered = []
  parsed : s.AtFrame s.peer.carried
  answered : s.peer.answered = s.peer.carried

/-- The server has the call's request, at the call's place. -/
structure Requested (s : Caller) (conn : TcpConnSync) (call : Call) : Prop where
  unsent : conn.sendBound.buffer.data = []
  parsed : s.AtFrame (s.peer.carried + 1)
  request : s.requests.emitted[s.peer.carried]? = some call.request

/-- What is on its way to a call that waits for its response. -/
inductive Awaiting (s : Caller) (conn : TcpConnSync) (call : Call) : Prop
  | unanswered : s.peer.undelivered = [] → s.peer.answered = s.peer.carried →
      (s.requests.emitted.length = s.peer.carried ∨ Requested s conn call) →
      Awaiting s conn call
  | answered (response : Response) : s.peer.undelivered = response.message.netStr →
      s.peer.answered = s.peer.carried + 1 →
      (s.peer.carried, response.message) ∈ s.peer.answers → Requested s conn call →
      Awaiting s conn call

/-- The connection, if there is one, is as the progress of the call asks. -/
def Orderly (s : Caller) : Prop :=
  ∀ conn, s.client.conn = some conn →
    match s.progress with
    | .idle | .connected _ | .armed _ => Clean s conn
    | .sent call => conn.recvBound.buffer.data = [] ∧ Awaiting s conn call
    | .failed _ _ => False

theorem orderly_of_dropped {s : Caller} (dropped : s.client.conn = none) : Orderly s := by
  intro conn held
  rw [dropped] at held
  cases held

theorem clean_fresh (s : Caller) (clientSetting : RpcClientSetting) (peer : s.peer = Peer.fresh) :
    Clean s (TcpConnSync.fresh clientSetting) := by
  have nothing : s.requests = ⟨[], some .header, []⟩ := by
    rw [requests, peer]
    exact drain_header_short (by decide)
  refine ⟨rfl, rfl, by rw [peer]; rfl, ?_, by rw [peer]; rfl⟩
  rw [AtFrame, nothing, peer]
  exact ⟨rfl, rfl, rfl⟩

/-- Only the receiving and the sending buffer of the connection and the far end
matter. -/
theorem Clean.same {s s' : Caller} {conn conn' : TcpConnSync} (clean : Clean s conn)
    (limit : s'.serverLimit = s.serverLimit) (peer : s'.peer = s.peer)
    (sending : conn'.sendBound = conn.sendBound) (receiving : conn'.recvBound = conn.recvBound) :
    Clean s' conn' := by
  have requests : s'.requests = s.requests := by rw [Caller.requests, Caller.requests, limit, peer]
  refine ⟨by rw [sending]; exact clean.unsent, by rw [receiving]; exact clean.unread,
    by rw [peer]; exact clean.undelivered, ?_, by rw [peer]; exact clean.answered⟩
  rw [AtFrame, requests, peer]
  exact clean.parsed

theorem Requested.same {s s' : Caller} {conn conn' : TcpConnSync} {call : Call}
    (requested : Requested s conn call) (limit : s'.serverLimit = s.serverLimit)
    (received : s'.peer.received = s.peer.received) (carried : s'.peer.carried = s.peer.carried)
    (sending : conn'.sendBound = conn.sendBound) : Requested s' conn' call := by
  have requests : s'.requests = s.requests := by
    rw [Caller.requests, Caller.requests, limit, received]
  refine ⟨by rw [sending]; exact requested.unsent, ?_, ?_⟩
  · rw [AtFrame, requests, carried]
    exact requested.parsed
  · rw [requests, carried]
    exact requested.request

theorem Awaiting.same {s s' : Caller} {conn conn' : TcpConnSync} {call : Call}
    (awaiting : Awaiting s conn call) (limit : s'.serverLimit = s.serverLimit)
    (peer : s'.peer = s.peer) (sending : conn'.sendBound = conn.sendBound) :
    Awaiting s' conn' call := by
  have requests : s'.requests = s.requests := by rw [Caller.requests, Caller.requests, limit, peer]
  cases awaiting with
  | unanswered undelivered answered stage =>
      refine .unanswered (by rw [peer]; exact undelivered) (by rw [peer]; exact answered) ?_
      cases stage with
      | inl refused => exact Or.inl (by rw [requests, peer]; exact refused)
      | inr requested =>
          exact Or.inr (requested.same limit (by rw [peer]) (by rw [peer]) sending)
  | answered response undelivered answered mem requested =>
      exact .answered response (by rw [peer]; exact undelivered) (by rw [peer]; exact answered)
        (by rw [peer]; exact mem) (requested.same limit (by rw [peer]) (by rw [peer]) sending)

/-- A step that touches neither end keeps the order. -/
theorem Orderly.same {s s' : Caller} (orderly : Orderly s)
    (limit : s'.serverLimit = s.serverLimit) (peer : s'.peer = s.peer)
    (progress : s'.progress = s.progress)
    (ends : ∀ conn', s'.client.conn = some conn' → ∃ conn, s.client.conn = some conn ∧
      conn'.sendBound = conn.sendBound ∧ conn'.recvBound = conn.recvBound) : Orderly s' := by
  intro conn' held'
  obtain ⟨conn, held, sending, receiving⟩ := ends conn' held'
  have before := orderly conn held
  rw [progress]
  cases stage : s.progress with
  | idle | connected call | armed call =>
      rw [stage] at before
      exact before.same limit peer sending receiving
  | sent call =>
      rw [stage] at before
      exact ⟨by rw [receiving]; exact before.1, before.2.same limit peer sending⟩
  | failed call status =>
      rw [stage] at before
      exact before

/-! ### Sending and receiving -/

/-- At the end of a frame the server goes on with what arrives next. -/
theorem AtFrame.receives {s s' : Caller} {n : Nat} (atFrame : s.AtFrame n)
    (limit : s'.serverLimit = s.serverLimit) {more : Bytes}
    (received : s'.peer.received = s.peer.received ++ more) :
    s'.requests = ((frames s.serverLimit).drain .header more).prepend s.requests.emitted := by
  obtain ⟨phase, rest, _⟩ := atFrame
  rw [requests, limit, received, Decoder.drain_append]
  change (frames s.serverLimit).resume s.requests more = _
  rw [Decoder.resume, phase, rest]
  rfl

/-- The request of the call is on the wire, or nothing the server can answer. -/
theorem Clean.awaiting {s s' : Caller} {conn conn' : TcpConnSync} {call : Call}
    {fault : Option (Nat × SocketError)} {sink : Sink} (clean : Clean s conn) (whole : call.Whole)
    (writes : TcpConnSync.Writes (conn.queued call.message) ⟨s.peer.received, fault⟩ conn' sink)
    (limit : s'.serverLimit = s.serverLimit)
    (peer : s'.peer = { s.peer with received := sink.written }) : Awaiting s' conn' call := by
  have filled : (conn.queued call.message).sendBound.buffer.data = call.message.netStr := by
    rw [TcpConnSync.queued, Buffer.data_append, clean.unsent, List.nil_append]
  have due : (conn.queued call.message).due = call.message.netStr.length % 2 ^ 32 := by
    rw [TcpConnSync.due_eq, filled]
  have undelivered : s'.peer.undelivered = [] := by rw [peer]; exact clean.undelivered
  have answered : s'.peer.answered = s'.peer.carried := by rw [peer]; exact clean.answered
  have carried : s'.peer.carried = s.peer.carried := by rw [peer]
  have before : s.requests.emitted.length = s.peer.carried := clean.parsed.2.2
  refine .unanswered undelivered answered ?_
  rcases whole with fits | cut
  · rw [Nat.mod_eq_of_lt fits] at due
    have received : s'.peer.received = s.peer.received ++ call.message.netStr := by
      rw [peer, writes.written, filled, due, List.take_length]
    have parsed := clean.parsed.receives limit received
    have size : call.request.length < 2 ^ 32 := by
      rw [Call.message, Message.length_netStr] at fits
      exact lt_of_le_of_lt (Nat.le_add_left _ _) fits
    have alone : call.message.netStr = (Message.ofPayload call.request).netStr ++ [] := by
      rw [List.append_nil, Call.message]
    by_cases admitted : s.serverLimit = 0 ∨ call.request.length ≤ s.serverLimit.toNat
    · have found : s'.requests = ⟨s.requests.emitted ++ [call.request], some .header, []⟩ := by
        rw [parsed, alone, drain_ofPayload [] size admitted, drain_header_short (by decide)]
        rfl
      refine Or.inr ⟨?_, ?_, ?_⟩
      · rw [writes.left, filled, due, List.drop_length]
      · rw [AtFrame, found, carried, ← before, List.length_append]
        exact ⟨rfl, rfl, rfl⟩
      · rw [found, carried, ← before]
        exact List.getElem?_concat_length
    · refine Or.inl ?_
      rw [parsed, alone, drain_ofPayload_refused [] size admitted, carried, ← before]
      simp
  · have received : s'.peer.received =
        s.peer.received ++ call.message.netStr.take (call.message.netStr.length % 2 ^ 32) := by
      rw [peer, writes.written, filled, due]
    refine Or.inl ?_
    rw [clean.parsed.receives limit received, drain_header_short, carried, ← before]
    · simp
    · exact lt_of_le_of_lt (List.length_take_le _ _) cut

/-- A call that has read a message has read the answer to its request. -/
theorem Awaiting.takes {s : Caller} {conn conn' : TcpConnSync} {call : Call} {netMessage : Message}
    {socket socket' : Socket} (awaiting : Awaiting s conn call)
    (unread : conn.recvBound.buffer.data = []) (stream : socket.undelivered = s.peer.undelivered)
    (takes : TcpConnSync.Takes conn socket netMessage conn' socket') :
    (s.peer.carried, netMessage) ∈ s.peer.answers ∧ Requested s conn call ∧
      s.peer.answered = s.peer.carried + 1 ∧ conn'.recvBound.buffer.data = [] ∧
      socket'.undelivered = [] := by
  have remaining : conn.remaining socket = s.peer.undelivered := by
    rw [TcpConnSync.remaining, unread, stream, List.nil_append]
  cases awaiting with
  | unanswered undelivered _ _ =>
      obtain ⟨raw, length, _, split⟩ := takes.front
      rw [remaining, undelivered] at split
      have none := congrArg List.length split
      rw [List.length_append, length, List.length_nil, Header.size] at none
      omega
  | answered response undelivered answered mem requested =>
      have frame : conn.remaining socket = response.message.netStr ++ [] := by
        rw [remaining, undelivered, List.append_nil]
      obtain ⟨rfl, nothing⟩ := takes.frame frame response.whole
      obtain ⟨unread', delivered⟩ := List.append_eq_nil_iff.mp nothing
      exact ⟨mem, requested, answered, unread', delivered⟩

/-! ### The invariant, step by step -/

theorem Orderly.enter {s : Caller} (orderly : Orderly s) (call : Call) (connects : Bool) :
    Orderly (s.enter call connects) := by
  rcases s.enter_cases call connects with same | ⟨idle, ⟨_, _, next⟩ | ⟨_, next⟩ | ⟨dropped, next⟩⟩
  · rw [same]
    exact orderly
  · rw [next]
    intro conn held
    have clean := orderly conn held
    rw [idle] at clean
    exact clean.same rfl rfl rfl rfl
  · rw [next]
    intro conn held
    cases held
    exact clean_fresh _ _ rfl
  · rw [next]
    exact orderly_of_dropped dropped

theorem conn_setRpcCallTimeout (c : RpcClientImpl) (number : Nat) (sec : UInt32) :
    (c.setRpcCallTimeout number sec).conn = c.conn := by
  rw [RpcClientImpl.setRpcCallTimeout]
  split
  · rfl
  · rfl

theorem Orderly.arm {s : Caller} (orderly : Orderly s) : Orderly s.arm := by
  rcases s.arm_cases with same | ⟨call, connected, next⟩
  · rw [same]
    exact orderly
  · rw [next]
    intro conn held
    have kept : s.client.conn = some conn := by
      rw [← held]
      split
      · exact (conn_setRpcCallTimeout _ _ _).symm
      · rfl
    have clean := orderly conn kept
    rw [connected] at clean
    exact clean.same rfl rfl rfl rfl

theorem Orderly.send {s : Caller} (orderly : Orderly s) {fault : Option (Nat × SocketError)}
    (whole : s.SendsWhole (.send fault)) : Orderly (s.send fault) := by
  rcases s.send_cases fault with same | ⟨call, conn, ok, conn', sink, armed, held, sent, next⟩
  · rw [same]
    exact orderly
  · rw [next]
    cases ok with
    | false => exact orderly_of_dropped rfl
    | true =>
        have clean := orderly conn held
        rw [armed] at clean
        have writes := TcpConnSync.sendNetMessage_true sent
        have receiving : conn'.recvBound = conn.recvBound := writes.receiving
        intro conn₁ held₁
        cases held₁
        refine ⟨by rw [receiving]; exact clean.unread, ?_⟩
        exact clean.awaiting (whole call conn conn' sink armed held sent) writes rfl rfl

theorem Orderly.drop {s : Caller} (call : Call) (status : RpcClientStatus) :
    Orderly (s.drop call status) := orderly_of_dropped rfl

theorem Orderly.recv {s : Caller} (orderly : Orderly s) (offers : Nat → Nat) :
    Orderly (s.recv offers) := by
  rcases s.recv_cases offers with same | ⟨call, conn, sent, held, outcome⟩
  · rw [same]
    exact orderly
  · rcases outcome with ⟨netMessage, conn', socket, read, next⟩ | next
    · have before := orderly conn held
      rw [sent] at before
      have takes := TcpConnSync.recvNetMessage_true read
      obtain ⟨_, requested, answered, unread, delivered⟩ := before.2.takes before.1 rfl takes
      rw [next]
      intro conn₁ held₁
      cases held₁
      exact ⟨by rw [takes.sending]; exact requested.unsent, unread, delivered, requested.parsed,
        answered⟩
    · rw [next]
      exact Orderly.drop call _

theorem Orderly.recvError {s : Caller} (orderly : Orderly s) (ec : SocketError) :
    Orderly (s.recvError ec) := by
  rcases s.recvError_cases ec with same | ⟨call, conn, _, _, next⟩
  · rw [same]
    exact orderly
  · rw [next]
    exact Orderly.drop call _

theorem Orderly.fail {s : Caller} (orderly : Orderly s) : Orderly s.fail := by
  rcases s.fail_cases with same | ⟨call, status, failed, next⟩
  · rw [same]
    exact orderly
  · rw [next]
    intro conn held
    have impossible := orderly conn held
    rw [failed] at impossible
    exact impossible.elim

theorem Orderly.expire {s : Caller} (orderly : Orderly s) : Orderly s.expire := by
  rw [Caller.expire]
  split
  · exact orderly
  · exact orderly.same rfl rfl rfl fun conn held => ⟨conn, held, rfl, rfl⟩

theorem Orderly.handler {s : Caller} (orderly : Orderly s) (i : Nat) : Orderly (s.handler i) := by
  rcases s.handler_cases i with ⟨_, same⟩ | ⟨number, timer, ⟨_, _, next⟩ |
    ⟨_, _, ⟨_, next⟩ | ⟨conn, held, next⟩⟩⟩
  · rw [same]
    exact orderly
  · rw [next]
    exact orderly.same rfl rfl rfl fun conn held => ⟨conn, held, rfl, rfl⟩
  · rw [next]
    exact orderly.same rfl rfl rfl fun conn held => ⟨conn, held, rfl, rfl⟩
  · rw [next]
    refine orderly.same rfl rfl rfl fun conn' held' => ?_
    cases held'
    exact ⟨conn, held, rfl, rfl⟩

/-- The server can answer only the request of the running call, and only once. -/
theorem Orderly.respond {s : Caller} (orderly : Orderly s) (i : Nat) (response : Response) :
    Orderly (s.respond i response) := by
  rw [Caller.respond]
  split
  · next possible =>
      obtain ⟨connected, after, present⟩ := possible
      rw [payloads_eq] at present
      obtain ⟨conn, held⟩ := Option.isSome_iff_exists.mp connected
      have before := orderly conn held
      intro conn₁ held₁
      cases held.symm.trans held₁
      have idle : Clean s conn → False := by
        intro clean
        have parsed := clean.parsed.2.2
        have answered := clean.answered
        omega
      cases stage : s.progress with
      | idle | connected call | armed call =>
          rw [stage] at before
          exact (idle before).elim
      | failed call status =>
          rw [stage] at before
          exact before.elim
      | sent call =>
          rw [stage] at before
          refine ⟨before.1, ?_⟩
          cases before.2 with
          | answered earlier _ answered _ requested =>
              have parsed := requested.parsed.2.2
              omega
          | unanswered undelivered answered asked =>
              cases asked with
              | inl refused => omega
              | inr requested =>
                  have parsed := requested.parsed.2.2
                  have place : i = s.peer.carried := by omega
                  refine .answered response ?_ (by rw [place]) ?_
                    (requested.same rfl rfl rfl rfl)
                  · simp only [undelivered, List.nil_append]
                  · simp [place]
  · exact orderly

theorem Orderly.step {s : Caller} {a : Action} (orderly : Orderly s) (whole : s.SendsWhole a) :
    Orderly (s.step a) := by
  rw [Caller.step]
  split
  · exact orderly
  · cases a with
    | enter call connects => exact orderly.enter call connects
    | arm => exact orderly.arm
    | send fault => exact orderly.send whole
    | recv offers => exact orderly.recv offers
    | recvError ec => exact orderly.recvError ec
    | fail => exact orderly.fail
    | expire => exact orderly.expire
    | handler i => exact orderly.handler i
    | respond i response => exact orderly.respond i response

/-! ### Whole runs -/

theorem checkResponse_ok {call : Call} {netMessage : Message}
    (ok : (call.checkResponse netMessage).1 = RpcClientStatus.OK) :
    ∃ response, RpcResponseMessage.parse netMessage.payload = some response ∧
      (call.checkResponse netMessage).2 = some response.payload := by
  rw [Call.checkResponse] at ok ⊢
  cases parsed : RpcResponseMessage.parse netMessage.payload with
  | none =>
      rw [parsed] at ok
      cases ok
  | some response =>
      rw [parsed] at ok
      refine ⟨response, rfl, ?_⟩
      simp only at ok ⊢
      split at ok
      · cases ok
      · next answers =>
          rw [if_neg answers]
          split at ok
          · next rejected =>
              have accepted : response.header.status = RpcResponseStatus.OK :=
                congrArg RpcResponseStatus.mk (congrArg RpcClientStatus.code ok)
              exact absurd accepted rejected
          · next accepted => rw [if_neg accepted]

/-- In an orderly state a call that returns `OK` returns its own answer. -/
theorem Orderly.noCrosstalk {s : Caller} (orderly : Orderly s) (failure : NetworkFailure s)
    (a : Action) : NoCrosstalk s a := by
  intro r new ok
  rcases returned_cases new with unconnected | ⟨call, status, failed, rfl⟩ |
    ⟨offers, call, conn, netMessage, conn', socket, sent, held, read, rfl⟩
  · rw [unconnected] at ok
    cases ok
  · have kept : s.client.failure status = RpcClientStatus.OK := ok
    rw [RpcClientImpl.failure] at kept
    split at kept
    · cases kept
    · rw [kept] at failed
      rcases failure call _ failed with same | same
      · cases same
      · cases same
  · have before := orderly conn held
    rw [sent] at before
    have takes := TcpConnSync.recvNetMessage_true read
    obtain ⟨answer, requested, _⟩ := before.2.takes before.1 rfl takes
    obtain ⟨response, parsed, respload⟩ := checkResponse_ok ok
    refine ⟨response.payload, respload, ?_, netMessage, response, answer, parsed, rfl⟩
    rw [payloads_eq]
    exact requested.request

/-- In every run in which every request that is sent is whole, a call that
returns `OK` returns the payload of the server's answer to its own request. -/
theorem no_crosstalk (serverLimit : UInt32) (clientSetting : RpcClientSetting)
    (actions : List Action)
    (whole : Along step SendsWhole (fresh serverLimit clientSetting) actions) :
    ∀ before a, before ++ [a] <+: actions →
      NoCrosstalk (run step (fresh serverLimit clientSetting) before) a := by
  rw [← along_iff_prefix]
  have orderly : Orderly (fresh serverLimit clientSetting) ∧
      NetworkFailure (fresh serverLimit clientSetting) :=
    ⟨orderly_of_dropped rfl, networkFailure_of_ne fun _ _ => nofun⟩
  exact whole.of_invariant (P := fun s => Orderly s ∧ NetworkFailure s)
    (fun s a invariant sends => ⟨invariant.1.step sends, invariant.2.step a⟩)
    (fun s a invariant _ => invariant.1.noCrosstalk invariant.2 a) orderly

/-- A response of service 1, operation 2. -/
def answer (data : Bytes) : Response where
  message := Message.ofPayload ((RpcResponseMessage.make 1 2 data).netStr.take 64)
  whole := by
    refine (length_ofPayload ?_).symm
    exact lt_of_le_of_lt (List.length_take_le _ _) (by decide)

/-- One call sends a request of one byte; its answer arrives and is read. -/
theorem no_crosstalk_one_call :
    NoCrosstalk
      (run step (fresh 0 ⟨0, 0⟩) [.enter ⟨1, 2, bytes "a", 0⟩ true, .arm, .send none,
        .respond 0 (answer (bytes "x"))])
      (.recv fun _ => 64) := by
  refine no_crosstalk 0 ⟨0, 0⟩ [.enter ⟨1, 2, bytes "a", 0⟩ true, .arm, .send none,
    .respond 0 (answer (bytes "x")), .recv fun _ => 64] ?_ _ _ (List.prefix_refl _)
  refine ⟨trivial, trivial, ?_, trivial, trivial, trivial⟩
  intro call conn conn' sink armed held sent
  cases armed
  decide

/-! ### A request beyond 32 bits -/

/-- An open connection that has read all there was, without a send limit. -/
structure Idle (c : TcpConnSync) : Prop where
  working : c.connStat = .kWorking
  setting : c.clientSetting = ⟨0, 64⟩
  unread : c.recvBound.buffer.data = []

/-- A frame within the limit is read as soon as it is there. -/
theorem recv_frame {c : TcpConnSync} (idle : Idle c) {data : Bytes} (short : data.length ≤ 64)
    (offers : Nat → Nat) :
    ∃ c' socket, c.recvNetMessage ⟨(Message.ofPayload data).netStr, offers, 0⟩ Message.empty =
        some (true, Message.ofPayload data, c', socket) ∧
      Idle c' ∧ c'.sendBound = c.sendBound ∧ socket.undelivered = [] := by
  have limited : c.recvLimit = 64 := by rw [TcpConnSync.recvLimit, idle.setting]
  have small : TcpConnSync.Small c := by rw [TcpConnSync.Small, idle.unread]; decide
  have stream : c.remaining ⟨(Message.ofPayload data).netStr, offers, 0⟩ =
      (Message.ofPayload data).netStr ++ [] := by
    rw [TcpConnSync.remaining, idle.unread, List.nil_append, List.append_nil]
  obtain ⟨c', socket, read, takes, rest⟩ :=
    TcpConnSync.recvNetMessage_admitted idle.working small (lt_of_le_of_lt short (by decide)) stream
      (Or.inr (by rw [limited]; exact short)) Message.empty
  obtain ⟨unread, delivered⟩ := List.append_eq_nil_iff.mp rest
  exact ⟨c', socket, read, ⟨takes.stat.trans idle.working, takes.setting.trans idle.setting,
    unread⟩, takes.sending, delivered⟩

/-- What is written and what is left of a send buffer. -/
def written (buffered : Bytes) : Bytes := buffered.take (buffered.length % 2 ^ 32)

def leftover (buffered : Bytes) : Bytes := buffered.drop (buffered.length % 2 ^ 32)

/-- A call waits for its response, which has been sent as the answer to request
`i`. -/
def waiting (s : Caller) (call : Call) (c : TcpConnSync) (received : Bytes) (i : Nat)
    (response : Response) : Caller :=
  { s with
    client := { s.client with conn := some c }
    peer := { s.peer with
      received := received
      undelivered := response.message.netStr
      answered := i + 1
      answers := s.peer.answers ++ [(i, response.message)] }
    progress := .sent call }

/-- An untimed call on an open connection sends its request and is answered. -/
theorem run_waiting {s : Caller} {call : Call} {c : TcpConnSync} (alive : s.crashed = false)
    (connected : s.progress = .connected call) (held : s.client.conn = some c) (idle : Idle c)
    (untimed : call.timeoutSec = 0) (delivered : s.peer.undelivered = []) {buffered : Bytes}
    (buffer : c.sendBound.buffer.data ++ call.message.netStr = buffered) {i : Nat}
    (after : s.peer.answered ≤ i)
    (present : i < (parse s.serverLimit (s.peer.received ++ written buffered)).payloads.length)
    (response : Response) :
    ∃ c', run step s [.arm, .send none, .respond i response] =
        waiting s call c' (s.peer.received ++ written buffered) i response ∧
      Idle c' ∧ c'.sendBound.buffer.data = leftover buffered := by
  obtain ⟨c', sink, sent⟩ := TcpConnSync.sendNetMessage_unfailing idle.working
    (by rw [idle.setting]) s.peer.received call.message
  have writes := TcpConnSync.sendNetMessage_true sent
  have filled : (c.queued call.message).sendBound.buffer.data = buffered := by
    rw [TcpConnSync.queued, Buffer.data_append, buffer]
  have out : sink.written = s.peer.received ++ written buffered := by
    rw [writes.written, TcpConnSync.due_eq, filled]
    rfl
  have left : c'.sendBound.buffer.data = leftover buffered := by
    rw [writes.left, TcpConnSync.due_eq, filled]
    rfl
  refine ⟨c', ?_, ⟨writes.stat.trans idle.working, writes.setting.trans idle.setting,
    by rw [writes.receiving]; exact idle.unread⟩, left⟩
  have armed : s.step .arm = { s with progress := .armed call } := by
    rw [step_alive alive, perform, arm, connected]
    simp only [untimed]
    rfl
  have sending : ({ s with progress := .armed call } : Caller).step (.send none) =
      { s with
        client := { s.client with conn := some c' }
        peer := { s.peer with received := s.peer.received ++ written buffered }
        progress := .sent call } := by
    rw [step_alive, perform, send]
    · simp only [held, sent, out, if_true]
    · exact alive
  rw [run_cons, armed, run_cons, sending, run_cons, run_nil, step_alive, perform, respond,
    if_pos ⟨rfl, after, present⟩, waiting]
  · simp only [delivered, List.nil_append]
  · exact alive

/-- The waiting call returns what the response says. -/
theorem step_waiting {s : Caller} {c : TcpConnSync} (alive : s.crashed = false) (idle : Idle c)
    (call : Call) (received : Bytes) (i : Nat) (data : Bytes) (offers : Nat → Nat) :
    ∃ c', (waiting s call c received i (answer data)).step (.recv offers) =
        { s with
          client := { s.client with conn := some c' }
          peer := ⟨received, [], s.peer.carried + 1, i + 1,
            s.peer.answers ++ [(i, (answer data).message)]⟩
          progress := .idle
          returned := s.returned ++ [⟨s.calls, call, (call.checkResponse (answer data).message).1,
            (call.checkResponse (answer data).message).2⟩] } ∧
      Idle c' ∧ c'.sendBound = c.sendBound := by
  have short : ((RpcResponseMessage.make 1 2 data).netStr.take 64).length ≤ 64 :=
    List.length_take_le _ _
  obtain ⟨c', socket, read, idle', sending, delivered⟩ := recv_frame idle short offers
  refine ⟨c', ?_, idle', sending⟩
  rw [step_alive, perform, recv]
  · simp only [waiting, answer, read, finish, delivered]
  · exact alive


/-- The request hidden in a payload, and the one sent after it. -/
def hidden : Call := ⟨1, 2, bytes "a", 0⟩

def second : Call := ⟨1, 2, bytes "b", 0⟩

@[irreducible] def padding : Bytes := List.replicate (2 ^ 32 - 33) 0

theorem length_padding : padding.length = 2 ^ 32 - 33 := by rw [padding, List.length_replicate]

/-- A call whose payload of 2^32 bytes begins with the hidden request. -/
def oversized : Call := ⟨1, 2, hidden.message.netStr ++ padding, 0⟩

/-- All the server sees of the oversized request. -/
def cutRequest : Bytes := (RpcRequestMessage.make 1 2 []).netStr

theorem length_hidden : hidden.message.netStr.length = 33 := by decide

theorem length_request (call : Call) : call.request.length = 16 + call.payload.length := by
  rw [Call.request, RpcRequestMessage.length_netStr]
  rfl

theorem length_message (call : Call) : call.message.netStr.length = 32 + call.payload.length := by
  have request := length_request call
  have message : call.message.netStr.length = Header.size + call.request.length := by
    rw [Call.message, Message.length_netStr]
    rfl
  rw [message, request, Header.size]
  omega

theorem length_payload : oversized.payload.length = 2 ^ 32 := by
  have split : oversized.payload = hidden.message.netStr ++ padding := rfl
  rw [split, List.length_append, length_hidden, length_padding]
  omega

/-- The oversized message is cut behind both headers. -/
theorem cut_oversized :
    oversized.message.netStr =
      (Message.ofPayload cutRequest).netStr ++ (hidden.message.netStr ++ padding) := by
  have size : oversized.request.length = 16 + 2 ^ 32 := by rw [length_request, length_payload]
  have length : UInt32.ofNat oversized.request.length = UInt32.ofNat cutRequest.length := by
    have short : cutRequest.length = 16 := by decide
    refine UInt32.toNat_inj.mp ?_
    rw [UInt32.toNat_ofNat', UInt32.toNat_ofNat', size, short]
    omega
  have split : oversized.request = cutRequest ++ (hidden.message.netStr ++ padding) := by
    rw [Call.request, cutRequest, RpcRequestMessage.netStr, RpcRequestMessage.netStr]
    change _ = _ ++ [] ++ _
    rw [List.append_nil]
    rfl
  rw [Message.netStr, Call.message, Message.netStr, Message.ofPayload, Message.ofPayload, length,
    split, List.append_assoc]

theorem written_oversized :
    written oversized.message.netStr = (Message.ofPayload cutRequest).netStr ∧
      leftover oversized.message.netStr = hidden.message.netStr ++ padding := by
  have cut : (Message.ofPayload cutRequest).netStr.length = 32 := by decide
  have due : oversized.message.netStr.length % 2 ^ 32 = 32 := by
    rw [length_message, length_payload]
    omega
  rw [written, leftover, due, cut_oversized]
  exact ⟨List.take_left' cut, List.drop_left' cut⟩

theorem written_second :
    written (hidden.message.netStr ++ padding ++ second.message.netStr) =
      hidden.message.netStr := by
  have own : second.message.netStr.length = 33 := by decide
  have due : (hidden.message.netStr ++ padding ++ second.message.netStr).length % 2 ^ 32 = 33 := by
    rw [List.length_append, List.length_append, length_hidden, length_padding, own]
    omega
  rw [written, due, List.append_assoc]
  exact List.take_left' length_hidden

theorem parse_cut (rest : Bytes) :
    (parse 0 ((Message.ofPayload cutRequest).netStr ++ rest)).payloads =
      cutRequest :: (parse 0 rest).payloads := by
  rw [parse_ofPayload rest (by decide) (Or.inl rfl)]

theorem parse_hidden :
    (parse 0 hidden.message.netStr).payloads = [hidden.request] := by
  have alone : hidden.message.netStr = (Message.ofPayload hidden.request).netStr ++ [] := by
    rw [List.append_nil, Call.message]
  rw [alone, parse_ofPayload [] (by decide) (Or.inl rfl)]
  have nothing : parse 0 [] = ⟨[], .waiting⟩ := by
    rw [parse]
    rfl
  rw [nothing]

theorem parse_both :
    (parse 0 ((Message.ofPayload cutRequest).netStr ++ hidden.message.netStr)).payloads =
      [cutRequest, hidden.request] := by
  rw [parse_cut, parse_hidden]

theorem idle_fresh : Idle (TcpConnSync.fresh ⟨0, 64⟩) := ⟨rfl, rfl, rfl⟩

theorem check_answer (payload : Bytes) :
    (Call.mk 1 2 payload 0).checkResponse (answer (bytes "x")).message =
        (RpcClientStatus.OK, some (bytes "x")) ∧
      (Call.mk 1 2 payload 0).checkResponse (answer (bytes "y")).message =
        (RpcClientStatus.OK, some (bytes "y")) := ⟨rfl, rfl⟩

theorem check_oversized :
    oversized.checkResponse (answer (bytes "x")).message =
      (RpcClientStatus.OK, some (bytes "x")) := (check_answer _).1

/-- The first call has been entered. -/
def firstEntered : Caller where
  serverLimit := 0
  client := ⟨⟨0, 64⟩, false, none, some (TcpConnSync.fresh ⟨0, 64⟩)⟩
  peer := Peer.fresh
  progress := .connected oversized
  calls := 1
  expired := false
  returned := []
  crashed := false

/-- The first call has returned and the second one has been entered. -/
def secondEntered (c : TcpConnSync) : Caller where
  serverLimit := 0
  client := ⟨⟨0, 64⟩, false, none, some c⟩
  peer := ⟨(Message.ofPayload cutRequest).netStr, [], 1, 1, [(0, (answer (bytes "x")).message)]⟩
  progress := .connected second
  calls := 2
  expired := false
  returned := [⟨1, oversized, RpcClientStatus.OK, some (bytes "x")⟩]
  crashed := false

theorem enter_first : (fresh 0 ⟨0, 64⟩).step (.enter oversized true) = firstEntered := rfl

theorem enter_kept {s : Caller} {c : TcpConnSync} (alive : s.crashed = false)
    (idle : s.progress = .idle) (held : s.client.conn = some c) (call : Call) :
    s.step (.enter call true) =
      { s with calls := s.calls + 1, expired := false, progress := .connected call } := by
  rw [step_alive alive, perform, enter, idle, held]

/-- From the first call to the second one. -/
def firstCall : List Action :=
  List.append [.arm, .send none, .respond 0 (answer (bytes "x"))]
    [.recv fun _ => 64, .enter second true]

theorem run_first :
    ∃ c, run step firstEntered firstCall = secondEntered c ∧
      Idle c ∧ c.sendBound.buffer.data = hidden.message.netStr ++ padding := by
  have present : 0 < (parse firstEntered.serverLimit (firstEntered.peer.received ++
      written oversized.message.netStr)).payloads.length := by
    have seen : (parse firstEntered.serverLimit
        (firstEntered.peer.received ++ (Message.ofPayload cutRequest).netStr)).payloads =
        cutRequest :: (parse 0 []).payloads := by
      have parsed := parse_cut []
      rw [List.append_nil] at parsed
      exact parsed
    rw [written_oversized.1, seen]
    exact Nat.succ_pos _
  obtain ⟨c₁, first, idle₁, left₁⟩ := run_waiting (s := firstEntered) rfl rfl rfl idle_fresh rfl rfl
    (List.nil_append _) (Nat.le_refl 0) present (answer (bytes "x"))
  obtain ⟨c₂, read, idle₂, sending⟩ := step_waiting (s := firstEntered) rfl idle₁ oversized
    ([] ++ written oversized.message.netStr) 0 (bytes "x") (fun _ => 64)
  refine ⟨c₂, ?_, idle₂, by rw [sending, left₁, written_oversized.2]⟩
  rw [firstCall, List.append_eq, run_append, first, run_cons, run_cons, run_nil]
  refine (congrArg (fun s => step s (.enter second true)) read).trans ?_
  rw [List.nil_append, written_oversized.1, check_oversized]
  exact enter_kept rfl rfl rfl second

/-- Up to the moment at which the second call reads its response. -/
def leadUp : List Action :=
  .enter oversized true ::
    firstCall.append [.arm, .send none, .respond 1 (answer (bytes "y"))]

theorem run_leadUp :
    ∃ c c', run step (fresh 0 ⟨0, 64⟩) leadUp =
        waiting (secondEntered c) second c'
          ((Message.ofPayload cutRequest).netStr ++ hidden.message.netStr) 1
          (answer (bytes "y")) ∧
      Idle c' := by
  obtain ⟨c, first, idle, left⟩ := run_first
  have buffer : c.sendBound.buffer.data ++ second.message.netStr =
      hidden.message.netStr ++ padding ++ second.message.netStr := by rw [left]
  have present : 1 < (parse (secondEntered c).serverLimit ((secondEntered c).peer.received ++
      written (hidden.message.netStr ++ padding ++ second.message.netStr))).payloads.length := by
    have seen : (parse (secondEntered c).serverLimit
        ((secondEntered c).peer.received ++ hidden.message.netStr)).payloads =
        [cutRequest, hidden.request] := parse_both
    rw [written_second, seen]
    exact Nat.lt_succ_self 1
  obtain ⟨c', waits, idle', _⟩ := run_waiting (s := secondEntered c) rfl rfl rfl idle rfl
    rfl buffer (Nat.le_refl 1) present (answer (bytes "y"))
  refine ⟨c, c', ?_, idle'⟩
  have received : (secondEntered c).peer.received = (Message.ofPayload cutRequest).netStr := rfl
  rw [leadUp, run_cons, enter_first, List.append_eq, run_append, first, waits, written_second,
    received]

/-- The payload of the first call is cut at 2^32 bytes; what is left of it goes
out in place of the second request, and the second call returns the answer to
the request hidden there. -/
theorem second_call_reads_other_answer :
    (run step (fresh 0 ⟨0, 64⟩) (leadUp ++ [.recv fun _ => 64])).returned =
        [⟨1, oversized, RpcClientStatus.OK, some (bytes "x")⟩,
          ⟨2, second, RpcClientStatus.OK, some (bytes "y")⟩] ∧
      (parse 0 (run step (fresh 0 ⟨0, 64⟩) leadUp).peer.received).payloads =
        [cutRequest, hidden.request] ∧
      ¬NoCrosstalk (run step (fresh 0 ⟨0, 64⟩) leadUp) (.recv fun _ => 64) := by
  obtain ⟨c, c', waits, idle⟩ := run_leadUp
  obtain ⟨c'', read, _⟩ := step_waiting (s := secondEntered c) rfl idle second
    ((Message.ofPayload cutRequest).netStr ++ hidden.message.netStr) 1 (bytes "y") (fun _ => 64)
  have returned : ((run step (fresh 0 ⟨0, 64⟩) leadUp).step (.recv fun _ => 64)).returned =
      [⟨1, oversized, RpcClientStatus.OK, some (bytes "x")⟩,
        ⟨2, second, RpcClientStatus.OK, some (bytes "y")⟩] := by
    rw [waits, read]
    exact congrArg (fun r => [_, Return.mk 2 second r.1 r.2]) (check_answer (bytes "b")).2
  have seen : (parse 0 (run step (fresh 0 ⟨0, 64⟩) leadUp).peer.received).payloads =
      [cutRequest, hidden.request] := by
    rw [waits]
    exact parse_both
  refine ⟨?_, seen, ?_⟩
  · rw [run_append, run_cons, run_nil]
    exact returned
  · intro paired
    obtain ⟨respload, _, request, _⟩ :=
      paired ⟨2, second, RpcClientStatus.OK, some (bytes "y")⟩
        (by rw [returned, waits]; rfl) rfl
    have limit : (run step (fresh 0 ⟨0, 64⟩) leadUp).serverLimit = 0 := by
      rw [waits]
      rfl
    have place : (run step (fresh 0 ⟨0, 64⟩) leadUp).peer.carried = 1 := by
      rw [waits]
      rfl
    rw [limit, seen, place] at request
    have same : hidden.request = second.request := Option.some.inj request
    exact absurd same (by decide)

end Caller

end Heracles.Client
