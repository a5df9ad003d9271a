import Heracles.Network.ServerConf

/-!
Accepting connections.

An accept is checked against the address list, takes a token, and is checked
against the limit on connections; live connections are counted by the
constructor and the destructor of their objects. The last check refuses only
above the limit, so it lets in one more than the limit, and the token that was
taken before it is not given back. `limit_kept_iff` says in which runs neither
matters.
-/

namespace Heracles.Network

open Heracles.Base

/-- What an `async_accept` completes with. -/
inductive Arrival where
  | error
  /-- The socket has no remote endpoint any more. -/
  | noEndpoint
  | remote (ip : Bytes)
  deriving DecidableEq, Repr

/-- Where `accept_handler` leaves its block. -/
inductive Verdict where
  | failed
  | unsafeIp
  | noToken
  | overLimit
  | connected
  deriving DecidableEq, Repr

/-- Refused by one of the checks. -/
def Verdict.refused (v : Verdict) : Prop := v = .unsafeIp ∨ v = .noToken ∨ v = .overLimit

instance instDecidableRefused (v : Verdict) : Decidable v.refused :=
  inferInstanceAs (Decidable (_ ∨ _))

/-- The server as far as accepting goes: `conns` are the live connections, each
with its remote address, and `currentConcurrency` is the counter they keep. -/
structure Acceptor where
  conf : ServerConf
  currentConcurrency : Int32
  conns : List Bytes
  deriving DecidableEq

namespace Acceptor

/-- `TcpConnAsync::TcpConnAsync`. -/
def construct (s : Acceptor) (ip : Bytes) : Acceptor :=
  { s with currentConcurrency := s.currentConcurrency + 1, conns := s.conns ++ [ip] }

/-- `TcpConnAsync::~TcpConnAsync` for the `i`-th live connection. -/
def destruct (s : Acceptor) (i : Nat) : Acceptor :=
  { s with currentConcurrency := s.currentConcurrency - 1, conns := s.conns.eraseIdx i }

def acceptHandler (s : Acceptor) : Arrival → Verdict × Acceptor
  | .error => (.failed, s)
  | .noEndpoint => (.failed, s)
  | .remote ip =>
      if ¬ s.conf.checkSafeIp ip then (.unsafeIp, s)
      else
        let (granted, limited) := s.conf.getServiceToken
        let s := { s with conf := { s.conf with toNetConf := limited } }
        if ¬ granted then (.noToken, s)
        else if s.conf.serviceConcurrency ≠ 0 ∧
            s.conf.serviceConcurrency < s.currentConcurrency then (.overLimit, s)
        else (.connected, s.construct ip)

/-- The events: an accept completes, a connection goes, the tokens are refilled. -/
inductive Action where
  | accept (arrival : Arrival)
  | close (i : Nat)
  | feed
  deriving DecidableEq, Repr

def step (s : Acceptor) : Action → Acceptor
  | .accept arrival => (s.acceptHandler arrival).2
  | .close i => if i < s.conns.length then s.destruct i else s
  | .feed => { s with conf := { s.conf with toNetConf := s.conf.feedServiceToken } }

/-- A server before its first accept. -/
def start (conf : ServerConf) : Acceptor := ⟨conf, 0, []⟩

/-! ### What is claimed -/

/-- No more connections than the limit are live. -/
def WithinLimit (s : Acceptor) : Prop :=
  (s.conns.length : Int) ≤ s.conf.serviceConcurrency.toInt

instance instDecidableWithinLimit (s : Acceptor) : Decidable s.WithinLimit :=
  inferInstanceAs (Decidable (_ ≤ _))

/-- An accept that a check refuses costs no token. -/
def RefusalIsFree (s : Acceptor) (a : Action) : Prop :=
  ∀ arrival, a = .accept arrival → (s.acceptHandler arrival).1.refused →
    (s.step a).conf.serviceToken = s.conf.serviceToken

/-- An accept gets past the checks of its address and for a token. -/
def Passes (s : Acceptor) (arrival : Arrival) : Prop :=
  ∃ ip, arrival = .remote ip ∧ s.conf.checkSafeIp ip = true ∧ s.conf.getServiceToken.1 = true

/-- The condition on a step: an accept that gets that far finds fewer connections
than the limit. -/
def HasRoom (s : Acceptor) (a : Action) : Prop :=
  ∀ arrival, a = .accept arrival → s.Passes arrival →
    (s.conns.length : Int) < s.conf.serviceConcurrency.toInt

/-! ### One step -/

/-- There is a limit, it is kept, and the counter counts the live connections. -/
structure Counted (s : Acceptor) : Prop where
  limit : 0 < s.conf.serviceConcurrency.toInt
  counter : s.currentConcurrency.toInt = s.conns.length
  within : WithinLimit s

/-- An accept changes nothing, or gets as far as the limit with its token taken. -/
theorem acceptHandler_cases (s : Acceptor) (arrival : Arrival) :
    (¬ s.Passes arrival ∧ (s.acceptHandler arrival).2 = s) ∨
      ∃ ip, s.Passes arrival ∧ s.acceptHandler arrival =
        let s := { s with conf := { s.conf with toNetConf := s.conf.getServiceToken.2 } }
        if s.conf.serviceConcurrency ≠ 0 ∧ s.conf.serviceConcurrency < s.currentConcurrency then
          (.overLimit, s)
        else (.connected, s.construct ip) := by
  cases arrival with
  | error =>
      refine Or.inl ⟨?_, rfl⟩
      rintro ⟨_, same, _⟩
      cases same
  | noEndpoint =>
      refine Or.inl ⟨?_, rfl⟩
      rintro ⟨_, same, _⟩
      cases same
  | remote ip =>
      cases safe : s.conf.checkSafeIp ip with
      | false =>
          refine Or.inl ⟨?_, ?_⟩
          · rintro ⟨_, same, listed, _⟩
            cases same
            exact Bool.false_ne_true (safe.symm.trans listed)
          · simp only [acceptHandler, safe, Bool.false_eq_true, not_false_eq_true, if_true]
      | true =>
          cases granted : s.conf.getServiceToken.1 with
          | false =>
              refine Or.inl ⟨?_, ?_⟩
              · rintro ⟨_, _, _, token⟩
                exact Bool.false_ne_true (granted.symm.trans token)
              · simp only [acceptHandler, safe, granted, NetConf.getServiceToken_refused granted,
                  not_true_eq_false, if_false, Bool.false_eq_true, not_false_eq_true, if_true]
          | true =>
              refine Or.inr ⟨ip, ⟨ip, rfl, safe, granted⟩, ?_⟩
              simp only [acceptHandler, safe, granted, not_true_eq_false, if_false]

/-- Up to the limit, an accept that gets that far is connected. -/
theorem Counted.acceptHandler {s : Acceptor} (counted : Counted s) {arrival : Arrival}
    (passes : s.Passes arrival) :
    ∃ ip, s.acceptHandler arrival = (.connected,
      { s with conf := { s.conf with toNetConf := s.conf.getServiceToken.2 } }.construct ip) := by
  have notAbove : ¬ s.conf.serviceConcurrency < s.currentConcurrency := by
    rw [Int32.lt_iff_toInt_lt, counted.counter, not_lt]
    exact counted.within
  rcases acceptHandler_cases s arrival with ⟨stopped, _⟩ | ⟨ip, _, handled⟩
  · exact absurd passes stopped
  · refine ⟨ip, ?_⟩
    rw [handled]
    exact if_neg fun above => notAbove above.2

/-- While the counter is right, a step keeps the limit and charges no refused accept
exactly when an accept that gets that far has room. -/
theorem Counted.step_iff {s : Acceptor} (counted : Counted s) (a : Action) :
    WithinLimit (s.step a) ∧ RefusalIsFree s a ↔ HasRoom s a := by
  have within := counted.within
  cases a with
  | feed => exact iff_of_true ⟨within, nofun⟩ nofun
  | close i =>
      refine iff_of_true ⟨?_, nofun⟩ nofun
      rw [Acceptor.step]
      split
      · have fewer := s.conns.length_eraseIdx_le i
        simp only [WithinLimit, destruct] at within ⊢
        omega
      · exact within
  | accept arrival =>
      by_cases passes : s.Passes arrival
      · obtain ⟨ip, connected⟩ := counted.acceptHandler passes
        have free : RefusalIsFree s (.accept arrival) := by
          intro other same refused
          obtain rfl := Action.accept.inj same
          rw [connected] at refused
          change Verdict.connected.refused at refused
          exact absurd refused (by decide)
        have room : HasRoom s (.accept arrival) ↔
            (s.conns.length : Int) < s.conf.serviceConcurrency.toInt := by
          constructor
          · exact fun room => room arrival rfl passes
          · exact fun room _ _ _ => room
        have length : WithinLimit (s.step (.accept arrival)) ↔
            (s.conns.length : Int) < s.conf.serviceConcurrency.toInt := by
          rw [Acceptor.step, connected]
          simp only [WithinLimit, construct, List.length_append, List.length_singleton]
          omega
        rw [room, ← length]
        exact and_iff_left free
      · rcases acceptHandler_cases s arrival with ⟨_, same⟩ | ⟨_, gets, _⟩
        · refine iff_of_true ⟨?_, ?_⟩ ?_
          · rw [Acceptor.step, same]
            exact within
          · intro other taken _
            obtain rfl := Action.accept.inj taken
            rw [Acceptor.step, same]
          · intro other taken gets
            obtain rfl := Action.accept.inj taken
            exact absurd gets passes
        · exact absurd gets passes

/-- The counter stays right while the accepts have room. -/
theorem Counted.step {s : Acceptor} (counted : Counted s) {a : Action} (room : HasRoom s a) :
    Counted (s.step a) := by
  have within := ((counted.step_iff a).mpr room).1
  have upper := s.conf.serviceConcurrency.toInt_lt
  cases a with
  | feed => exact ⟨counted.limit, counted.counter, within⟩
  | close i =>
      have counter := counted.counter
      have bound := counted.within
      rw [Acceptor.step] at within ⊢
      split at within
      · next live =>
          rw [if_pos live]
          refine ⟨counted.limit, ?_, within⟩
          simp only [WithinLimit] at bound
          simp only [destruct, List.length_eraseIdx_of_lt live, Int32.toInt_sub, Int32.toInt_one]
          rw [Int.bmod_eq_of_le (by omega) (by omega)]
          omega
      · next gone =>
          rw [if_neg gone]
          exact counted
  | accept arrival =>
      rcases acceptHandler_cases s arrival with ⟨_, same⟩ | ⟨_, passes, _⟩
      · rw [Acceptor.step, same]
        exact counted
      · obtain ⟨ip, connected⟩ := counted.acceptHandler passes
        have below := room arrival rfl passes
        rw [Acceptor.step, connected] at within ⊢
        refine ⟨counted.limit, ?_, within⟩
        have counter := counted.counter
        simp only [construct, List.length_append, List.length_singleton, Int32.toInt_add,
          Int32.toInt_one]
        rw [Int.bmod_eq_of_le (by omega) (by omega)]
        omega

theorem Counted.start {conf : ServerConf} (limit : 0 < conf.serviceConcurrency.toInt) :
    Counted (start conf) :=
  ⟨limit, rfl, limit.le⟩

/-! ### Whole runs -/

/-- In a run from the start of the server, the limit is kept in every state and no
refused accept costs a token exactly when every accept that passes the checks of
its address and for a token finds fewer connections than the limit. -/
theorem limit_kept_iff (conf : ServerConf) (limit : 0 < conf.serviceConcurrency.toInt)
    (actions : List Action) :
    Along step (fun s a => WithinLimit (s.step a) ∧ RefusalIsFree s a) (start conf) actions ↔
      Along step HasRoom (start conf) actions :=
  along_iff (fun _ _ counted room => Counted.step counted room)
    (fun _ a counted => Counted.step_iff counted a) (Counted.start limit)

/-- One connection at a time, five accepts in a second. -/
private def oneAtATime : ServerConf := { ServerConf.fresh with
  serviceConcurrency := 1, serviceSpeed := 5 }

private def client : Action := .accept (.remote (bytes "10.0.0.1"))

theorem limit_kept_iff_one :
    Along step (fun s a => WithinLimit (s.step a) ∧ RefusalIsFree s a) (start oneAtATime)
        [.feed, client, .close 0, client] ↔
      Along step HasRoom (start oneAtATime) [.feed, client, .close 0, client] :=
  limit_kept_iff oneAtATime (by decide) [.feed, client, .close 0, client]

/-- With a limit of one, the second of three accepts is connected, and the third is
refused and costs a token. -/
theorem second_connected_third_charged :
    ¬ (∀ conf actions, 0 < conf.serviceConcurrency.toInt →
        Along step (fun s a => WithinLimit (s.step a)) (start conf) actions) ∧
      ¬ ∀ conf actions, 0 < conf.serviceConcurrency.toInt →
        Along step RefusalIsFree (start conf) actions := by
  constructor
  · intro always
    obtain ⟨_, _, second, _⟩ := always oneAtATime [.feed, client, client] (by decide)
    exact absurd second (by decide +kernel)
  · intro always
    obtain ⟨_, _, _, third, _⟩ := always oneAtATime [.feed, client, client, client] (by decide)
    exact absurd (third _ rfl (by decide +kernel)) (by decide +kernel)

end Acceptor

end Heracles.Network
