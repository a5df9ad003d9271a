import Heracles.Network.Session

/-!
The timer that guards outstanding operations.

Reads and writes share one timer, and every completion revokes it. A read
completion always starts the next read, which arms the timer again; a write
completion does so only when the send buffer holds more. `guarded_iff` says that
this is the only way to lose the guard: a session is guarded throughout exactly
when no write completes with an empty send buffer.
-/

namespace Heracles.Network

open Heracles.Base
open Heracles.Core

namespace Session

/-- While the connection works and an operation is outstanding, the timer exists
with its wait pending. -/
def Guarded (s : Session) : Prop :=
  s.conn.connStat = .kWorking → (s.conn.reading.isSome ∨ s.conn.writing ≠ []) →
    s.conn.opsCancelTimer.isSome

instance (s : Session) : Decidable s.Guarded :=
  inferInstanceAs (Decidable (_ → (_ ∨ _) → _))

/-- No write completes with nothing left to write. -/
def Rearmed (s : Session) : Action → Prop
  | .written i =>
      s.conn.connStat = .kWorking → s.Finished i → s.conn.sendBound.buffer.getLength ≠ 0
  | _ => True

instance (s : Session) (a : Action) : Decidable (s.Rearmed a) := by
  cases a <;> unfold Rearmed <;> infer_instance

/-- While the connection works a read is outstanding and the timer runs. -/
structure Attended (s : Session) : Prop where
  timed : s.conn.server.opsCancelTimeOut ≠ 0
  live : s.conn.connStat = .kWorking → s.conn.wasCancelled = false
  reading : s.conn.connStat = .kWorking → s.conn.reading.isSome
  armed : s.conn.connStat = .kWorking → s.conn.opsCancelTimer.isSome

theorem Attended.guarded {s : Session} (attended : Attended s) : Guarded s :=
  fun working _ => attended.armed working

/-- Starting a write arms the timer; with nothing to write all stays as it is. -/
theorem Attended.doWrite {s : Session} (attended : Attended s) :
    Attended { s with conn := s.conn.doWrite.2 } := by
  by_cases working : s.conn.connStat = .kWorking
  · by_cases empty : s.conn.sendBound.buffer.getLength = 0
    · rw [TcpConnAsync.doWrite_empty empty]
      exact attended
    · have live := attended.live working
      rw [TcpConnAsync.doWrite_filled working live empty]
      refine ⟨attended.timed, fun _ => live, fun _ => attended.reading working, fun _ => ?_⟩
      simp only [TcpConnAsync.writeStarted, TcpConnAsync.setOpsCancelTimeout,
        if_neg attended.timed]
      rfl
  · rw [TcpConnAsync.doWrite, if_pos working]
    exact attended

theorem Attended.completeRead {s : Session} (attended : Attended s)
    (working : s.conn.connStat = .kWorking) (chunk : Bytes) : Attended (s.completeRead chunk) := by
  rw [Session.completeRead]
  split
  · exact attended
  · next op reading =>
      split
      · have continues := TcpConnAsync.completeRead_continues s.conn op chunk
        have live := attended.live working
        constructor
        · rw [continues.server]
          exact attended.timed
        · exact fun _ => continues.cancelled.trans live
        · exact fun still => continues.reading still live
        · exact fun still => continues.armed still live attended.timed
      · exact attended

theorem Attended.send {s : Session} (attended : Attended s) (msg : Message) :
    Attended (s.send msg) := by
  by_cases admitted : s.Admits msg
  · rw [send_admitted admitted]
    exact Attended.doWrite (s := { s with
      conn := { s.conn with
        sendBound := { s.conn.sendBound with buffer := s.conn.sendBound.buffer.append msg } }
      accepted := s.accepted ++ [msg] })
      ⟨attended.timed, attended.live, attended.reading, attended.armed⟩
  · rw [send_refused admitted]
    exact attended

/-- The next block is started with the timer it arms. -/
theorem Attended.written {s : Session} (attended : Attended s)
    (working : s.conn.connStat = .kWorking) {i : Nat} (rearmed : s.Rearmed (.written i)) :
    Attended (s.completeWrite i) := by
  by_cases finished : s.Finished i
  · have more := rearmed working finished
    have live := attended.live working
    have filled : (s.conn.writeGone i).sendBound.buffer.getLength ≠ 0 := more
    have still : (s.conn.writeGone i).connStat = .kWorking := working
    rw [completeWrite_finished finished, TcpConnAsync.doWrite_filled still live filled]
    refine ⟨attended.timed, fun _ => live, fun _ => attended.reading working, fun _ => ?_⟩
    have timed : (s.conn.writeGone i).server.opsCancelTimeOut ≠ 0 := attended.timed
    simp only [TcpConnAsync.writeStarted, TcpConnAsync.setOpsCancelTimeout, if_neg timed]
    rfl
  · rw [Session.completeWrite, if_neg finished]
    exact attended

theorem Attended.transmit {s : Session} (attended : Attended s) (i n : Nat) :
    Attended (s.transmit i n) := by
  rw [Session.transmit]
  split
  · exact attended
  · exact ⟨attended.timed, attended.live, attended.reading, attended.armed⟩

theorem Attended.timeout {s : Session} (attended : Attended s) : Attended s.timeout := by
  rw [Session.timeout]
  split
  · exact attended
  · constructor
    · exact attended.timed
    · intro working
      cases working
    · intro working
      cases working
    · intro working
      cases working

/-- Every event that meets the condition keeps the timer running. -/
theorem Attended.step {s : Session} {a : Action} (attended : Attended s) (rearmed : s.Rearmed a) :
    Attended (s.step a) := by
  by_cases working : s.conn.connStat = .kWorking
  · cases a with
    | read chunk =>
        rw [Session.step, if_pos working]
        exact attended.completeRead working chunk
    | send msg => exact attended.send msg
    | transmit i n =>
        rw [Session.step, if_pos working]
        exact attended.transmit i n
    | written i =>
        rw [Session.step, if_pos working]
        exact attended.written working rearmed
    | timeout =>
        rw [Session.step, if_pos working]
        exact attended.timeout
  · cases a with
    | send msg => exact attended.send msg
    | _ =>
        rw [Session.step, if_neg working]
        exact attended

/-- A write that completes with an empty send buffer leaves the outstanding read
unguarded. -/
theorem not_guarded_of_last_write {s : Session} {a : Action} (attended : Attended s)
    (last : ¬s.Rearmed a) : ¬Guarded (s.step a) := by
  cases a with
  | written i =>
      simp only [Rearmed, not_forall, not_not] at last
      obtain ⟨working, finished, empty⟩ := last
      have none : (s.conn.writeGone i).sendBound.buffer.getLength = 0 := empty
      rw [Session.step, if_pos working, completeWrite_finished finished,
        TcpConnAsync.doWrite_empty none]
      intro guarded
      have armed := guarded working (Or.inl (attended.reading working))
      cases armed
  | _ => exact absurd trivial last

/-! ### Whole runs -/

theorem guarded_iff_of_attended {s : Session} (attended : Attended s) (actions : List Action) :
    (∀ before, before <+: actions → Guarded (run Session.step s before)) ↔
      Along Session.step Rearmed s actions := by
  induction actions generalizing s with
  | nil =>
      constructor
      · intro _
        trivial
      · intro _ before empty
        rw [List.prefix_nil.mp empty]
        exact attended.guarded
  | cons a actions ih =>
      constructor
      · intro guarded
        have rearmed : s.Rearmed a := by
          by_contra last
          have first : [a] <+: a :: actions := ⟨actions, rfl⟩
          exact not_guarded_of_last_write attended last (guarded [a] first)
        refine ⟨rearmed, (ih (attended.step rearmed)).mp fun before early => ?_⟩
        exact guarded (a :: before) (List.cons_prefix_cons.mpr ⟨rfl, early⟩)
      · intro along before early
        cases before with
        | nil => exact attended.guarded
        | cons b before =>
            obtain ⟨rfl, later⟩ := List.cons_prefix_cons.mp early
            exact (ih (attended.step along.1)).mpr along.2 before later

theorem attended_opened {server : NetServer} (timed : server.opsCancelTimeOut ≠ 0) :
    Attended (opened server) := by
  have continues := TcpConnAsync.doRead_continues.1
    { TcpConnAsync.fresh server with connStat := .kWorking }
  constructor
  · rw [opened, TcpConnAsync.start, continues.server]
    exact timed
  · exact fun _ => continues.cancelled
  · exact fun working => continues.reading working rfl
  · exact fun working => continues.armed working rfl timed

/-- With a time-out set, the outstanding operations of a connection are guarded
in every state of a run exactly when no write in the run completes with an empty
send buffer. -/
theorem guarded_iff {server : NetServer} (timed : 0 < server.opsCancelTimeOut)
    (actions : List Action) :
    (∀ before, before <+: actions → Guarded (run Session.step (opened server) before)) ↔
      Along Session.step Rearmed (opened server) actions := by
  refine guarded_iff_of_attended (attended_opened ?_) actions
  intro zero
  rw [zero] at timed
  exact absurd timed (by decide)

/-- A message of 3000 bytes takes two writes: the first one completes with the
rest of the message in the buffer. -/
theorem guarded_between_blocks :
    Guarded (run Session.step (opened ⟨0, 0, 30⟩)
      [.send (Message.ofPayload (List.replicate 3000 0)), .transmit 0 2048, .written 0]) :=
  (@guarded_iff ⟨0, 0, 30⟩ (by decide) _).mpr (by
    rw [opened_eq]
    decide +kernel) _ (List.prefix_refl _)

/-- A reply of 17 bytes has gone out; the next request may never come. -/
theorem last_write_unguarded :
    (run Session.step (opened ⟨0, 0, 30⟩)
        [.send (Message.ofPayload (bytes "a")), .transmit 0 17, .written 0]).conn.connStat =
        .kWorking ∧
      (run Session.step (opened ⟨0, 0, 30⟩)
        [.send (Message.ofPayload (bytes "a")), .transmit 0 17, .written 0]).conn.reading =
        some ⟨.readHandler, 16⟩ ∧
      (run Session.step (opened ⟨0, 0, 30⟩)
        [.send (Message.ofPayload (bytes "a")), .transmit 0 17, .written 0]).conn.opsCancelTimer =
        none ∧
      ¬Guarded (run Session.step (opened ⟨0, 0, 30⟩)
        [.send (Message.ofPayload (bytes "a")), .transmit 0 17, .written 0]) := by
  rw [opened_eq]
  decide +kernel

end Session

end Heracles.Network
