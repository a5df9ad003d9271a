import Heracles.Network.Session

/-!
What goes on the wire.

`do_write` copies the next block of the send buffer into `io_block_` without
asking whether an earlier write still reads from it. As long as it only does so
when every write in flight has gone out completely (`Undisturbed`), the wire, the
rest of the block in flight and the send buffer together are the encodings of the
accepted messages (`Streaming`). Two messages sent in a row are enough to put the
second on the wire twice (`second_message_replaces_first`).
-/

namespace Heracles.Network

open Heracles.Base
open Heracles.Core

namespace Session

/-- Every write in flight has gone out completely. -/
def AllSent (s : Session) : Prop := ∀ w ∈ s.conn.writing, w.sent = w.toWrite

instance (s : Session) : Decidable s.AllSent :=
  inferInstanceAs (Decidable (∀ w ∈ s.conn.writing, w.sent = w.toWrite))

/-- The step copies into the block only when no write in flight still reads it,
and the send buffer stays below the range of its 32-bit size. -/
def Undisturbed (s : Session) : Action → Prop
  | .send msg =>
      s.Admits msg →
        s.AllSent ∧ s.conn.sendBound.buffer.data.length + msg.netStr.length < 2 ^ 32
  | .written i => s.Finished i → s.conn.sendBound.buffer.data ≠ [] → s.AllSent
  | _ => True

instance (s : Session) : ∀ a, Decidable (s.Undisturbed a)
  | .send msg => inferInstanceAs (Decidable (s.Admits msg → _ ∧ _))
  | .written i => inferInstanceAs (Decidable (s.Finished i → _ ≠ _ → s.AllSent))
  | .read _ | .transmit _ _ | .timeout => inferInstanceAs (Decidable True)

/-! ### The bytes on their way -/

/-- What the last write started still has to take from the block. -/
def inFlight (s : Session) : Bytes :=
  match s.conn.writing.getLast? with
  | none => []
  | some w => (s.conn.sendBound.ioBlock.take w.toWrite).drop w.sent

/-- The bytes accepted and not yet on the wire. -/
def pending (s : Session) : Bytes := s.inFlight ++ s.conn.sendBound.buffer.data

/-- The invariant: all writes but the last have gone out, and nothing that was
accepted is missing, repeated or out of order. -/
structure Streaming (s : Session) : Prop where
  live : s.conn.wasCancelled = false
  finished : ∀ w ∈ s.conn.writing.dropLast, w.sent = w.toWrite
  whole : s.wire ++ s.pending = s.accepted.flatMap Message.netStr
  started : s.conn.writing = [] → s.conn.sendBound.buffer.data = []
  small : s.conn.sendBound.buffer.data.length < 2 ^ 32

theorem inFlight_allSent {s : Session} (sent : s.AllSent) : s.inFlight = [] := by
  rw [inFlight]
  cases last : s.conn.writing.getLast? with
  | none => rfl
  | some w =>
      have member := List.mem_of_getLast? last
      simp only [sent w member]
      exact List.drop_eq_nil_of_le (List.length_take_le _ _)

theorem inFlight_concat {s : Session} {front : List AsyncWrite} {w : AsyncWrite}
    (writing : s.conn.writing = front ++ [w]) :
    s.inFlight = (s.conn.sendBound.ioBlock.take w.toWrite).drop w.sent := by
  simp only [inFlight, writing, List.getLast?_concat]

/-- Starting the next write moves bytes from the buffer into flight. -/
theorem streaming_doWrite {s : Session} (working : s.conn.connStat = .kWorking)
    (live : s.conn.wasCancelled = false) (sent : s.AllSent)
    (whole : s.wire ++ s.conn.sendBound.buffer.data = s.accepted.flatMap Message.netStr)
    (small : s.conn.sendBound.buffer.data.length < 2 ^ 32) :
    Streaming { s with conn := s.conn.doWrite.2 } := by
  have size := Buffer.toNat_getLength small
  by_cases empty : s.conn.sendBound.buffer.getLength = 0
  · rw [TcpConnAsync.doWrite_empty empty]
    rw [empty] at size
    have none : s.conn.sendBound.buffer.data = [] := List.length_eq_zero_iff.mp size.symm
    refine ⟨live, fun w member => sent w (List.mem_of_mem_dropLast member), ?_, fun _ => none, small⟩
    rw [pending, inFlight_allSent sent]
    exact whole
  · rw [TcpConnAsync.doWrite_filled working live empty]
    have length : (s.conn.sendBound.buffer.data.take s.conn.toWrite).length = s.conn.toWrite :=
      List.length_take_of_le (TcpConnAsync.toWrite_le s.conn)
    refine ⟨live, ?_, ?_, ?_, ?_⟩
    · intro w member
      rw [TcpConnAsync.writeStarted, List.dropLast_concat] at member
      exact sent w member
    · rw [pending, inFlight_concat rfl]
      simp only [TcpConnAsync.writeStarted, List.drop_zero]
      rw [List.take_left' length, List.take_append_drop]
      exact whole
    · intro none
      exact absurd none (List.concat_ne_nil _ _)
    · simp only [TcpConnAsync.writeStarted, List.length_drop]
      omega

/-! ### One step -/

theorem Streaming.send {s : Session} (streaming : Streaming s) (working : s.conn.connStat = .kWorking)
    {msg : Message} (undisturbed : s.Undisturbed (.send msg)) : Streaming (s.send msg) := by
  by_cases admitted : s.Admits msg
  · obtain ⟨sent, small⟩ := undisturbed admitted
    rw [send_admitted admitted]
    refine streaming_doWrite (s := { s with
      conn := { s.conn with
        sendBound := { s.conn.sendBound with buffer := s.conn.sendBound.buffer.append msg } }
      accepted := s.accepted ++ [msg] }) working streaming.live sent ?_ ?_
    · have whole := streaming.whole
      rw [pending, inFlight_allSent sent, List.nil_append] at whole
      simp only [Buffer.data_append, ← List.append_assoc, whole, List.flatMap_append,
        List.flatMap_singleton]
    · simp only [Buffer.data_append, List.length_append]
      exact small
  · rw [send_refused admitted]
    exact streaming

/-- Where the writes in flight are, seen from the last one. -/
theorem getElem?_concat_cases {front : List AsyncWrite} {last w : AsyncWrite} {i : Nat}
    (found : (front ++ [last])[i]? = some w) :
    (i < front.length ∧ w ∈ front) ∨ (i = front.length ∧ w = last) := by
  obtain ⟨inside, rfl⟩ := List.getElem?_eq_some_iff.mp found
  rw [List.length_append, List.length_singleton] at inside
  by_cases before : i < front.length
  · rw [List.getElem_append_left before]
    exact Or.inl ⟨before, List.getElem_mem before⟩
  · have same : i = front.length := by omega
    subst same
    simp

/-- The session after `taken` bytes of the `i`-th write have gone out. -/
def takeBytes (s : Session) (i : Nat) (w : AsyncWrite) (taken : Nat) : Session :=
  { s with
    conn := { s.conn with writing := s.conn.writing.set i { w with sent := w.sent + taken } }
    wire := s.wire ++ (s.conn.sendBound.ioBlock.drop w.sent).take taken }

theorem transmit_some {s : Session} {i n : Nat} {w : AsyncWrite}
    (found : s.conn.writing[i]? = some w) :
    s.transmit i n = s.takeBytes i w (min n (w.toWrite - w.sent)) := by
  rw [Session.transmit, found]
  rfl

/-- The network takes the next bytes of the only write it can take from. -/
theorem Streaming.transmit {s : Session} (streaming : Streaming s) (i n : Nat) :
    Streaming (s.transmit i n) := by
  cases found : s.conn.writing[i]? with
  | none =>
      rw [Session.transmit, found]
      exact streaming
  | some w =>
      rw [transmit_some found]
      cases List.eq_nil_or_concat s.conn.writing with
      | inl empty => simp [empty] at found
      | inr concat =>
          obtain ⟨front, last, writing⟩ := concat
          rw [List.concat_eq_append] at writing
          rw [writing] at found
          cases getElem?_concat_cases found with
          | inl earlier =>
              have sent : w.sent = w.toWrite := by
                refine streaming.finished w ?_
                rw [writing, List.dropLast_concat]
                exact earlier.2
              have same : s.conn.writing.set i w = s.conn.writing := by
                rw [writing]
                obtain ⟨inside, rfl⟩ := List.getElem?_eq_some_iff.mp found
                exact List.set_getElem_self inside
              have nothing : min n (w.toWrite - w.sent) = 0 := by omega
              simp only [takeBytes, nothing, Nat.add_zero, same, List.take_zero, List.append_nil]
              exact streaming
          | inr latest =>
              obtain ⟨rfl, rfl⟩ := latest
              have bound : min n (w.toWrite - w.sent) ≤ w.toWrite - w.sent := min_le_right _ _
              generalize min n (w.toWrite - w.sent) = taken at bound ⊢
              have moved : (s.conn.writing.set front.length { w with sent := w.sent + taken }) =
                  front ++ [{ w with sent := w.sent + taken }] := by
                rw [writing, List.set_append_right _ _ le_rfl, Nat.sub_self]
                rfl
              simp only [takeBytes, moved]
              refine ⟨streaming.live, ?_, ?_, ?_, streaming.small⟩
              · intro v member
                refine streaming.finished v ?_
                rw [List.dropLast_concat] at member
                rwa [writing, List.dropLast_concat]
              · have whole := streaming.whole
                rw [pending, inFlight_concat writing] at whole
                rw [pending, inFlight_concat rfl, ← whole]
                have cut : (s.conn.sendBound.ioBlock.drop w.sent).take taken ++
                    (s.conn.sendBound.ioBlock.take w.toWrite).drop (w.sent + taken) =
                    (s.conn.sendBound.ioBlock.take w.toWrite).drop w.sent := by
                  rw [List.drop_take, List.drop_take, ← List.drop_drop]
                  have split : w.toWrite - w.sent = taken + (w.toWrite - (w.sent + taken)) := by
                    omega
                  rw [split, List.take_add]
                simp only [← cut, List.append_assoc]
              · intro none
                exact absurd none (List.concat_ne_nil _ _)

theorem allSent_eraseIdx {s : Session} (sent : s.AllSent) (i : Nat) :
    ∀ w ∈ s.conn.writing.eraseIdx i, w.sent = w.toWrite :=
  fun w member => sent w (List.mem_of_mem_eraseIdx member)

/-- Removing a write that has gone out completely removes no bytes in flight. -/
theorem eraseIdx_finished {s : Session} (streaming : Streaming s) {i : Nat}
    (finished : s.Finished i) :
    (∀ w ∈ (s.conn.writing.eraseIdx i).dropLast, w.sent = w.toWrite) ∧
      inFlight { s with conn := { s.conn with writing := s.conn.writing.eraseIdx i } } =
        s.inFlight := by
  obtain ⟨w, found, gone⟩ := finished
  rw [Option.mem_def] at found
  cases List.eq_nil_or_concat s.conn.writing with
  | inl empty => simp [empty] at found
  | inr concat =>
      obtain ⟨front, last, writing⟩ := concat
      rw [List.concat_eq_append] at writing
      have drained : ∀ v ∈ front, v.sent = v.toWrite := by
        intro v member
        refine streaming.finished v ?_
        rwa [writing, List.dropLast_concat]
      rw [writing] at found
      cases getElem?_concat_cases found with
      | inl earlier =>
          have kept : s.conn.writing.eraseIdx i = front.eraseIdx i ++ [last] := by
            rw [writing, List.eraseIdx_append_of_lt_length earlier.1]
          constructor
          · intro v member
            rw [kept, List.dropLast_concat] at member
            exact drained v (List.mem_of_mem_eraseIdx member)
          · rw [inFlight_concat kept, inFlight_concat writing]
      | inr latest =>
          obtain ⟨rfl, rfl⟩ := latest
          have kept : s.conn.writing.eraseIdx front.length = front := by
            rw [writing, List.eraseIdx_append_of_length_le le_rfl, Nat.sub_self]
            exact List.append_nil front
          have all : s.AllSent := by
            intro v member
            rw [writing, List.mem_append, List.mem_singleton] at member
            cases member with
            | inl before => exact drained v before
            | inr same => rw [same, gone]
          constructor
          · intro v member
            rw [kept] at member
            exact drained v (List.mem_of_mem_dropLast member)
          · rw [inFlight_allSent all]
            refine inFlight_allSent fun v member => drained v ?_
            rwa [kept] at member

theorem Streaming.completeWrite {s : Session} (streaming : Streaming s)
    (working : s.conn.connStat = .kWorking) {i : Nat} (undisturbed : s.Undisturbed (.written i)) :
    Streaming (s.completeWrite i) := by
  by_cases finished : s.Finished i
  · rw [completeWrite_finished finished]
    obtain ⟨drained, same⟩ := eraseIdx_finished streaming finished
    have whole := streaming.whole
    by_cases empty : s.conn.sendBound.buffer.data = []
    · have none : (s.conn.writeGone i).sendBound.buffer.getLength = 0 := by
        rw [Buffer.getLength, TcpConnAsync.writeGone, empty]
        rfl
      rw [TcpConnAsync.doWrite_empty none]
      refine ⟨streaming.live, drained, ?_, fun _ => empty, streaming.small⟩
      rw [← whole, pending, pending, ← same]
      rfl
    · have sent := undisturbed finished empty
      rw [pending, inFlight_allSent sent, List.nil_append] at whole
      exact streaming_doWrite (s := { s with conn := s.conn.writeGone i }) working streaming.live
        (allSent_eraseIdx sent i) whole streaming.small
  · rw [Session.completeWrite, if_neg finished]
    exact streaming

/-- What is in flight and in the buffer does not depend on the receiving side. -/
theorem Streaming.completeRead {s : Session} (streaming : Streaming s) (chunk : Bytes) :
    Streaming (s.completeRead chunk) := by
  rw [Session.completeRead]
  split
  · exact streaming
  · next op reading =>
      split
      · have continues := TcpConnAsync.completeRead_continues s.conn op chunk
        refine ⟨continues.cancelled.trans streaming.live, ?_, ?_, ?_, ?_⟩
        · simp only [continues.writing]
          exact streaming.finished
        · have whole := streaming.whole
          rw [pending, inFlight] at whole ⊢
          simp only [continues.writing, continues.sendBound]
          exact whole
        · simp only [continues.writing, continues.sendBound]
          exact streaming.started
        · simp only [continues.sendBound]
          exact streaming.small
      · exact streaming

/-- As long as the connection works, an undisturbed step keeps the invariant. -/
theorem Streaming.step {s : Session} {a : Action} (streaming : Streaming s)
    (undisturbed : s.Undisturbed a) (working : (s.step a).conn.connStat = .kWorking) :
    Streaming (s.step a) := by
  have before := working_of_step working
  cases a with
  | read chunk =>
      rw [Session.step, if_pos before]
      exact streaming.completeRead chunk
  | send msg => exact streaming.send before undisturbed
  | transmit i n =>
      rw [Session.step, if_pos before]
      exact streaming.transmit i n
  | written i =>
      rw [Session.step, if_pos before]
      exact streaming.completeWrite before undisturbed
  | timeout =>
      rw [Session.step, if_pos before, Session.timeout] at working ⊢
      cases timer : s.conn.opsCancelTimer with
      | none => exact streaming
      | some armed =>
          rw [timer] at working
          cases working

/-! ### Whole runs -/

theorem streaming_opened (server : NetServer) : Streaming (opened server) := by
  have continues := TcpConnAsync.doRead_continues.1
    { TcpConnAsync.fresh server with connStat := .kWorking }
  refine ⟨continues.cancelled, ?_, ?_, ?_, ?_⟩
  · intro w member
    rw [opened, TcpConnAsync.start, continues.writing] at member
    cases member
  · rw [pending, inFlight, opened, TcpConnAsync.start]
    simp only [continues.writing, continues.sendBound]
    rfl
  · intro _
    rw [opened, TcpConnAsync.start]
    simp only [continues.sendBound]
    rfl
  · rw [opened, TcpConnAsync.start]
    simp only [continues.sendBound]
    exact Nat.zero_lt_of_lt (by decide : 1 < 2 ^ 32)

theorem streaming_run {s : Session} (streaming : Streaming s) {actions : List Action}
    (undisturbed : Along Session.step Undisturbed s actions)
    (working : (run Session.step s actions).conn.connStat = .kWorking) :
    Streaming (run Session.step s actions) := by
  induction actions generalizing s with
  | nil => exact streaming
  | cons a actions ih =>
      exact ih (streaming.step undisturbed.1 (working_of_run working)) undisturbed.2 working

/-- In every run whose steps are undisturbed, as long as the connection works,
the wire followed by the bytes still in flight or in the send buffer is the
accepted messages in the order of the calls; with no write in flight the wire
alone is. -/
theorem wire_is_messages_accepted (server : NetServer) (actions : List Action)
    (undisturbed : Along Session.step Undisturbed (opened server) actions)
    (working : (run Session.step (opened server) actions).conn.connStat = .kWorking) :
    (run Session.step (opened server) actions).wire ++
          (run Session.step (opened server) actions).pending =
        (run Session.step (opened server) actions).accepted.flatMap Message.netStr ∧
      ((run Session.step (opened server) actions).conn.writing = [] →
        (run Session.step (opened server) actions).wire =
          (run Session.step (opened server) actions).accepted.flatMap Message.netStr) := by
  have streaming := streaming_run (streaming_opened server) undisturbed working
  refine ⟨streaming.whole, fun idle => ?_⟩
  have whole := streaming.whole
  have sent : AllSent (run Session.step (opened server) actions) := by
    intro w member
    rw [idle] at member
    cases member
  rw [pending, inFlight_allSent sent, streaming.started idle] at whole
  rw [← whole]
  exact (List.append_nil _).symm

/-- A message sent, transmitted and completed before the next one. -/
theorem wire_is_messages_accepted_one_by_one :
    (run Session.step (opened ⟨0, 0, 0⟩)
        [.send (Message.ofPayload (bytes "a")), .transmit 0 17, .written 0,
          .send (Message.ofPayload (bytes "b")), .transmit 0 17, .written 0]).wire =
      (Message.ofPayload (bytes "a")).netStr ++ (Message.ofPayload (bytes "b")).netStr := by
  have sent := wire_is_messages_accepted ⟨0, 0, 0⟩
    [.send (Message.ofPayload (bytes "a")), .transmit 0 17, .written 0,
      .send (Message.ofPayload (bytes "b")), .transmit 0 17, .written 0]
    (by rw [opened_eq]; decide +kernel) (by rw [opened_eq]; decide +kernel)
  rw [sent.2 (by rw [opened_eq]; decide +kernel), opened_eq]
  decide +kernel

/-- Two messages sent before the network takes anything: both writes read the
second message out of the block. -/
theorem second_message_replaces_first :
    (run Session.step (opened ⟨0, 0, 0⟩)
        [.send (Message.ofPayload (bytes "a")), .send (Message.ofPayload (bytes "b")),
          .transmit 0 17, .transmit 1 17, .written 0, .written 0]).conn.connStat = .kWorking ∧
      (run Session.step (opened ⟨0, 0, 0⟩)
        [.send (Message.ofPayload (bytes "a")), .send (Message.ofPayload (bytes "b")),
          .transmit 0 17, .transmit 1 17, .written 0, .written 0]).conn.writing = [] ∧
      (run Session.step (opened ⟨0, 0, 0⟩)
        [.send (Message.ofPayload (bytes "a")), .send (Message.ofPayload (bytes "b")),
          .transmit 0 17, .transmit 1 17, .written 0, .written 0]).wire =
        (Message.ofPayload (bytes "b")).netStr ++ (Message.ofPayload (bytes "b")).netStr ∧
      (run Session.step (opened ⟨0, 0, 0⟩)
        [.send (Message.ofPayload (bytes "a")), .send (Message.ofPayload (bytes "b")),
          .transmit 0 17, .transmit 1 17, .written 0, .written 0]).wire ≠
        (run Session.step (opened ⟨0, 0, 0⟩)
          [.send (Message.ofPayload (bytes "a")), .send (Message.ofPayload (bytes "b")),
            .transmit 0 17, .transmit 1 17, .written 0, .written 0]).accepted.flatMap
          Message.netStr := by
  rw [opened_eq]
  decide +kernel

end Session

end Heracles.Network
