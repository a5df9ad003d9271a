import Heracles.Client.TcpConnSync

/-!
What one blocking send puts on the wire.

The loop of `do_write` stops when the 32-bit size of the send buffer is zero, so a
send that succeeds has written as many bytes as that size was, and leaves the
rest of a larger buffer behind.
-/

namespace Heracles.Client

open Heracles.Base
open Heracles.Core
open Heracles.Network

namespace TcpConnSync

/-- The part of the send buffer its 32-bit size covers. -/
def due (c : TcpConnSync) : Nat := c.sendBound.buffer.getLength.toNat

theorem due_eq (c : TcpConnSync) : c.due = c.sendBound.buffer.data.length % 2 ^ 32 := by
  rw [due, Buffer.getLength, UInt32.toNat_ofNat']

/-- The bytes that are due have moved from the buffer to the wire. -/
structure Writes (c : TcpConnSync) (w : Sink) (c' : TcpConnSync) (w' : Sink) : Prop where
  written : w'.written = w.written ++ c.sendBound.buffer.data.take c.due
  left : c'.sendBound.buffer.data = c.sendBound.buffer.data.drop c.due
  receiving : c'.recvBound = c.recvBound
  stat : c'.connStat = c.connStat
  setting : c'.clientSetting = c.clientSetting

theorem due_blockTaken {c : TcpConnSync} (more : c.sendBound.buffer.getLength ≠ 0) :
    c.blockTaken.due = c.due - c.toWrite.toNat ∧ c.toWrite.toNat ≤ c.due := by
  have amount := toNat_toWrite c
  have least := Buffer.toNat_getLength_le c.sendBound.buffer
  have taken : c.toWrite.toNat ≤ c.due := by
    rw [due]
    omega
  refine ⟨?_, taken⟩
  rw [due_eq] at taken ⊢
  rw [due_eq, (blockTaken_eq more).2, List.length_drop]
  omega

theorem sinkWrite_none {w w' : Sink} {data : Bytes} (done : w.write data = (none, w')) :
    w'.written = w.written ++ data := by
  rw [Sink.write] at done
  split at done
  · cases done
    rfl
  · split at done
    · cases done
    · cases done
      rfl

theorem writeBlocks_true {c c' : TcpConnSync} {w w' : Sink}
    (done : writeBlocks c w = (true, c', w')) : Writes c w c' w' := by
  induction c, w using writeBlocks.induct with
  | case1 c w drained =>
      have nothing : c.due = 0 := by
        rw [due, drained]
        rfl
      rw [writeBlocks, dif_pos drained] at done
      cases done
      exact ⟨by rw [nothing, List.take_zero, List.append_nil], by rw [nothing, List.drop_zero],
        rfl, rfl, rfl⟩
  | case2 c w more ec after failed =>
      rw [writeBlocks, dif_neg more, failed] at done
      cases done
  | case3 c w more after taken ih =>
      rw [writeBlocks, dif_neg more, taken] at done
      have rest := ih done
      obtain ⟨block, behind⟩ := blockTaken_eq more
      obtain ⟨fewer, within⟩ := due_blockTaken more
      have written := sinkWrite_none taken
      have whole : c.toWrite.toNat + (c.due - c.toWrite.toNat) = c.due := by omega
      constructor
      · rw [rest.written, written, block, behind, fewer, List.append_assoc, ← List.take_add, whole]
      · rw [rest.left, behind, fewer, List.drop_drop, whole]
      · exact rest.receiving
      · exact rest.stat
      · exact rest.setting

/-- Without an error every block goes out. -/
theorem writeBlocks_unfailing {c : TcpConnSync} {w : Sink} (unfailing : w.fault = none) :
    (writeBlocks c w).1 = true := by
  induction c, w using writeBlocks.induct with
  | case1 c w drained => rw [writeBlocks, dif_pos drained]
  | case2 c w more ec after failed =>
      rw [Sink.write, unfailing] at failed
      cases failed
  | case3 c w more after taken ih =>
      rw [writeBlocks, dif_neg more, taken]
      refine ih ?_
      rw [Sink.write, unfailing] at taken
      cases taken
      rfl

/-- The connection with a message behind what its send buffer held. -/
def queued (c : TcpConnSync) (msg : Message) : TcpConnSync :=
  { c with sendBound := { c.sendBound with buffer := c.sendBound.buffer.append msg } }

theorem sendNetMessage_true {c c' : TcpConnSync} {w w' : Sink} {msg : Message}
    (sent : c.sendNetMessage w msg = (true, c', w')) : Writes (c.queued msg) w c' w' := by
  rw [sendNetMessage] at sent
  split at sent
  · cases sent
  · rw [doWrite] at sent
    split at sent
    · cases sent
    · exact writeBlocks_true sent

/-- What an error leaves on the wire is the front of what was due. -/
theorem writeBlocks_front (c : TcpConnSync) (w : Sink) :
    ∃ k ≤ c.due, (writeBlocks c w).2.2.written = w.written ++ c.sendBound.buffer.data.take k := by
  induction c, w using writeBlocks.induct with
  | case1 c w drained =>
      rw [writeBlocks, dif_pos drained]
      exact ⟨0, Nat.zero_le _, by rw [List.take_zero, List.append_nil]⟩
  | case2 c w more ec after failed =>
      rw [writeBlocks, dif_neg more, failed]
      obtain ⟨block, _⟩ := blockTaken_eq more
      obtain ⟨_, within⟩ := due_blockTaken more
      rw [Sink.write] at failed
      split at failed
      · cases failed
      · next room _ _ =>
          split at failed
          · cases failed
            refine ⟨min room c.toWrite.toNat, (min_le_right _ _).trans within, ?_⟩
            rw [block, List.take_take]
          · cases failed
  | case3 c w more after taken ih =>
      rw [writeBlocks, dif_neg more, taken]
      obtain ⟨k, fewer, written⟩ := ih
      obtain ⟨block, behind⟩ := blockTaken_eq more
      obtain ⟨left, within⟩ := due_blockTaken more
      refine ⟨c.toWrite.toNat + k, by omega, ?_⟩
      simp only [written, sinkWrite_none taken, block, behind, List.append_assoc, List.take_add]

theorem sendNetMessage_front (c : TcpConnSync) (w : Sink) (msg : Message) :
    ∃ k ≤ (c.queued msg).due, (c.sendNetMessage w msg).2.2.written =
      w.written ++ (c.queued msg).sendBound.buffer.data.take k := by
  rw [sendNetMessage]
  split
  · exact ⟨0, Nat.zero_le _, by rw [List.take_zero, List.append_nil]⟩
  · rw [doWrite]
    split
    · exact ⟨0, Nat.zero_le _, by rw [List.take_zero, List.append_nil]⟩
    · exact writeBlocks_front _ w

/-- An open connection without a send limit takes every message. -/
theorem sendNetMessage_unfailing {c : TcpConnSync} (working : c.connStat = .kWorking)
    (unlimited : c.clientSetting.sendMaxMsgSize = 0) (written : Bytes) (msg : Message) :
    ∃ c' w', c.sendNetMessage ⟨written, none⟩ msg = (true, c', w') := by
  have sent := writeBlocks_unfailing (c := c.queued msg) (w := ⟨written, none⟩) rfl
  refine ⟨(writeBlocks (c.queued msg) ⟨written, none⟩).2.1,
    (writeBlocks (c.queued msg) ⟨written, none⟩).2.2, ?_⟩
  rw [sendNetMessage, if_neg (by simp [unlimited]), doWrite, if_neg (by simp [working])]
  rw [← sent]
  rfl

end TcpConnSync

end Heracles.Client
