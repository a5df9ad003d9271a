import Heracles.Core.Message

/-!
The byte buffer of a connection.

Both `consume` operations take from the front: one hands out a string, the other
copies into a block the caller provides. `consume_fresh` says what the first
gives a caller whose string is empty, also for a size of zero or beyond the end.
-/

namespace Heracles.Core

open Heracles.Base

structure Buffer where
  data : Bytes
  deriving DecidableEq, Repr

namespace Buffer

def empty : Buffer := ⟨[]⟩

def appendInternal (b : Buffer) (data : Bytes) : Buffer := ⟨b.data ++ data⟩

def append (b : Buffer) (msg : Message) : Buffer :=
  (b.appendInternal msg.header.toNetEndian).appendInternal msg.payload

/-- The size as the 32-bit number callers see. -/
def getLength (b : Buffer) : UInt32 := UInt32.ofNat b.data.length

/-- `consume(std::string&, sz)`: success, the caller's string and the buffer left. -/
def consume (b : Buffer) (store : Bytes) (sz : UInt32) : Bool × Bytes × Buffer :=
  if sz = 0 ∨ b.data = [] then (false, store, b)
  else if b.data.length ≤ sz.toNat then (true, b.data, empty)
  else (true, b.data.take sz.toNat, ⟨b.data.drop sz.toNat⟩)

def frontErase (b : Buffer) (sz : UInt32) : Buffer :=
  if b.data.length ≤ sz.toNat then empty
  else ⟨b.data.drop sz.toNat⟩

/-- `consume(char*, sz)` into a block of at least `sz` bytes; the bytes of the
block behind the copied ones stay. -/
def consumeInto (b : Buffer) (store : Bytes) (sz : UInt32) : Bool × Bytes × Buffer :=
  if sz = 0 ∨ b.data = [] then (false, store, b)
  else (true, b.data.take sz.toNat ++ store.drop sz.toNat, b.frontErase sz)

@[simp] theorem data_appendInternal (b : Buffer) (data : Bytes) :
    (b.appendInternal data).data = b.data ++ data := rfl

@[simp] theorem data_append (b : Buffer) (msg : Message) :
    (b.append msg).data = b.data ++ msg.netStr := by
  simp [append, Message.netStr]

@[simp] theorem data_frontErase (b : Buffer) (sz : UInt32) :
    (b.frontErase sz).data = b.data.drop sz.toNat := by
  rw [frontErase]
  split
  · next beyond => exact (List.drop_of_length_le beyond).symm
  · rfl

theorem toNat_min (a b : UInt32) : (min a b).toNat = min a.toNat b.toNat := by
  have unfolded : min a b = if a ≤ b then a else b := rfl
  rw [unfolded]
  split
  · next le => rw [min_eq_left (UInt32.le_iff_toNat_le.mp le)]
  · next gt => rw [min_eq_right (UInt32.le_iff_toNat_le.mp (UInt32.le_of_lt (UInt32.not_le.mp gt)))]

theorem toNat_getLength {b : Buffer} (fits : b.data.length < 2 ^ 32) :
    b.getLength.toNat = b.data.length := by
  rw [getLength, UInt32.toNat_ofNat']
  omega

theorem toNat_getLength_le (b : Buffer) : b.getLength.toNat ≤ b.data.length := by
  rw [getLength, UInt32.toNat_ofNat']
  exact Nat.mod_le _ _

/-- Consuming into an empty string takes the first `sz` bytes, all when there
are fewer. -/
theorem consume_fresh (b : Buffer) (sz : UInt32) :
    (b.consume [] sz).2 = (b.data.take sz.toNat, ⟨b.data.drop sz.toNat⟩) := by
  obtain ⟨data⟩ := b
  rw [consume]
  split
  · next nothing =>
      cases nothing with
      | inl none => simp [none]
      | inr drained => simp_all
  · split
    · next beyond => simp [empty, List.take_of_length_le beyond, List.drop_of_length_le beyond]
    · rfl

/-- Consuming into a block overwrites its first `sz` bytes. -/
theorem consumeInto_some {b : Buffer} {sz : UInt32} (store : Bytes) (some : 0 < sz)
    (filled : b.data ≠ []) :
    b.consumeInto store sz =
      (true, b.data.take sz.toNat ++ store.drop sz.toNat, b.frontErase sz) := by
  have positive : sz ≠ 0 := by
    intro zero
    simp [zero] at some
  rw [consumeInto, if_neg (by simp [positive, filled])]

end Buffer

end Heracles.Core
