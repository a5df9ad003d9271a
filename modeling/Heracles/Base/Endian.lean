import Heracles.Base.Order

/-!
Integers in network byte order.

`bigEndian w n` writes the `w` low bytes of `n`, most significant byte first;
`ofBigEndian` reads such a string. The two are inverse to each other where the
width fits, which gives the round trips of the fixed-width words.
-/

namespace Heracles.Base

/-- The `w` low bytes of `n`, most significant first. -/
def bigEndian : Nat → Nat → Bytes
  | 0, _ => []
  | w + 1, n => bigEndian w (n / 256) ++ [UInt8.ofNat n]

/-- The number a byte string denotes, most significant byte first. -/
def ofBigEndian (s : Bytes) : Nat := s.foldl (fun n b => 256 * n + b.toNat) 0

@[simp] theorem length_bigEndian (w n : Nat) : (bigEndian w n).length = w := by
  induction w generalizing n with
  | zero => rfl
  | succ w ih => simp [bigEndian, ih]

theorem ofBigEndian_concat (s : Bytes) (b : UInt8) :
    ofBigEndian (s ++ [b]) = 256 * ofBigEndian s + b.toNat := by
  simp [ofBigEndian]

theorem ofBigEndian_bigEndian {w n : Nat} (fits : n < 256 ^ w) : ofBigEndian (bigEndian w n) = n := by
  induction w generalizing n with
  | zero =>
      rw [pow_zero, Nat.lt_one_iff] at fits
      simp [bigEndian, ofBigEndian, fits]
  | succ w ih =>
      have front : n / 256 < 256 ^ w := by
        rw [Nat.div_lt_iff_lt_mul (by decide)]
        exact fits.trans_eq (pow_succ 256 w)
      rw [bigEndian, ofBigEndian_concat, ih front]
      have last : (UInt8.ofNat n).toNat = n % 256 := rfl
      rw [last]
      omega

theorem ofBigEndian_lt (s : Bytes) : ofBigEndian s < 256 ^ s.length := by
  induction s using List.reverseRecOn with
  | nil => simp [ofBigEndian]
  | append_singleton s b ih =>
      rw [ofBigEndian_concat, List.length_append, List.length_singleton, pow_succ]
      have := b.toNat_lt
      omega

theorem bigEndian_ofBigEndian (s : Bytes) : bigEndian s.length (ofBigEndian s) = s := by
  induction s using List.reverseRecOn with
  | nil => rfl
  | append_singleton s b ih =>
      have small := b.toNat_lt
      have front : (256 * ofBigEndian s + b.toNat) / 256 = ofBigEndian s := by omega
      have last : UInt8.ofNat (256 * ofBigEndian s + b.toNat) = b := by
        rw [← UInt8.toNat_inj, UInt8.toNat_ofNat']
        omega
      rw [ofBigEndian_concat, List.length_append, List.length_singleton, bigEndian, front, last, ih]

/-! ### Words -/

/-- `htobe32` of an `int32_t`, as the bytes in memory. -/
def be32 (n : Int32) : Bytes := bigEndian 4 n.toUInt32.toNat

/-- `htobe64` of an `int64_t`, as the bytes in memory. -/
def be64 (n : Int64) : Bytes := bigEndian 8 n.toUInt64.toNat

def be32toh (s : Bytes) : Int32 := (UInt32.ofNat (ofBigEndian s)).toInt32

def be64toh (s : Bytes) : Int64 := (UInt64.ofNat (ofBigEndian s)).toInt64

@[simp] theorem length_be32 (n : Int32) : (be32 n).length = 4 := length_bigEndian 4 _

@[simp] theorem length_be64 (n : Int64) : (be64 n).length = 8 := length_bigEndian 8 _

@[simp] theorem be32toh_be32 (n : Int32) : be32toh (be32 n) = n := by
  have small : n.toUInt32.toNat < 256 ^ 4 := n.toUInt32.toNat_lt
  rw [be32toh, be32, ofBigEndian_bigEndian small, UInt32.ofNat_toNat]
  rfl

@[simp] theorem be64toh_be64 (n : Int64) : be64toh (be64 n) = n := by
  have small : n.toUInt64.toNat < 256 ^ 8 := n.toUInt64.toNat_lt
  rw [be64toh, be64, ofBigEndian_bigEndian small, UInt64.ofNat_toNat]
  rfl

end Heracles.Base
