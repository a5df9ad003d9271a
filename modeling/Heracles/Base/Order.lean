import Mathlib

/-!
Byte strings and the orders machine words carry.

`UInt8`, `Int32` and `Int64` get the linear order their comparison operators
already decide, so byte strings inherit the lexicographic order in which a proper
prefix comes first: the order of `memcmp` on the common length followed by the
lengths. `prefix_of_between` is the fact prefix scans rest on: when two
delimiters are adjacent, everything between `p ++ [c]` and `p ++ [d]` starts
with `p ++ [c]`.
-/

namespace Heracles.Base

/-- A byte string: any sequence of bytes, zero bytes included. -/
abbrev Bytes := List UInt8

/-- The bytes of a text given by its characters, one byte each. -/
def bytes (s : String) : Bytes := s.toList.map fun c => UInt8.ofNat c.toNat

instance instLinearOrderUInt8 : LinearOrder UInt8 where
  le := (· ≤ ·)
  lt := (· < ·)
  le_refl := UInt8.le_refl
  le_trans _ _ _ := UInt8.le_trans
  lt_iff_le_not_ge a b := by
    simp only [UInt8.lt_iff_toNat_lt, UInt8.le_iff_toNat_le]
    omega
  le_antisymm _ _ := UInt8.le_antisymm
  le_total := UInt8.le_total
  toDecidableLE := inferInstance
  toDecidableEq := inferInstance
  toDecidableLT := inferInstance

instance instLinearOrderInt64 : LinearOrder Int64 where
  le := (· ≤ ·)
  lt := (· < ·)
  le_refl := Int64.le_refl
  le_trans _ _ _ := Int64.le_trans
  lt_iff_le_not_ge a b := by
    simp only [Int64.lt_iff_toInt_lt, Int64.le_iff_toInt_le]
    omega
  le_antisymm _ _ := Int64.le_antisymm
  le_total := Int64.le_total
  toDecidableLE := inferInstance
  toDecidableEq := inferInstance
  toDecidableLT := inferInstance

instance instLinearOrderInt32 : LinearOrder Int32 where
  le := (· ≤ ·)
  lt := (· < ·)
  le_refl := Int32.le_refl
  le_trans _ _ _ := Int32.le_trans
  lt_iff_le_not_ge a b := by
    simp only [Int32.lt_iff_toInt_lt, Int32.le_iff_toInt_le]
    omega
  le_antisymm _ _ := Int32.le_antisymm
  le_total := Int32.le_total
  toDecidableLE := inferInstance
  toDecidableEq := inferInstance
  toDecidableLT := inferInstance

/-! ### Sixty-four bit arithmetic that stays in range -/

/-- The integers a 64-bit word holds. -/
def Fits64 (n : Int) : Prop := -2 ^ 63 ≤ n ∧ n < 2 ^ 63

instance (n : Int) : Decidable (Fits64 n) := inferInstanceAs (Decidable (_ ∧ _))

theorem bmod_of_fits {n : Int} (fits : Fits64 n) : n.bmod (2 ^ 64) = n := by
  obtain ⟨low, high⟩ := fits
  exact Int.bmod_eq_of_le (by norm_num at low ⊢; omega) (by norm_num at high ⊢; omega)

theorem toInt_add_of_fits {a b : Int64} (fits : Fits64 (a.toInt + b.toInt)) :
    (a + b).toInt = a.toInt + b.toInt := by
  rw [Int64.toInt_add, bmod_of_fits fits]

theorem toInt_sub_of_fits {a b : Int64} (fits : Fits64 (a.toInt - b.toInt)) :
    (a - b).toInt = a.toInt - b.toInt := by
  rw [Int64.toInt_sub, bmod_of_fits fits]

/-- The integers a 32-bit word holds. -/
def Fits32 (n : Int) : Prop := -2 ^ 31 ≤ n ∧ n < 2 ^ 31

instance (n : Int) : Decidable (Fits32 n) := inferInstanceAs (Decidable (_ ∧ _))

/-- Exactly the integers in range survive wrapping. -/
theorem bmod32_eq_iff {n : Int} : n.bmod (2 ^ 32) = n ↔ Fits32 n := by
  constructor
  · intro same
    have lower := Int.le_bmod (x := n) (m := 2 ^ 32) (by decide)
    have upper := Int.bmod_lt (x := n) (m := 2 ^ 32) (by decide)
    rw [same] at lower upper
    exact ⟨by norm_num at lower; omega, by norm_num at upper; omega⟩
  · rintro ⟨lower, upper⟩
    exact Int.bmod_eq_of_le (by norm_num at lower ⊢; omega) (by norm_num at upper ⊢; omega)

/-- The conversion of an `int` to `size_t`. -/
def sizeOfInt (n : Int32) : Nat := n.toInt64.toUInt64.toNat

/-! ### Lexicographic order and prefixes -/

section Lex

variable {α : Type*} [LinearOrder α]

@[simp] theorem append_lt_append_left (p : List α) {a b : List α} : p ++ a < p ++ b ↔ a < b := by
  induction p with
  | nil => rfl
  | cons x p ih => simp [ih]

/-- A string is not greater than any of its extensions. -/
theorem not_append_lt (p s : List α) : ¬ p ++ s < p := by
  intro less
  have : s < [] := by simpa using (append_lt_append_left p (a := s) (b := [])).mp (by simpa using less)
  exact List.not_lt_nil _ this

/-- Two strings that differ at the same position compare by that position. -/
theorem append_cons_lt_append_cons (p : List α) {c d : α} (s t : List α) (less : c < d) :
    p ++ c :: s < p ++ d :: t := by
  rw [append_lt_append_left]
  exact List.cons_lt_cons_iff.mpr (.inl less)

/-- Strings below a string stay below it when a byte less than all of its bytes
and anything else follow. -/
theorem append_cons_lt_of_lt {a b : List α} {c : α} (less : a < b)
    (above : ∀ x ∈ b, c < x) (tail : List α) : a ++ c :: tail < b := by
  induction a generalizing b with
  | nil =>
      cases b with
      | nil => exact absurd less (List.not_lt_nil _)
      | cons y b => exact List.cons_lt_cons_iff.mpr (.inl (above y List.mem_cons_self))
  | cons x a ih =>
      cases b with
      | nil => exact absurd less (List.not_lt_nil _)
      | cons y b =>
          rw [List.cons_append, List.cons_lt_cons_iff]
          rcases List.cons_lt_cons_iff.mp less with smaller | ⟨same, rest⟩
          · exact .inl smaller
          · exact .inr ⟨same, ih rest fun z member => above z (List.mem_cons_of_mem y member)⟩

/-- Between two strings that end in adjacent delimiters there are only
extensions of the lower one. -/
theorem prefix_of_between {p k : List α} {c d : α} (adjacent : c ⋖ d)
    (lower : ¬ k < p ++ [c]) (upper : k < p ++ [d]) : (p ++ [c]) <+: k := by
  induction p generalizing k with
  | nil =>
      cases k with
      | nil => simp at lower
      | cons x k =>
          simp only [List.nil_append, List.cons_lt_cons_iff, List.not_lt_nil, and_false, or_false]
            at lower upper
          have same : x = c := by
            by_contra differs
            exact adjacent.2 (lt_of_le_of_ne (not_lt.mp lower) (Ne.symm differs)) upper
          simp [same]
  | cons y p ih =>
      cases k with
      | nil => simp at lower
      | cons x k =>
          simp only [List.cons_append, List.cons_lt_cons_iff, not_or, not_and] at lower upper
          rcases upper with less | ⟨rfl, less⟩
          · exact absurd less lower.1
          · have tail := ih (lower.2 rfl) less
            simpa using tail

end Lex

end Heracles.Base
