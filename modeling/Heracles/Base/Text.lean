import Heracles.Base.Order

/-!
Text in byte strings: C strings, decimal numbers and separated fields.

A decimal number is written without leading zeros. Numbers of equal width
compare like their decimals (`decimal_lt_decimal`), and within a string the
comparison is decided by the number wherever the texts before it agree
(`append_lt_append_of_length`). `atoll` reads back what `decimal` writes.
-/

namespace Heracles.Base

/-- A string as a C function reads it: up to the first zero byte. -/
def cstr (s : Bytes) : Bytes := s.takeWhile (· != 0)

theorem cstr_eq_self {s : Bytes} (plain : 0 ∉ s) : cstr s = s := by
  refine List.takeWhile_eq_self_iff.mpr fun c member => ?_
  simpa using fun same : c = 0 => plain (same ▸ member)

theorem zero_not_mem_cstr (s : Bytes) : 0 ∉ cstr s := by
  intro member
  simpa using List.mem_takeWhile_imp member

/-- What stands before the first separator. -/
theorem takeWhile_ne_append {c : UInt8} {s : Bytes} (plain : c ∉ s) (rest : Bytes) :
    (s ++ c :: rest).takeWhile (· ≠ c) = s := by
  have all : ∀ d ∈ s, decide (d ≠ c) = true := by
    intro d member
    exact decide_eq_true fun same => plain (same ▸ member)
  rw [List.takeWhile_append_of_pos all]
  simp

/-- What stands behind the last separator. -/
theorem eq_of_append_separator {c : UInt8} {a b s t : Bytes} (plain : c ∉ s) (plain' : c ∉ t)
    (same : a ++ c :: s = b ++ c :: t) : s = t := by
  have mirrored := congrArg (fun text => text.reverse.takeWhile (· ≠ c)) same
  simp only [List.reverse_append, List.reverse_cons, List.append_assoc,
    List.singleton_append] at mirrored
  rw [takeWhile_ne_append (by simpa using plain), takeWhile_ne_append (by simpa using plain')]
    at mirrored
  exact List.reverse_injective mirrored

/-- The first of several fields ends at the first separator. -/
theorem eq_append_of_splitOn {c : UInt8} {s a b : Bytes} {rest : List Bytes}
    (fields : s.splitOn c = a :: b :: rest) :
    ∃ t, s = a ++ c :: t ∧ c ∉ a ∧ t.splitOn c = b :: rest := by
  by_cases member : c ∈ s
  · obtain ⟨front, tail, same, plain⟩ := List.eq_append_cons_of_mem member
    rw [same, List.splitOn_append_cons_self_of_not_mem plain] at fields
    obtain ⟨rfl, others⟩ := List.cons.inj fields
    exact ⟨tail, same, plain, others⟩
  · rw [List.splitOn_eq_singleton member] at fields
    cases (List.cons.inj fields).2

/-- A text without separators is its only field. -/
theorem eq_of_splitOn {c : UInt8} {s a : Bytes} (fields : s.splitOn c = [a]) : s = a ∧ c ∉ a := by
  by_cases member : c ∈ s
  · obtain ⟨front, tail, same, plain⟩ := List.eq_append_cons_of_mem member
    rw [same, List.splitOn_append_cons_self_of_not_mem plain] at fields
    exact absurd (List.cons.inj fields).2 (List.splitOn_ne_nil c tail)
  · rw [List.splitOn_eq_singleton member] at fields
    obtain rfl := (List.cons.inj fields).1
    exact ⟨rfl, member⟩

/-- `strncmp(a, b, n) == 0`: the C strings agree in their first `n` bytes. -/
def strncmpEq (n : Nat) (a b : Bytes) : Bool := decide ((cstr a).take n = (cstr b).take n)

/-- A text agrees with its own extensions over its length. -/
theorem strncmpEq_append (s rest : Bytes) : strncmpEq s.length (s ++ rest) s = true := by
  rw [strncmpEq, decide_eq_true_iff]
  by_cases cut : 0 ∈ s
  · obtain ⟨front, tail, same, plain⟩ := List.eq_append_cons_of_mem cut
    have ends (t : Bytes) : cstr (front ++ 0 :: t) = front := by
      have before : ∀ c ∈ front, (c != 0) = true := fun c member =>
        bne_iff_ne.mpr fun zero => plain (zero ▸ member)
      rw [cstr, List.takeWhile_append_of_pos before]
      simp
    rw [same, List.append_assoc, List.cons_append, ends, ends]
  · have whole : cstr (s ++ rest) = s ++ cstr rest := by
      refine List.takeWhile_append_of_pos fun c member => ?_
      exact bne_iff_ne.mpr fun zero => cut (zero ▸ member)
    rw [whole, cstr_eq_self cut, List.take_left, List.take_length]

/-- What `snprintf` leaves of a text in a buffer of the given size. -/
def snprintf (size : Nat) (text : Bytes) : Bytes := text.take (size - 1)

theorem snprintf_eq_self {size : Nat} {text : Bytes} (fits : text.length < size) :
    snprintf size text = text :=
  List.take_of_length_le (by omega)

/-! ### Decimal numbers -/

/-- The byte of a decimal digit. -/
def digit (d : Nat) : UInt8 := UInt8.ofNat (48 + d)

def isDigit (c : UInt8) : Bool := decide (48 ≤ c) && decide (c ≤ 57)

theorem toNat_digit {d : Nat} (small : d < 10) : (digit d).toNat = 48 + d := by
  rw [digit, UInt8.toNat_ofNat_of_lt']
  change 48 + d < 256
  omega

theorem isDigit_digit {d : Nat} (small : d < 10) : isDigit (digit d) = true := by
  simp only [isDigit, Bool.and_eq_true, decide_eq_true_eq, UInt8.le_iff_toNat_le,
    toNat_digit small]
  exact ⟨Nat.le_add_right 48 d, by change 48 + d ≤ 57; omega⟩

theorem digit_lt_digit {a b : Nat} (smallA : a < 10) (smallB : b < 10) :
    digit a < digit b ↔ a < b := by
  rw [UInt8.lt_iff_toNat_lt, toNat_digit smallA, toNat_digit smallB]
  omega

/-- A natural number in decimal. -/
def decimal (n : Nat) : Bytes := (Nat.toDigits 10 n).map fun c => UInt8.ofNat c.toNat

theorem decimal_of_lt {n : Nat} (small : n < 10) : decimal n = [digit n] := by
  rw [decimal, Nat.toDigits_of_lt_base small, List.map_singleton,
    Nat.toNat_digitChar_of_lt_ten small, digit]

/-- The last digit comes off the end. -/
theorem decimal_of_le {n : Nat} (large : 10 ≤ n) :
    decimal n = decimal (n / 10) ++ [digit (n % 10)] := by
  rw [decimal, Nat.toDigits_of_base_le (by decide) large, List.map_append, List.map_singleton,
    Nat.toNat_digitChar_of_lt_ten (Nat.mod_lt n (by decide)), decimal, digit]

theorem isDigit_of_mem_decimal {n : Nat} {c : UInt8} (member : c ∈ decimal n) :
    isDigit c = true := by
  induction n using Nat.strongRecOn with
  | ind n ih =>
      rcases Nat.lt_or_ge n 10 with small | large
      · rw [decimal_of_lt small, List.mem_singleton] at member
        exact member ▸ isDigit_digit small
      · rw [decimal_of_le large] at member
        rcases List.mem_append.mp member with front | last
        · exact ih (n / 10) (by omega) front
        · rw [List.mem_singleton] at last
          exact last ▸ isDigit_digit (Nat.mod_lt n (by decide))

theorem decimal_ne_nil (n : Nat) : decimal n ≠ [] := by
  simp [decimal]

/-- The width of a number between two powers of ten. -/
theorem length_decimal {n k : Nat} (lower : 10 ^ k ≤ n) (upper : n < 10 ^ (k + 1)) :
    (decimal n).length = k + 1 := by
  have atMost : (decimal n).length ≤ k + 1 := by
    rw [decimal, List.length_map]
    exact (Nat.length_toDigits_le_iff (by decide) (by omega)).mpr upper
  have atLeast : ¬ (decimal n).length ≤ k := by
    rcases Nat.eq_zero_or_pos k with rfl | positive
    · have := List.length_pos_iff.mpr (decimal_ne_nil n)
      omega
    · rw [decimal, List.length_map, Nat.length_toDigits_le_iff (by decide) positive]
      omega
  omega

theorem append_lt_append_of_length {a b : Bytes} (width : a.length = b.length) (s t : Bytes) :
    a ++ s < b ++ t ↔ a < b ∨ (a = b ∧ s < t) := by
  induction a generalizing b with
  | nil =>
      cases b with
      | nil => simp
      | cons y b => simp at width
  | cons x a ih =>
      cases b with
      | nil => simp at width
      | cons y b =>
          have := ih (b := b) (by simpa using width)
          simp only [List.cons_append, List.cons_lt_cons_iff, this, List.cons.injEq]
          constructor
          · rintro (less | ⟨same, less | ⟨rfl, less⟩⟩)
            · exact .inl (.inl less)
            · exact .inl (.inr ⟨same, less⟩)
            · exact .inr ⟨⟨same, rfl⟩, less⟩
          · rintro ((less | ⟨same, less⟩) | ⟨⟨same, rfl⟩, less⟩)
            · exact .inl less
            · exact .inr ⟨same, .inl less⟩
            · exact .inr ⟨same, .inr ⟨rfl, less⟩⟩

/-- The value of a run of digits. -/
def readDigits (s : Bytes) : Nat := s.foldl (fun n c => 10 * n + (c.toNat - 48)) 0

@[simp] theorem readDigits_decimal (n : Nat) : readDigits (decimal n) = n := by
  induction n using Nat.strongRecOn with
  | ind n ih =>
      rcases Nat.lt_or_ge n 10 with small | large
      · simp [decimal_of_lt small, readDigits, toNat_digit small]
      · have front := ih (n / 10) (by omega)
        rw [readDigits] at front
        rw [decimal_of_le large, readDigits, List.foldl_append, front]
        simp only [List.foldl_cons, List.foldl_nil, toNat_digit (Nat.mod_lt n (by decide : 10 > 0))]
        omega

theorem decimal_injective : Function.Injective decimal :=
  Function.LeftInverse.injective readDigits_decimal

/-- Numbers of equal width compare like their decimals. -/
theorem decimal_lt_decimal {a b : Nat} (width : (decimal a).length = (decimal b).length) :
    decimal a < decimal b ↔ a < b := by
  induction a using Nat.strongRecOn generalizing b with
  | ind a ih =>
      have single (n : Nat) (large : 10 ≤ n) : (decimal n).length = (decimal (n / 10)).length + 1 := by
        rw [decimal_of_le large, List.length_append, List.length_singleton]
      rcases Nat.lt_or_ge a 10 with smallA | largeA <;> rcases Nat.lt_or_ge b 10 with smallB | largeB
      · rw [decimal_of_lt smallA, decimal_of_lt smallB, ← digit_lt_digit smallA smallB]
        simp [List.cons_lt_cons_iff]
      · have := List.length_pos_iff.mpr (decimal_ne_nil (b / 10))
        rw [single b largeB, decimal_of_lt smallA, List.length_singleton] at width
        omega
      · have := List.length_pos_iff.mpr (decimal_ne_nil (a / 10))
        rw [single a largeA, decimal_of_lt smallB, List.length_singleton] at width
        omega
      · have front : (decimal (a / 10)).length = (decimal (b / 10)).length := by
          rw [single a largeA, single b largeB] at width
          omega
        rw [decimal_of_le largeA, decimal_of_le largeB, append_lt_append_of_length front,
          ih (a / 10) (by omega) front, decimal_injective.eq_iff, List.cons_lt_cons_iff]
        simp only [List.not_lt_nil, and_false, or_false,
          digit_lt_digit (Nat.mod_lt a (by decide : 10 > 0)) (Nat.mod_lt b (by decide : 10 > 0))]
        omega

-- the digits of an unknown 64-bit number are never to be computed by unfolding
attribute [irreducible] decimal

/-- A number with its sign, as a stream writes it. -/
def signedDecimal (n : Int) : Bytes :=
  if n < 0 then 45 :: decimal n.natAbs else decimal n.natAbs

theorem signedDecimal_of_nonneg {n : Int} (nonneg : 0 ≤ n) : signedDecimal n = decimal n.toNat := by
  rw [signedDecimal, if_neg (by omega), show n.natAbs = n.toNat by omega]

/-- The text of a number has only bytes above `#`. -/
theorem lt_of_mem_signedDecimal {n : Int} {c : UInt8} (member : c ∈ signedDecimal n) :
    35 < c := by
  have digits {m : Nat} (inside : c ∈ decimal m) : 35 < c := by
    have shown := isDigit_of_mem_decimal inside
    simp only [isDigit, Bool.and_eq_true, decide_eq_true_eq] at shown
    exact lt_of_lt_of_le (by decide) shown.1
  unfold signedDecimal at member
  split at member
  · rcases List.mem_cons.mp member with rfl | inside
    · decide
    · exact digits inside
  · exact digits member

theorem signedDecimal_ne_nil (n : Int) : signedDecimal n ≠ [] := by
  unfold signedDecimal
  split
  · exact List.cons_ne_nil _ _
  · exact decimal_ne_nil _

theorem signedDecimal_injective : Function.Injective signedDecimal := by
  have apart (m k : Nat) : (45 : UInt8) :: decimal m ≠ decimal k := fun same => by
    have member : (45 : UInt8) ∈ decimal k := same ▸ List.mem_cons_self
    exact absurd (isDigit_of_mem_decimal member) (by decide)
  intro a b same
  unfold signedDecimal at same
  split at same
  · split at same
    · have magnitude := decimal_injective (List.cons_injective same)
      omega
    · exact absurd same (apart _ _)
  · split at same
    · exact absurd same.symm (apart _ _)
    · have magnitude := decimal_injective same
      omega

/-- `printf` with `%0wd`: zeros between the sign and the digits up to width `w`. -/
def paddedDecimal (w : Nat) (n : Int) : Bytes :=
  if n < 0 then 45 :: (List.replicate (w - 1 - (decimal n.natAbs).length) 48 ++ decimal n.natAbs)
  else List.replicate (w - (decimal n.natAbs).length) 48 ++ decimal n.natAbs

def isSpace (c : UInt8) : Bool := c == 32 || (decide (9 ≤ c) && decide (c ≤ 13))

/-- The nearest 64-bit integer. -/
def saturate64 (n : Int) : Int64 := Int64.ofInt (max (-2 ^ 63) (min (2 ^ 63 - 1) n))

/-- `atoll`: blanks, a sign, digits; whatever follows is ignored. -/
def atoll (s : Bytes) : Int64 :=
  match s.dropWhile isSpace with
  | 45 :: rest => saturate64 (-(readDigits (rest.takeWhile isDigit)))
  | 43 :: rest => saturate64 (readDigits (rest.takeWhile isDigit))
  | rest => saturate64 (readDigits (rest.takeWhile isDigit))

theorem atoll_decimal {n : Nat} (fits : n < 2 ^ 63) : (atoll (decimal n)).toInt = n := by
  have digits : (decimal n).takeWhile isDigit = decimal n :=
    List.takeWhile_eq_self_iff.mpr fun _ member => isDigit_of_mem_decimal member
  have value : (saturate64 (readDigits (decimal n))).toInt = n := by
    rw [readDigits_decimal, saturate64, Int64.toInt_ofInt_of_le] <;> omega
  cases shape : decimal n with
  | nil => exact absurd shape (decimal_ne_nil n)
  | cons c rest =>
      have isNumber : isDigit c = true :=
        isDigit_of_mem_decimal (shape ▸ List.mem_cons_self)
      simp only [isDigit, Bool.and_eq_true, decide_eq_true_eq] at isNumber
      have lower := UInt8.le_iff_toNat_le.mp isNumber.1
      have upper := UInt8.le_iff_toNat_le.mp isNumber.2
      have noSpace : isSpace c = false := by
        simp only [isSpace, Bool.or_eq_false_iff, Bool.and_eq_false_iff, beq_eq_false_iff_ne,
          decide_eq_false_iff_not, UInt8.le_iff_toNat_le, ne_eq, ← UInt8.toNat_inj]
        simp at lower upper ⊢
        omega
      have noMinus : c ≠ 45 := by rintro rfl; simp at lower
      have noPlus : c ≠ 43 := by rintro rfl; simp at lower
      rw [shape] at digits value
      rw [atoll, List.dropWhile_cons_of_neg (by simp [noSpace])]
      split
      · rename_i same
        exact absurd (List.cons.inj same).1 noMinus
      · rename_i same
        exact absurd (List.cons.inj same).1 noPlus
      · rw [digits]
        exact value

end Heracles.Base
