import Heracles.Base.Text

/-!
The words of an SQL text.

`lex` reads a text from left to right as a MySQL server does in its default mode,
as far as unquoted names, numbers, comparisons, punctuation and literals in single
quotes go; a text with anything else outside of its literals (comments, names or
literals in other quotes) has no reading here. In a literal a doubled quote stands
for a quote, and a backslash with the next byte for what `unescape` says.

`Lexes` describes a piece of a text that is read by itself. `scan_literal_iff` says
which texts can be put between two quotes and are read back unchanged.
-/

namespace Heracles.Base.Sql

open Heracles.Base

inductive Lexeme where
  | blank (c : UInt8)
  | word (w : Bytes)
  | operator (w : Bytes)
  | symbol (c : UInt8)
  | literal (v : Bytes)
deriving DecidableEq

/-- What the scanner is inside of, with what has been read of it. A literal is
`closing` behind a quote that may be the first half of a doubled one. -/
inductive Scanner where
  | between
  | inWord (read : Bytes)
  | inOperator (read : Bytes)
  | inLiteral (read : Bytes)
  | escaped (read : Bytes)
  | closing (read : Bytes)
deriving DecidableEq

/-- Letters, digits, `$` and `_`; bytes from 128 on are parts of letters. -/
def wordByte (c : UInt8) : Bool :=
  isDigit c || (decide (65 ≤ c) && decide (c ≤ 90)) || (decide (97 ≤ c) && decide (c ≤ 122)) ||
    c == 36 || c == 95 || decide (128 ≤ c)

/-- `<`, `=` and `>`. -/
def operatorByte (c : UInt8) : Bool := c == 60 || c == 61 || c == 62

/-- Parentheses, comma, minus, full stop and semicolon. -/
def symbolByte (c : UInt8) : Bool :=
  c == 40 || c == 41 || c == 44 || c == 45 || c == 46 || c == 59

/-- What a backslash and a byte stand for. Before `%` and `_` the backslash stays. -/
def unescape (c : UInt8) : Bytes :=
  if c = 37 ∨ c = 95 then [92, c]
  else if c = 48 then [0]
  else if c = 98 then [8]
  else if c = 110 then [10]
  else if c = 114 then [13]
  else if c = 116 then [9]
  else if c = 90 then [26]
  else [c]

/-- The first byte of a lexeme. -/
def start (c : UInt8) : Option (List Lexeme × Scanner) :=
  if isSpace c then some ([.blank c], .between)
  else if wordByte c then some ([], .inWord [c])
  else if operatorByte c then some ([], .inOperator [c])
  else if symbolByte c then some ([.symbol c], .between)
  else if c = 39 then some ([], .inLiteral [])
  else none

namespace Scanner

/-- The scanner after one more byte of the same lexeme. -/
def grow (s : Scanner) (c : UInt8) : Option Scanner :=
  match s with
  | .between => none
  | .inWord read => if wordByte c then some (.inWord (read ++ [c])) else none
  | .inOperator read => if operatorByte c then some (.inOperator (read ++ [c])) else none
  | .inLiteral read =>
      if c = 39 then some (.closing read)
      else if c = 92 then some (.escaped read)
      else some (.inLiteral (read ++ [c]))
  | .escaped read => some (.inLiteral (read ++ unescape c))
  | .closing read => if c = 39 then some (.inLiteral (read ++ [39])) else none

/-- The lexeme that ends here; a literal ends behind its quote. -/
def done (s : Scanner) : Option (List Lexeme) :=
  match s with
  | .between => some []
  | .inWord read => some [.word read]
  | .inOperator read => some [.operator read]
  | .inLiteral _ => none
  | .escaped _ => none
  | .closing read => some [.literal read]

def step (s : Scanner) (c : UInt8) : Option (List Lexeme × Scanner) :=
  match s.grow c with
  | some s => some ([], s)
  | none => s.done.bind fun before => (start c).map fun now => (before ++ now.1, now.2)

end Scanner

/-- The lexemes from a scanner on. -/
def scan (s : Scanner) : Bytes → Option (List Lexeme)
  | [] => s.done
  | c :: rest => (s.step c).bind fun next => (scan next.2 rest).map (next.1 ++ ·)

def lex (text : Bytes) : Option (List Lexeme) := scan .between text

/-- The lexemes that a part of a text completes, and the scanner behind it. -/
def feed (s : Scanner) : Bytes → Option (List Lexeme × Scanner)
  | [] => some ([], s)
  | c :: rest =>
      (s.step c).bind fun next => (feed next.2 rest).map fun later => (next.1 ++ later.1, later.2)

/-- A text without the contents of its literals. -/
def Lexeme.blot : Lexeme → Lexeme
  | .literal _ => .literal []
  | l => l

def outside (text : Bytes) : Option (List Lexeme) := (lex text).map (List.map Lexeme.blot)

theorem scan_append {text : Bytes} {s s' : Scanner} {ls : List Lexeme}
    (fed : feed s text = some (ls, s')) (rest : Bytes) :
    scan s (text ++ rest) = (scan s' rest).map (ls ++ ·) := by
  induction text generalizing s ls with
  | nil =>
      obtain ⟨rfl, rfl⟩ := Prod.mk.inj (Option.some.inj fed)
      simp
  | cons c text ih =>
      rw [feed, Option.bind_eq_some_iff] at fed
      obtain ⟨next, stepped, fed⟩ := fed
      rw [Option.map_eq_some_iff] at fed
      obtain ⟨later, fed, same⟩ := fed
      obtain ⟨rfl, rfl⟩ := Prod.mk.inj same
      rw [List.cons_append, scan, stepped, Option.bind_some, ih fed, Option.map_map]
      congr 1
      funext more
      exact (List.append_assoc _ _ _).symm

/-- Where a lexeme does not go on, the rest is read by itself. -/
theorem scan_of_grow_eq_none {s : Scanner} {rest : Bytes} {l : Lexeme} (ends : s.done = some [l])
    (stops : ∀ c ∈ rest.head?, s.grow c = none) :
    scan s rest = (scan .between rest).map (l :: ·) := by
  cases rest with
  | nil => rw [scan, ends, scan, Scanner.done, Option.map_some]
  | cons c rest =>
      have stopped := stops c rfl
      rw [scan, scan, Scanner.step, Scanner.step, stopped, ends]
      simp only [Scanner.grow, Scanner.done, Option.bind_some, List.nil_append]
      cases start c with
      | none => rfl
      | some now =>
          simp only [Option.map_some, Option.bind_some, Option.map_map]
          rfl

theorem scan_of_grow {s s' : Scanner} {c : UInt8} (grows : s.grow c = some s') (rest : Bytes) :
    scan s (c :: rest) = scan s' rest := by
  rw [scan, Scanner.step, grows, Option.bind_some]
  simp

/-! ### Pieces of a text -/

/-- A piece of a text that is read by itself. -/
def Lexes (text : Bytes) (ls : List Lexeme) : Prop :=
  ∀ rest, scan .between (text ++ rest) = (scan .between rest).map (ls ++ ·)

namespace Lexes

variable {text later : Bytes} {ls ms : List Lexeme}

theorem of_feed (fed : feed .between text = some (ls, .between)) : Lexes text ls :=
  scan_append fed

theorem append (first : Lexes text ls) (second : Lexes later ms) :
    Lexes (text ++ later) (ls ++ ms) := by
  intro rest
  rw [List.append_assoc, first, second, Option.map_map]
  congr 1
  funext more
  exact (List.append_assoc _ _ _).symm

theorem lex_eq (whole : Lexes text ls) : lex text = some ls := by
  have ended := whole []
  rw [List.append_nil, scan, Scanner.done, Option.map_some, List.append_nil] at ended
  exact ended

end Lexes

/-! ### Words -/

theorem isSpace_of_wordByte {c : UInt8} (letter : wordByte c = true) : isSpace c = false := by
  simp only [wordByte, isDigit, Bool.or_eq_true, Bool.and_eq_true, decide_eq_true_eq,
    beq_iff_eq, UInt8.le_iff_toNat_le, ← UInt8.toNat_inj] at letter
  simp only [isSpace, Bool.or_eq_false_iff, Bool.and_eq_false_iff, decide_eq_false_iff_not,
    beq_eq_false_iff_ne, ne_eq, UInt8.le_iff_toNat_le, ← UInt8.toNat_inj]
  simp only [UInt8.reduceToNat] at letter ⊢
  omega

theorem scan_inWord {w : Bytes} (letters : w.all wordByte = true) (read rest : Bytes) :
    scan (.inWord read) (w ++ rest) = scan (.inWord (read ++ w)) rest := by
  induction w generalizing read with
  | nil => rw [List.nil_append, List.append_nil]
  | cons c w ih =>
      rw [List.all_cons, Bool.and_eq_true] at letters
      have grows : (Scanner.inWord read).grow c = some (.inWord (read ++ [c])) := by
        rw [Scanner.grow, if_pos letters.1]
      rw [List.cons_append, scan_of_grow grows, ih letters.2, List.append_assoc,
        List.singleton_append]

/-- A word ends where its letters end. -/
theorem scan_word {w rest : Bytes} (nonempty : w ≠ []) (letters : w.all wordByte = true)
    (stops : ∀ c ∈ rest.head?, wordByte c = false) :
    scan .between (w ++ rest) = (scan .between rest).map (Lexeme.word w :: ·) := by
  cases w with
  | nil => exact absurd rfl nonempty
  | cons c w =>
      rw [List.all_cons, Bool.and_eq_true] at letters
      have begins : start c = some ([], .inWord [c]) := by
        rw [start, isSpace_of_wordByte letters.1, letters.1]
        rfl
      have fed : feed .between [c] = some ([], .inWord [c]) := by
        simp [feed, Scanner.step, Scanner.grow, Scanner.done, begins]
      have ends : scan (.inWord (c :: w)) rest = _ := scan_of_grow_eq_none rfl fun d first => by
        rw [Scanner.grow, stops d first]
        rfl
      have first := scan_append fed (w ++ rest)
      rw [scan_inWord letters.2] at first
      simp only [List.nil_append, Option.map_id', List.singleton_append] at first
      rw [List.cons_append, first, ends]

/-- A word in front of a piece that does not go on with a letter. -/
theorem Lexes.word {w text : Bytes} {c : UInt8} {ls : List Lexeme} (nonempty : w ≠ [])
    (letters : w.all wordByte = true) (first : text.head? = some c) (stops : wordByte c = false)
    (piece : Lexes text ls) : Lexes (w ++ text) (.word w :: ls) := by
  intro rest
  have ends : ∀ d ∈ (text ++ rest).head?, wordByte d = false := by
    intro d same
    rw [List.head?_append, first, Option.some_or] at same
    cases same
    exact stops
  rw [List.append_assoc, scan_word nonempty letters ends, piece, Option.map_map]
  rfl

/-- A word that is being read consists of letters. -/
def Scanner.Sound : Scanner → Prop
  | .inWord read => read ≠ [] ∧ read.all wordByte = true
  | _ => True

theorem sound_of_start {s : Scanner} {c : UInt8} {ls : List Lexeme}
    (begins : start c = some (ls, s)) : s.Sound ∧ ∀ w, .word w ∉ ls := by
  unfold start at begins
  split at begins
  · obtain ⟨rfl, rfl⟩ := Prod.mk.inj (Option.some.inj begins)
    exact ⟨trivial, by simp⟩
  split at begins
  · next letter =>
      obtain ⟨rfl, rfl⟩ := Prod.mk.inj (Option.some.inj begins)
      exact ⟨⟨List.cons_ne_nil _ _, by simpa using letter⟩, by simp⟩
  split at begins
  · obtain ⟨rfl, rfl⟩ := Prod.mk.inj (Option.some.inj begins)
    exact ⟨trivial, by simp⟩
  split at begins
  · obtain ⟨rfl, rfl⟩ := Prod.mk.inj (Option.some.inj begins)
    exact ⟨trivial, by simp⟩
  split at begins
  · obtain ⟨rfl, rfl⟩ := Prod.mk.inj (Option.some.inj begins)
    exact ⟨trivial, by simp⟩
  · cases begins

theorem Scanner.Sound.grow {s s' : Scanner} {c : UInt8} (sound : s.Sound)
    (grows : s.grow c = some s') : s'.Sound := by
  cases s with
  | between => cases grows
  | inWord read =>
      rw [Scanner.grow, Option.ite_none_right_eq_some] at grows
      obtain ⟨letter, same⟩ := grows
      cases same
      exact ⟨by simp, by simpa [letter] using sound.2⟩
  | inOperator read =>
      rw [Scanner.grow, Option.ite_none_right_eq_some] at grows
      obtain ⟨_, same⟩ := grows
      cases same
      trivial
  | inLiteral read =>
      simp only [Scanner.grow] at grows
      split_ifs at grows
      · cases grows; trivial
      · cases grows; trivial
      · cases grows; trivial
  | escaped read => cases grows; trivial
  | closing read =>
      rw [Scanner.grow, Option.ite_none_right_eq_some] at grows
      obtain ⟨_, same⟩ := grows
      cases same
      trivial

theorem Scanner.Sound.done {s : Scanner} {ls : List Lexeme} (sound : s.Sound)
    (ends : s.done = some ls) {w : Bytes} (member : .word w ∈ ls) :
    w ≠ [] ∧ w.all wordByte = true := by
  cases s with
  | inWord read =>
      cases ends
      cases List.mem_singleton.mp member
      exact sound
  | between => cases ends; cases member
  | inOperator read => cases ends; simp at member
  | inLiteral read => cases ends
  | escaped read => cases ends
  | closing read => cases ends; simp at member

/-- The words of a reading are not empty and consist of letters. -/
theorem word_of_mem_scan {text : Bytes} {s : Scanner} {ls : List Lexeme} (sound : s.Sound)
    (read : scan s text = some ls) {w : Bytes} (member : .word w ∈ ls) :
    w ≠ [] ∧ w.all wordByte = true := by
  induction text generalizing s ls with
  | nil => exact sound.done read member
  | cons c rest ih =>
      cases grown : s.grow c with
      | some s' =>
          rw [scan_of_grow grown] at read
          exact ih (sound.grow grown) read member
      | none =>
          rw [scan, Scanner.step, grown] at read
          simp only [Option.bind_eq_some_iff, Option.map_eq_some_iff] at read
          obtain ⟨_, ⟨before, ends, now, begins, rfl⟩, later, read, rfl⟩ := read
          have fresh := sound_of_start begins
          rcases List.mem_append.mp member with here | there
          · rcases List.mem_append.mp here with old | new
            · exact sound.done ends old
            · exact absurd new (fresh.2 w)
          · exact ih fresh.1 read there

/-! ### Literals -/

/-- A content that denotes itself: no quote, and a backslash only before `%` or
`_`. -/
def plain : Bytes → Bool
  | [] => true
  | c :: s => c != 39 && (c != 92 || s.head? == some 37 || s.head? == some 95) && plain s

theorem plain_cons {c : UInt8} {s : Bytes} : plain (c :: s) = true ↔
    (c ≠ 39 ∧ (c = 92 → s.head? = some 37 ∨ s.head? = some 95)) ∧ plain s = true := by
  simp only [plain, Bool.and_eq_true, Bool.or_eq_true, bne_iff_ne, beq_iff_eq, ne_eq]
  tauto

/-- A byte that is an ordinary part of a literal. -/
theorem scan_ordinary {c : UInt8} (quote : c ≠ 39) (backslash : c ≠ 92) (read rest : Bytes) :
    scan (.inLiteral read) (c :: rest) = scan (.inLiteral (read ++ [c])) rest :=
  scan_of_grow (by rw [Scanner.grow, if_neg quote, if_neg backslash]) rest

theorem scan_backslash (read rest : Bytes) :
    scan (.inLiteral read) (92 :: rest) = scan (.escaped read) rest :=
  scan_of_grow rfl rest

theorem scan_escaped (c : UInt8) (read rest : Bytes) :
    scan (.escaped read) (c :: rest) = scan (.inLiteral (read ++ unescape c)) rest :=
  scan_of_grow rfl rest

theorem scan_open (rest : Bytes) : scan .between (39 :: rest) = scan (.inLiteral []) rest := by
  simp [scan, Scanner.step, Scanner.grow, Scanner.done, start, isSpace, wordByte, isDigit,
    operatorByte, symbolByte]

theorem scan_quote (read rest : Bytes) :
    scan (.inLiteral read) (39 :: rest) = scan (.closing read) rest :=
  scan_of_grow rfl rest

/-- A quote ends the literal unless another follows. -/
theorem scan_closing {rest : Bytes} (single : rest.head? ≠ some 39) (read : Bytes) :
    scan (.closing read) rest = (scan .between rest).map (Lexeme.literal read :: ·) := by
  refine scan_of_grow_eq_none rfl fun c first => ?_
  have other : c ≠ 39 := fun same => single (same ▸ first)
  rw [Scanner.grow, if_neg other]

theorem scan_plain {s : Bytes} (ok : plain s = true) (read rest : Bytes) :
    scan (.inLiteral read) (s ++ rest) = scan (.inLiteral (read ++ s)) rest := by
  induction s generalizing read with
  | nil => rw [List.nil_append, List.append_nil]
  | cons c s ih =>
      obtain ⟨⟨quote, wild⟩, later⟩ := plain_cons.mp ok
      have goesOn := ih later (read ++ [c])
      rw [List.append_assoc, List.singleton_append] at goesOn
      rw [List.cons_append, ← goesOn]
      by_cases backslash : c = 92
      · subst backslash
        -- the wildcard behind the backslash is read as if it stood alone
        cases s with
        | nil => simp at wild
        | cons d s =>
            have kept : unescape d = [92, d] := by
              rcases wild rfl with same | same
              · cases same; rfl
              · cases same; rfl
            have ordinary : d ≠ 39 ∧ d ≠ 92 := by
              rcases wild rfl with same | same
              · cases same; decide
              · cases same; decide
            rw [scan_backslash, List.cons_append, scan_escaped, kept,
              scan_ordinary ordinary.1 ordinary.2, List.append_assoc, List.singleton_append]
      · exact scan_ordinary quote backslash read (s ++ rest)

/-- The bytes with a meaning of their own in a literal. -/
def special (c : UInt8) : Bool := c == 39 || c == 92

/-- How a literal was read: its text `source` up to the quote has `extra` bytes, all
of them special, that its value does not have. -/
structure Unquoted (raw value source rest : Bytes) (extra : Nat) : Prop where
  text : raw = source ++ 39 :: rest
  single : rest.head? ≠ some 39
  length : source.length = value.length + extra
  specials : source.countP special = value.countP special + extra
  exact : extra = 0 → source = value ∧ plain value = true

namespace Unquoted

variable {raw value source rest : Bytes} {extra : Nat} {c d e : UInt8}

theorem ordinary (was : Unquoted raw value source rest extra) (quote : c ≠ 39)
    (backslash : c ≠ 92) : Unquoted (c :: raw) (c :: value) (c :: source) rest extra where
  text := by rw [was.text, List.cons_append]
  single := was.single
  length := by rw [List.length_cons, List.length_cons, was.length]; omega
  specials := by rw [List.countP_cons, List.countP_cons, was.specials]; omega
  exact none := by
    obtain ⟨same, ok⟩ := was.exact none
    exact ⟨congrArg (c :: ·) same, plain_cons.mpr ⟨⟨quote, fun now => absurd now backslash⟩, ok⟩⟩

/-- Two bytes, the first one special, that stand for one like the second. -/
theorem pair (was : Unquoted raw value source rest extra) (first : special c = true)
    (alike : special e = special d) :
    Unquoted (c :: d :: raw) (e :: value) (c :: d :: source) rest (extra + 1) where
  text := by rw [was.text, List.cons_append, List.cons_append]
  single := was.single
  length := by simp only [List.length_cons, was.length]; omega
  specials := by
    simp only [List.countP_cons, was.specials, first, alike, if_true]
    omega
  exact none := absurd none (Nat.succ_ne_zero extra)

theorem wildcard (was : Unquoted raw value source rest extra) (wild : d = 37 ∨ d = 95) :
    Unquoted (92 :: d :: raw) (92 :: d :: value) (92 :: d :: source) rest extra where
  text := by rw [was.text, List.cons_append, List.cons_append]
  single := was.single
  length := by simp only [List.length_cons, was.length]; omega
  specials := by simp only [List.countP_cons, was.specials]; omega
  exact none := by
    obtain ⟨same, ok⟩ := was.exact none
    have ordinary : d ≠ 39 ∧ d ≠ 92 := by
      rcases wild with rfl | rfl
      · decide
      · decide
    refine ⟨by rw [same], plain_cons.mpr ⟨⟨by decide, fun _ => ?_⟩, plain_cons.mpr
      ⟨⟨ordinary.1, fun now => absurd now ordinary.2⟩, ok⟩⟩⟩
    exact wild.imp (congrArg some) (congrArg some)

end Unquoted

/-- An escaped wildcard keeps its backslash; every other byte stays one byte and
stays special or not. -/
theorem unescape_cases (c : UInt8) :
    (unescape c = [92, c] ∧ (c = 37 ∨ c = 95)) ∨
      ∃ d, unescape c = [d] ∧ special d = special c := by
  unfold unescape
  split_ifs with wild
  · exact .inl ⟨rfl, wild⟩
  all_goals first
    | exact .inr ⟨_, rfl, rfl⟩
    | subst c; exact .inr ⟨_, rfl, rfl⟩

theorem unquoted_of_scan {raw read : Bytes} {ls : List Lexeme}
    (scanned : scan (.inLiteral read) raw = some ls) :
    ∃ value source rest extra more, ls = .literal (read ++ value) :: more ∧
      Unquoted raw value source rest extra := by
  induction size : raw.length using Nat.strongRecOn generalizing raw read with
  | ind n ih =>
      cases raw with
      | nil => cases scanned
      | cons c raw =>
          rw [List.length_cons] at size
          by_cases quote : c = 39
          · subst quote
            rw [scan_quote] at scanned
            by_cases doubled : raw.head? = some 39
            · obtain ⟨raw, rfl⟩ := List.head?_eq_some_iff.mp doubled
              rw [scan_of_grow rfl] at scanned
              rw [List.length_cons] at size
              obtain ⟨value, source, rest, extra, more, rfl, was⟩ :=
                ih raw.length (by omega) scanned rfl
              refine ⟨39 :: value, 39 :: 39 :: source, rest, extra + 1, more, by simp, ?_⟩
              exact was.pair rfl rfl
            · rw [scan_closing doubled, Option.map_eq_some_iff] at scanned
              obtain ⟨more, _, rfl⟩ := scanned
              exact ⟨[], [], raw, 0, more, by simp, ⟨rfl, doubled, rfl, rfl, fun _ => ⟨rfl, rfl⟩⟩⟩
          by_cases backslash : c = 92
          · subst backslash
            rw [scan_backslash] at scanned
            cases raw with
            | nil => cases scanned
            | cons d raw =>
                rw [scan_escaped] at scanned
                rw [List.length_cons] at size
                obtain ⟨value, source, rest, extra, more, rfl, was⟩ :=
                  ih raw.length (by omega) scanned rfl
                rcases unescape_cases d with ⟨kept, wild⟩ | ⟨e, one, alike⟩
                · refine ⟨92 :: d :: value, 92 :: d :: source, rest, extra, more,
                    by simp [kept], ?_⟩
                  exact was.wildcard wild
                · refine ⟨e :: value, 92 :: d :: source, rest, extra + 1, more, by simp [one], ?_⟩
                  exact was.pair rfl alike
          · rw [scan_ordinary quote backslash] at scanned
            obtain ⟨value, source, rest, extra, more, rfl, was⟩ :=
              ih raw.length (by omega) scanned rfl
            refine ⟨c :: value, c :: source, rest, extra, more, by simp, ?_⟩
            exact was.ordinary quote backslash

theorem scan_literal {s rest : Bytes} (ok : plain s = true) (single : rest.head? ≠ some 39) :
    scan (.inLiteral []) (s ++ 39 :: rest) = (scan .between rest).map (Lexeme.literal s :: ·) := by
  rw [scan_plain ok, List.nil_append, scan_quote, scan_closing single]

/-- A text that is its own value ends at its quote: otherwise the source goes on
behind the quote, and all that it has there is special. -/
theorem Unquoted.extra_eq_zero {s rest source behind : Bytes} {extra : Nat}
    (was : Unquoted (s ++ 39 :: rest) s source behind extra)
    (apart : ∀ c ∈ rest.head?, special c = false) : extra = 0 := by
  by_contra some
  have length := was.length
  have specials := was.specials
  rcases List.append_eq_append_iff.mp was.text with ⟨tail, longer, later⟩ | ⟨tail, shorter, _⟩
  · subst longer
    cases tail with
    | nil =>
        rw [List.append_nil] at length
        omega
    | cons q tail =>
        obtain ⟨rfl, rfl⟩ := List.cons.inj later
        rw [List.length_append, List.length_cons] at length
        rw [List.countP_append, List.countP_cons_of_pos rfl] at specials
        have all : tail.countP special = tail.length := by omega
        cases tail with
        | nil =>
            have quote := apart 39 rfl
            cases quote
        | cons c tail =>
            have first := List.countP_eq_length.mp all c List.mem_cons_self
            rw [apart c rfl] at first
            cases first
  · rw [shorter, List.length_append] at length
    omega

/-- A text between two quotes is read back unchanged exactly if it is plain. -/
theorem scan_literal_iff {s rest : Bytes} {more : List Lexeme}
    (apart : ∀ c ∈ rest.head?, special c = false) :
    scan (.inLiteral []) (s ++ 39 :: rest) = some (.literal s :: more) ↔
      plain s = true ∧ scan .between rest = some more := by
  have single : rest.head? ≠ some 39 := fun same => Bool.noConfusion (apart 39 same)
  constructor
  · intro scanned
    obtain ⟨value, source, behind, extra, later, same, was⟩ := unquoted_of_scan scanned
    rw [List.nil_append] at same
    cases same
    have ok := (was.exact (was.extra_eq_zero apart)).2
    rw [scan_literal ok single, Option.map_eq_some_iff] at scanned
    obtain ⟨_, read, same⟩ := scanned
    cases same
    exact ⟨ok, read⟩
  · rintro ⟨ok, read⟩
    rw [scan_literal ok single, read, Option.map_some]

end Heracles.Base.Sql
