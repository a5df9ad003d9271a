import Heracles.Base.SqlLexer

/-!
`SELECT` statements.

A `Select` names its columns, its table, the comparisons that its rows pass, its
grouping and its order; lists in it have at least one member. `parse` reads a
statement from its tokens, and `parse_eq_some_iff` says that it accepts exactly the
tokens that `Select.tokens` writes, so that a text has one meaning at most. Key
words are those of this fragment, in letters of either case.
-/

namespace Heracles.Base.Sql

open Heracles.Base

inductive Keyword where
  | selectKey
  | fromKey
  | whereKey
  | andKey
  | groupKey
  | orderKey
  | byKey
  | descKey
  | ifnullKey
deriving DecidableEq

namespace Keyword

def text : Keyword → Bytes
  | selectKey => bytes "SELECT"
  | fromKey => bytes "FROM"
  | whereKey => bytes "WHERE"
  | andKey => bytes "AND"
  | groupKey => bytes "GROUP"
  | orderKey => bytes "ORDER"
  | byKey => bytes "BY"
  | descKey => bytes "DESC"
  | ifnullKey => bytes "IFNULL"

def all : List Keyword :=
  [selectKey, fromKey, whereKey, andKey, groupKey, orderKey, byKey, descKey, ifnullKey]

end Keyword

def upper (c : UInt8) : UInt8 := if 97 ≤ c ∧ c ≤ 122 then c - 32 else c

/-- The key word that a word is. -/
def keyword (w : Bytes) : Option Keyword := Keyword.all.find? fun k => k.text == w.map upper

inductive Relation where
  | eq
  | ne
  | lt
  | le
  | gt
  | ge
deriving DecidableEq

namespace Relation

def text : Relation → Bytes
  | eq => bytes "="
  | ne => bytes "<>"
  | lt => bytes "<"
  | le => bytes "<="
  | gt => bytes ">"
  | ge => bytes ">="

def all : List Relation := [eq, ne, lt, le, gt, ge]

end Relation

/-- The relation that an operator stands for. -/
def relation (w : Bytes) : Option Relation := Relation.all.find? fun r => r.text == w

inductive Token where
  | key (k : Keyword)
  | name (w : Bytes)
  | number (n : Nat)
  | operator (w : Bytes)
  | symbol (c : UInt8)
  | literal (v : Bytes)
deriving DecidableEq

/-- A word of digits is a number, and a word that is no key word is a name. -/
def wordToken (w : Bytes) : Token :=
  if w.all isDigit then .number (readDigits w)
  else
    match keyword w with
    | some k => .key k
    | none => .name w

def Lexeme.token : Lexeme → Option Token
  | .blank _ => none
  | .word w => some (wordToken w)
  | .operator w => some (.operator w)
  | .symbol c => some (.symbol c)
  | .literal v => some (.literal v)

/-! ### Statements -/

/-- A list with a first member. -/
structure Series (α : Type) where
  first : α
  others : List α
deriving DecidableEq

/-- A column, or a function of a column with a value for none. -/
inductive Item where
  | bare (column : Bytes)
  | ifNull (function : Bytes) (column : Bytes) (otherwise : Nat)
deriving DecidableEq

inductive Operand where
  | number (n : Int)
  | string (v : Bytes)
deriving DecidableEq

structure Comparison where
  column : Bytes
  relation : Relation
  operand : Operand
deriving DecidableEq

/-- `SELECT … FROM … WHERE …`, with `GROUP BY` a column, `ORDER BY` a column `DESC`
and a semicolon if it is closed. -/
structure Select where
  items : Series Item
  database : Bytes
  table : Bytes
  conditions : Series Comparison
  groupBy : Option Bytes
  orderBy : Option Bytes
  closed : Bool
deriving DecidableEq

/-- The members with a separator between them. -/
def Series.tokens {α : Type} (each : α → List Token) (separator : Token) (s : Series α) :
    List Token :=
  each s.first ++ s.others.flatMap fun a => separator :: each a

def Item.tokens : Item → List Token
  | .bare column => [.name column]
  | .ifNull function column otherwise =>
      [.key .ifnullKey, .symbol 40, .name function, .symbol 40, .name column, .symbol 41,
        .symbol 44, .number otherwise, .symbol 41]

def Operand.tokens : Operand → List Token
  | .number (.ofNat n) => [.number n]
  | .number (.negSucc n) => [.symbol 45, .number (n + 1)]
  | .string v => [.literal v]

def Comparison.tokens (c : Comparison) : List Token :=
  .name c.column :: .operator c.relation.text :: c.operand.tokens

def groupTokens : Option Bytes → List Token
  | none => []
  | some column => [.key .groupKey, .key .byKey, .name column]

def orderTokens : Option Bytes → List Token
  | none => []
  | some column => [.key .orderKey, .key .byKey, .name column, .key .descKey]

def closeTokens : Bool → List Token
  | false => []
  | true => [.symbol 59]

namespace Select

/-- The tokens of the table and of the words around it. -/
def tableTokens (st : Select) : List Token :=
  [.key .fromKey, .name st.database, .symbol 46, .name st.table, .key .whereKey]

/-- The tokens behind the comparisons. -/
def tailTokens (st : Select) : List Token :=
  groupTokens st.groupBy ++ (orderTokens st.orderBy ++ closeTokens st.closed)

def tokens (st : Select) : List Token :=
  .key .selectKey :: (st.items.tokens Item.tokens (.symbol 44) ++ (st.tableTokens ++
    (st.conditions.tokens Comparison.tokens (.key .andKey) ++ st.tailTokens)))

end Select

/-! ### Reading -/

/-- What is read from the front of some tokens, with the tokens behind it. -/
abbrev Reader (α : Type) := List Token → Option (α × List Token)

/-- A series of at most so many members. -/
def readSeries {α : Type} (read : Reader α) (separator : Token) : Nat → Reader (Series α)
  | 0, _ => none
  | n + 1, toks =>
      match read toks with
      | none => none
      | some (first, rest) =>
          if rest.head? = some separator then
            (readSeries read separator n rest.tail).map fun more =>
              (⟨first, more.1.first :: more.1.others⟩, more.2)
          else some (⟨first, []⟩, rest)

def readItem : Reader Item
  | .name column :: rest => some (.bare column, rest)
  | .key .ifnullKey :: .symbol 40 :: .name function :: .symbol 40 :: .name column :: .symbol 41 ::
      .symbol 44 :: .number otherwise :: .symbol 41 :: rest =>
      some (.ifNull function column otherwise, rest)
  | _ => none

def readOperand : Reader Operand
  | .number n :: rest => some (.number n, rest)
  | .symbol 45 :: .number (n + 1) :: rest => some (.number (.negSucc n), rest)
  | .literal v :: rest => some (.string v, rest)
  | _ => none

def readComparison : Reader Comparison
  | .name column :: .operator w :: rest =>
      (relation w).bind fun relation => (readOperand rest).map fun operand =>
        (⟨column, relation, operand.1⟩, operand.2)
  | _ => none

def readGroup : List Token → Option Bytes × List Token
  | .key .groupKey :: .key .byKey :: .name column :: rest => (some column, rest)
  | rest => (none, rest)

def readOrder : List Token → Option Bytes × List Token
  | .key .orderKey :: .key .byKey :: .name column :: .key .descKey :: rest => (some column, rest)
  | rest => (none, rest)

def readClose : List Token → Option Bool
  | [] => some false
  | [.symbol 59] => some true
  | _ => none

def readTail (items : Series Item) (database table : Bytes) (conditions : Series Comparison)
    (toks : List Token) : Option Select :=
  let group := readGroup toks
  let order := readOrder group.2
  (readClose order.2).map fun closed =>
    ⟨items, database, table, conditions, group.1, order.1, closed⟩

def readRows (items : Series Item) : List Token → Option Select
  | .key .fromKey :: .name database :: .symbol 46 :: .name table :: .key .whereKey :: toks =>
      (readSeries readComparison (.key .andKey) toks.length toks).bind fun conditions =>
        readTail items database table conditions.1 conditions.2
  | _ => none

def parse : List Token → Option Select
  | .key .selectKey :: toks =>
      (readSeries readItem (.symbol 44) toks.length toks).bind fun items =>
        readRows items.1 items.2
  | _ => none

def tokenize (text : Bytes) : Option (List Token) :=
  (lex text).map fun ls => ls.filterMap Lexeme.token

/-- The statement that a text is. -/
def read (text : Bytes) : Option Select := (tokenize text).bind parse

/-! ### Reading and writing agree -/

/-- A reader of what `tokens` writes. -/
structure Reads {α : Type} (read : Reader α) (tokens : α → List Token) : Prop where
  complete : ∀ a rest, read (tokens a ++ rest) = some (a, rest)
  sound : ∀ {toks a rest}, read toks = some (a, rest) → toks = tokens a ++ rest

theorem relation_text (r : Relation) : relation r.text = some r := by
  cases r <;> decide +kernel

theorem text_of_relation {w : Bytes} {r : Relation} (known : relation w = some r) : r.text = w := by
  have found := List.find?_some known
  simpa using found

theorem reads_item : Reads readItem Item.tokens where
  complete a rest := by
    cases a with
    | bare column => rfl
    | ifNull function column otherwise => rfl
  sound {toks a rest} is := by
    unfold readItem at is
    split at is
    · cases is; rfl
    · cases is; rfl
    · cases is

theorem reads_operand : Reads readOperand Operand.tokens where
  complete a rest := by
    cases a with
    | number n =>
        cases n with
        | ofNat n => rfl
        | negSucc n => rfl
    | string v => rfl
  sound {toks a rest} is := by
    unfold readOperand at is
    split at is
    · cases is; rfl
    · cases is; rfl
    · cases is; rfl
    · cases is

theorem reads_comparison : Reads readComparison Comparison.tokens where
  complete a rest := by
    rw [Comparison.tokens, List.cons_append, List.cons_append, readComparison, relation_text,
      Option.bind_some, reads_operand.complete]
    rfl
  sound {toks a rest} is := by
    unfold readComparison at is
    split at is
    · next column w toks =>
        simp only [Option.bind_eq_some_iff, Option.map_eq_some_iff] at is
        obtain ⟨r, known, ⟨operand, behind⟩, operandIs, same⟩ := is
        cases same
        rw [reads_operand.sound operandIs, ← text_of_relation known]
        rfl
    · cases is

section Series

variable {α : Type} {reader : Reader α} {each : α → List Token} {separator : Token}

theorem Series.tokens_cons (first next : α) (others : List α) :
    Series.tokens each separator ⟨first, next :: others⟩ =
      each first ++ separator :: Series.tokens each separator ⟨next, others⟩ := by
  rw [Series.tokens, Series.tokens, List.flatMap_cons, List.cons_append]

theorem readSeries_tokens (reads : Reads reader each) {rest : List Token}
    (ends : rest.head? ≠ some separator) {n : Nat} {s : Series α} (bound : s.others.length < n) :
    readSeries reader separator n (s.tokens each separator ++ rest) = some (s, rest) := by
  obtain ⟨first, others⟩ := s
  induction n generalizing first others with
  | zero => exact absurd bound (Nat.not_lt_zero _)
  | succ n ih =>
      cases others with
      | nil =>
          rw [Series.tokens, List.flatMap_nil, List.append_nil, readSeries, reads.complete]
          exact if_neg ends
      | cons next others =>
          rw [Series.tokens_cons, List.append_assoc, readSeries, reads.complete, List.cons_append]
          have later := ih next others (Nat.lt_of_succ_lt_succ bound)
          simp only [List.head?_cons, if_true, List.tail_cons, later, Option.map_some]

theorem tokens_of_readSeries (reads : Reads reader each) {n : Nat} {toks rest : List Token}
    {s : Series α} (is : readSeries reader separator n toks = some (s, rest)) :
    toks = s.tokens each separator ++ rest := by
  induction n generalizing toks s with
  | zero => cases is
  | succ n ih =>
      unfold readSeries at is
      split at is
      · cases is
      · next first behind firstIs =>
          split at is
          · next separated =>
              obtain ⟨behind, rfl⟩ := List.head?_eq_some_iff.mp separated
              rw [Option.map_eq_some_iff] at is
              obtain ⟨⟨more, last⟩, moreIs, same⟩ := is
              cases same
              rw [Series.tokens_cons, reads.sound firstIs, List.append_assoc, List.cons_append,
                ← ih moreIs]
              rfl
          · cases is
            rw [Series.tokens, List.flatMap_nil, List.append_nil, reads.sound firstIs]

/-- Behind a separator there has to be a member. -/
theorem readSeries_eq_none (reads : Reads reader each) {rest : List Token}
    (missing : reader rest = none) (n : Nat) (s : Series α) :
    readSeries reader separator n (s.tokens each separator ++ separator :: rest) = none := by
  obtain ⟨first, others⟩ := s
  induction n generalizing first others with
  | zero => rfl
  | succ n ih =>
      cases others with
      | nil =>
          have behind : readSeries reader separator n rest = none := by
            cases n with
            | zero => rfl
            | succ n => rw [readSeries, missing]
          rw [Series.tokens, List.flatMap_nil, List.append_nil, readSeries, reads.complete]
          simp only [List.head?_cons, if_true, List.tail_cons, behind, Option.map_none]
      | cons next others =>
          rw [Series.tokens_cons, List.append_assoc, readSeries, reads.complete, List.cons_append]
          simp only [List.head?_cons, if_true, List.tail_cons, ih next others, Option.map_none]

/-- A member has a token at least, so the length of the text is bound enough. -/
theorem length_others_lt (nonempty : ∀ a, each a ≠ []) (s : Series α) (rest : List Token) :
    s.others.length < (s.tokens each separator ++ rest).length := by
  have shorter (others : List α) :
      others.length ≤ (others.flatMap fun a => separator :: each a).length := by
    induction others with
    | nil => exact Nat.le_refl 0
    | cons a others ih =>
        rw [List.flatMap_cons, List.length_append, List.length_cons, List.length_cons]
        omega
  have := shorter s.others
  have := List.length_pos_iff.mpr (nonempty s.first)
  rw [Series.tokens, List.length_append, List.length_append]
  omega

end Series

theorem Item.tokens_ne_nil (i : Item) : i.tokens ≠ [] := by
  cases i <;> exact List.cons_ne_nil _ _

theorem Comparison.tokens_ne_nil (c : Comparison) : c.tokens ≠ [] := List.cons_ne_nil _ _

theorem groupTokens_of_readGroup (toks : List Token) :
    toks = groupTokens (readGroup toks).1 ++ (readGroup toks).2 := by
  unfold readGroup
  split
  · rfl
  · rfl

theorem orderTokens_of_readOrder (toks : List Token) :
    toks = orderTokens (readOrder toks).1 ++ (readOrder toks).2 := by
  unfold readOrder
  split
  · rfl
  · rfl

theorem closeTokens_of_readClose {toks : List Token} {closed : Bool}
    (is : readClose toks = some closed) : toks = closeTokens closed := by
  unfold readClose at is
  split at is
  · cases is; rfl
  · cases is; rfl
  · cases is

theorem tailTokens_of_readTail {items : Series Item} {database table : Bytes}
    {conditions : Series Comparison} {toks : List Token} {st : Select}
    (is : readTail items database table conditions toks = some st) :
    ∃ group order closed, st = ⟨items, database, table, conditions, group, order, closed⟩ ∧
      toks = st.tailTokens := by
  rw [readTail, Option.map_eq_some_iff] at is
  obtain ⟨closed, closes, rfl⟩ := is
  refine ⟨_, _, _, rfl, (groupTokens_of_readGroup toks).trans ?_⟩
  rw [Select.tailTokens, ← closeTokens_of_readClose closes, ← orderTokens_of_readOrder]

theorem readTail_tokens (st : Select) :
    readTail st.items st.database st.table st.conditions st.tailTokens = some st := by
  obtain ⟨items, database, table, conditions, group, order, closed⟩ := st
  cases group <;> cases order <;> cases closed <;> rfl

theorem head_tailTokens (st : Select) : st.tailTokens.head? ≠ some (.key .andKey) := by
  obtain ⟨items, database, table, conditions, group, order, closed⟩ := st
  cases group <;> cases order <;> cases closed <;>
    simp [Select.tailTokens, groupTokens, orderTokens, closeTokens]

theorem parse_tokens (st : Select) : parse st.tokens = some st := by
  rw [Select.tokens, parse, readSeries_tokens reads_item (by simp [Select.tableTokens])
    (length_others_lt Item.tokens_ne_nil _ _), Option.bind_some]
  simp only [Select.tableTokens, List.cons_append, List.nil_append, readRows]
  rw [readSeries_tokens reads_comparison (head_tailTokens st)
    (length_others_lt Comparison.tokens_ne_nil _ _), Option.bind_some, readTail_tokens]

theorem tokens_of_parse {toks : List Token} {st : Select} (is : parse toks = some st) :
    toks = st.tokens := by
  unfold parse at is
  split at is
  · next toks =>
      rw [Option.bind_eq_some_iff] at is
      obtain ⟨⟨items, behind⟩, itemsAre, is⟩ := is
      rw [tokens_of_readSeries reads_item itemsAre]
      unfold readRows at is
      split at is
      · next database table rows same =>
          rw [Option.bind_eq_some_iff] at is
          obtain ⟨⟨conditions, tail⟩, conditionsAre, is⟩ := is
          have front : behind = _ := same
          obtain ⟨group, order, closed, rfl, tailIs⟩ := tailTokens_of_readTail is
          have behindIs : tail = _ := tailIs
          rw [front, tokens_of_readSeries reads_comparison conditionsAre, behindIs]
          rfl
      · cases is
  · cases is

/-- An empty item in the list of columns is no statement. -/
theorem parse_empty_item (items : Series Item) (rest : List Token) :
    parse (.key .selectKey :: (items.tokens Item.tokens (.symbol 44) ++
      .symbol 44 :: .key .fromKey :: rest)) = none := by
  rw [parse, readSeries_eq_none reads_item rfl, Option.bind_none]

/-- The statements that are accepted are those that are written. -/
theorem parse_eq_some_iff {toks : List Token} {st : Select} :
    parse toks = some st ↔ toks = st.tokens :=
  ⟨tokens_of_parse, fun same => same ▸ parse_tokens st⟩

theorem read_eq_some_iff {text : Bytes} {st : Select} :
    read text = some st ↔ tokenize text = some st.tokens := by
  rw [read, Option.bind_eq_some_iff]
  constructor
  · rintro ⟨toks, were, is⟩
    rw [were, tokens_of_parse is]
  · intro were
    exact ⟨st.tokens, were, parse_tokens st⟩

/-! ### Tokens of a text, piece by piece -/

/-- A word that is read as a name. -/
def isName (w : Bytes) : Bool :=
  w != [] && w.all wordByte && !w.all isDigit && (keyword w).isNone

theorem isName_iff {w : Bytes} :
    isName w = true ↔ (w ≠ [] ∧ w.all wordByte = true) ∧ wordToken w = .name w := by
  unfold isName wordToken
  cases w.all isDigit <;> cases keyword w <;> simp

/-- No number and no key word has an underscore. -/
theorem isName_of_underscore {w : Bytes} (letters : w.all wordByte = true) (member : 95 ∈ w) :
    isName w = true := by
  have nonempty : w ≠ [] := List.ne_nil_of_mem member
  have notDigits : w.all isDigit = false :=
    List.all_eq_false.mpr ⟨95, member, by decide⟩
  have notKey : keyword w = none := by
    refine List.find?_eq_none.mpr fun k _ same => ?_
    have inside : (95 : UInt8) ∈ w.map upper := List.mem_map.mpr ⟨95, member, rfl⟩
    rw [← beq_iff_eq.mp same] at inside
    exact absurd inside (by cases k <;> decide +kernel)
  simp [isName, nonempty, letters, notDigits, notKey]

theorem wordToken_decimal (n : Nat) : wordToken (decimal n) = .number n := by
  have digits : (decimal n).all isDigit = true :=
    List.all_eq_true.mpr fun _ member => isDigit_of_mem_decimal member
  rw [wordToken, if_pos digits, readDigits_decimal]

/-- A piece of a text that is read by itself, with its tokens. -/
def Writes (text : Bytes) (toks : List Token) : Prop :=
  ∃ ls, Lexes text ls ∧ ls.filterMap Lexeme.token = toks

namespace Writes

variable {text : Bytes} {toks : List Token}

theorem of_feed (fed : (feed .between text).map (fun r => (r.1.filterMap Lexeme.token, r.2)) =
    some (toks, .between)) : Writes text toks := by
  rw [Option.map_eq_some_iff] at fed
  obtain ⟨⟨ls, _⟩, fed, same⟩ := fed
  cases same
  exact ⟨ls, .of_feed fed, rfl⟩

theorem append {later : Bytes} {more : List Token} (piece : Writes text toks)
    (second : Writes later more) : Writes (text ++ later) (toks ++ more) := by
  obtain ⟨ls, piece, rfl⟩ := piece
  obtain ⟨ms, second, rfl⟩ := second
  exact ⟨ls ++ ms, piece.append second, List.filterMap_append⟩

theorem name {w : Bytes} {c : UInt8} (named : isName w = true) (first : text.head? = some c)
    (stops : wordByte c = false) (piece : Writes text toks) :
    Writes (w ++ text) (.name w :: toks) := by
  obtain ⟨⟨nonempty, letters⟩, own⟩ := isName_iff.mp named
  obtain ⟨ls, piece, rfl⟩ := piece
  exact ⟨.word w :: ls, piece.word nonempty letters first stops, by simp [Lexeme.token, own]⟩

theorem number {c : UInt8} (n : Int) (first : text.head? = some c) (stops : wordByte c = false)
    (piece : Writes text toks) :
    Writes (signedDecimal n ++ text) ((Operand.number n).tokens ++ toks) := by
  have digits (m : Nat) : Writes (decimal m ++ text) (.number m :: toks) := by
    have letters : (decimal m).all wordByte = true := by
      refine List.all_eq_true.mpr fun d member => ?_
      rw [wordByte, isDigit_of_mem_decimal member]
      rfl
    obtain ⟨ls, piece, rfl⟩ := piece
    exact ⟨.word (decimal m) :: ls, piece.word (decimal_ne_nil m) letters first stops,
      by simp [Lexeme.token, wordToken_decimal]⟩
  have minus : Writes [45] [.symbol 45] := .of_feed rfl
  cases n with
  | ofNat n =>
      have same : signedDecimal (.ofNat n) = decimal n :=
        signedDecimal_of_nonneg (Int.natCast_nonneg n)
      rw [same]
      exact digits n
  | negSucc n =>
      have same : signedDecimal (.negSucc n) = [45] ++ decimal (n + 1) := by
        rw [signedDecimal, if_pos (Int.negSucc_lt_zero n)]
        rfl
      rw [same, List.append_assoc]
      exact minus.append (digits (n + 1))

theorem tokenize_eq (piece : Writes text toks) : tokenize text = some toks := by
  obtain ⟨ls, piece, rfl⟩ := piece
  rw [tokenize, piece.lex_eq, Option.map_some]

/-- A piece in front of a text. -/
theorem tokenize_append (piece : Writes text toks) (rest : Bytes) :
    tokenize (text ++ rest) = (tokenize rest).map (toks ++ ·) := by
  obtain ⟨ls, piece, rfl⟩ := piece
  rw [tokenize, lex, piece, Option.map_map, tokenize, lex, Option.map_map]
  congr 1
  funext more
  exact List.filterMap_append

theorem tokenize_iff (piece : Writes text toks) {rest : Bytes} {more : List Token} :
    tokenize (text ++ rest) = some (toks ++ more) ↔ tokenize rest = some more := by
  rw [piece.tokenize_append, Option.map_eq_some_iff]
  simp only [List.append_cancel_left_eq, exists_eq_right]

theorem outside_congr (piece : Writes text toks) {rest rest' : Bytes}
    (same : outside rest = outside rest') : outside (text ++ rest) = outside (text ++ rest') := by
  obtain ⟨ls, piece, _⟩ := piece
  have shown (rest : Bytes) :
      outside (text ++ rest) = (outside rest).map (ls.map Lexeme.blot ++ ·) := by
    rw [outside, lex, piece, Option.map_map, outside, lex, Option.map_map]
    congr 1
    funext more
    exact List.map_append
  rw [shown, shown, same]

end Writes

/-- Only a word that is a name is read as one. -/
theorem isName_of_mem {text w : Bytes} {toks : List Token} (read : tokenize text = some toks)
    (member : .name w ∈ toks) : isName w = true := by
  rw [tokenize, Option.map_eq_some_iff] at read
  obtain ⟨ls, scanned, rfl⟩ := read
  obtain ⟨l, inside, is⟩ := List.mem_filterMap.mp member
  cases l with
  | blank c => cases is
  | operator v => cases is
  | symbol c => cases is
  | literal v => cases is
  | word v =>
      have own : wordToken v = .name w := Option.some.inj is
      have same : v = w := by
        unfold wordToken at own
        split at own
        · cases own
        split at own
        · cases own
        · cases own; rfl
      subst same
      have fresh : Scanner.between.Sound := trivial
      exact isName_iff.mpr ⟨word_of_mem_scan fresh scanned inside, own⟩

/-- A text between quotes. -/
def quoted (v rest : Bytes) : Bytes := 39 :: (v ++ 39 :: rest)

/-- A literal in front of a text. -/
theorem tokenize_quoted_iff {v rest : Bytes} {toks : List Token}
    (apart : ∀ c ∈ rest.head?, special c = false) :
    tokenize (quoted v rest) = some (.literal v :: toks) ↔
      plain v = true ∧ tokenize rest = some toks := by
  rw [quoted, tokenize, lex, scan_open, Option.map_eq_some_iff]
  constructor
  · rintro ⟨ls, scanned, same⟩
    obtain ⟨value, _, _, _, more, rfl, _⟩ := unquoted_of_scan scanned
    rw [List.nil_append, List.filterMap_cons] at same
    obtain ⟨own, rfl⟩ := List.cons.inj same
    cases own
    obtain ⟨ok, read⟩ := (scan_literal_iff apart).mp scanned
    exact ⟨ok, by rw [tokenize, lex, read]; rfl⟩
  · rintro ⟨ok, read⟩
    rw [tokenize, Option.map_eq_some_iff] at read
    obtain ⟨more, scanned, rfl⟩ := read
    exact ⟨.literal v :: more, (scan_literal_iff apart).mpr ⟨ok, scanned⟩, rfl⟩

/-- Two plain literals look the same from outside. -/
theorem outside_quoted {v w rest rest' : Bytes} (apart : ∀ c ∈ rest.head?, special c = false)
    (apart' : ∀ c ∈ rest'.head?, special c = false) (ok : plain v = true) (ok' : plain w = true)
    (same : outside rest = outside rest') : outside (quoted v rest) = outside (quoted w rest') := by
  have shown {v rest : Bytes} (apart : ∀ c ∈ rest.head?, special c = false)
      (ok : plain v = true) :
      outside (quoted v rest) = (outside rest).map (Lexeme.literal [] :: ·) := by
    have single : rest.head? ≠ some 39 := fun same => Bool.noConfusion (apart 39 same)
    rw [outside, quoted, lex, scan_open, scan_literal ok single, Option.map_map, outside, lex,
      Option.map_map]
    rfl
  rw [shown apart ok, shown apart' ok', same]

end Heracles.Base.Sql
