import Heracles.Connect.ConnPool
import Mathlib.Data.List.Nodup

/-!
Which connections are trimmed.

A connection is touched at a time of which it keeps the low 32 bits. The walk over
the idle connections is right: it examines each of them once and keeps the others
in order (`trimLoop_eq`). What it tests is not their age but the clock;
`trims_stale_iff` says when the two agree.
-/

namespace Heracles.Connect.ConnPool

open Heracles.Base

/-- What `ConnStat::touch` keeps of the time. -/
def lowWord (time : Int64) : UInt32 := time.toUInt64.toUInt32

/-- More than the linger time has gone since a connection was touched. -/
def Stale (touched now : Int64) (linger : UInt32) : Prop :=
  (linger.toNat : Int) < now.toInt - touched.toInt

instance instDecidableStale (touched now : Int64) (linger : UInt32) :
    Decidable (Stale touched now linger) :=
  inferInstanceAs (Decidable (_ < _))

/-- The idle connections with the turn of the loop at which each is examined. -/
def turns (pool : ConnPool) : List (ConnPtr × Nat) := pool.connsIdle.zipIdx 1

/-- The loop never finds that it has taken too long. -/
def Unbroken (elapseMs : Nat → Int64) : Prop :=
  ∀ count, count % 20 = 0 → ¬ 20 < elapseMs count

/-- The trimmed connections are those that are stale when they are examined; the
others stay in order, and so do the busy ones. -/
def OnlyStaleTrimmed (pool : ConnPool) (touched : ConnPtr → Int64) (now elapseMs : Nat → Int64) :
    Prop :=
  let trimmed := pool.doConnLingerTrim (fun conn => lowWord (touched conn)) now elapseMs
  trimmed.connsIdle =
      (pool.turns.filter fun turn =>
        ¬ Stale (touched turn.1) (now turn.2) pool.connTrimLinger).map Prod.fst ∧
    trimmed.connsBusy = pool.connsBusy

/-- The clock itself is beyond the linger time exactly for the stale connections. -/
def ClockAgrees (pool : ConnPool) (touched : ConnPtr → Int64) (now : Nat → Int64) : Prop :=
  ∀ turn ∈ pool.turns, pool.connTrimLinger < lowWord (now turn.2) ↔
    Stale (touched turn.1) (now turn.2) pool.connTrimLinger

instance instDecidableClockAgrees (pool : ConnPool) (touched : ConnPtr → Int64)
    (now : Nat → Int64) : Decidable (ClockAgrees pool touched now) :=
  inferInstanceAs (Decidable (∀ _ ∈ _, _))

/-- The loop without a break, turn by turn. -/
theorem trimLoop_eq {elapseMs : Nat → Int64} (unbroken : Unbroken elapseMs)
    (start : ConnPtr → UInt32) (linger : UInt32) (now : Nat → Int64) (count : Nat)
    (idle : List ConnPtr) :
    trimLoop start linger now elapseMs count idle =
      ((idle.zipIdx (count + 1)).filter fun turn =>
        ¬ expire (start turn.1) (now turn.2) linger).map Prod.fst := by
  induction idle generalizing count with
  | nil => rfl
  | cons conn rest ih =>
      have on : ¬ ((count + 1) % 20 = 0 ∧ 20 < elapseMs (count + 1)) :=
        fun ⟨twentieth, late⟩ => unbroken _ twentieth late
      simp only [trimLoop, if_neg on, ih, List.zipIdx_cons]
      cases expired : expire (start conn) (now (count + 1)) linger with
      | true => simp [expired]
      | false => simp [expired]

/-- Turns with different connections can be told apart by them. -/
theorem filter_eq_of_map_fst {turns : List (ConnPtr × Nat)} (distinct : (turns.map Prod.fst).Nodup)
    {p q : ConnPtr × Nat → Bool}
    (same : (turns.filter p).map Prod.fst = (turns.filter q).map Prod.fst) :
    ∀ turn ∈ turns, p turn = q turn := by
  intro turn member
  have listed (r : ConnPtr × Nat → Bool) :
      turn.1 ∈ (turns.filter r).map Prod.fst ↔ r turn = true := by
    constructor
    · intro inside
      obtain ⟨other, kept, equal⟩ := List.mem_map.mp inside
      obtain ⟨among, holds⟩ := List.mem_filter.mp kept
      rwa [← List.inj_on_of_nodup_map distinct among member equal]
    · intro holds
      exact List.mem_map_of_mem (List.mem_filter.mpr ⟨member, holds⟩)
  rw [Bool.eq_iff_iff, ← listed p, ← listed q, same]

theorem map_fst_turns (pool : ConnPool) : pool.turns.map Prod.fst = pool.connsIdle :=
  List.zipIdx_map_fst 1 pool.connsIdle

/-- A trim without a break removes exactly the stale connections if the clock is
beyond the linger time for these alone, and, the idle connections being different
ones, only then. -/
theorem trims_stale_iff (pool : ConnPool) (touched : ConnPtr → Int64)
    (now elapseMs : Nat → Int64) (unbroken : Unbroken elapseMs) :
    (ClockAgrees pool touched now → OnlyStaleTrimmed pool touched now elapseMs) ∧
      (pool.connsIdle.Nodup → OnlyStaleTrimmed pool touched now elapseMs →
        ClockAgrees pool touched now) := by
  have loop := trimLoop_eq unbroken (fun conn => lowWord (touched conn)) pool.connTrimLinger now 0
    pool.connsIdle
  constructor
  · intro agrees
    refine ⟨?_, rfl⟩
    rw [doConnLingerTrim, loop]
    refine congrArg _ (List.filter_congr fun turn member => ?_)
    have same := agrees turn member
    simp only [expire, decide_eq_true_eq, decide_not]
    exact congrArg Bool.not (decide_eq_decide.mpr same)
  · rintro distinct ⟨trimmed, _⟩ turn member
    rw [doConnLingerTrim, loop] at trimmed
    have same := filter_eq_of_map_fst
      (show ((pool.connsIdle.zipIdx 1).map Prod.fst).Nodup from (map_fst_turns pool).symm ▸ distinct)
      trimmed turn member
    simp only [expire, decide_eq_true_eq, decide_not] at same
    exact decide_eq_decide.mp (Bool.not_inj same)

/-- One idle connection and a linger time of a minute. -/
private def oneIdle : ConnPool := ⟨4, ∅, [1], ⟨0, 0⟩, 60⟩

private theorem unbroken_zero : Unbroken fun _ => 0 := fun _ _ late => by
  change (20 : Int64) < 0 at late
  exact absurd late (by decide)

/-- An hour after it was touched, it is trimmed. -/
theorem trims_stale_iff_hour :
    OnlyStaleTrimmed oneIdle (fun _ => 1550000000) (fun _ => 1550003600) (fun _ => 0) ∧
      ClockAgrees oneIdle (fun _ => 1550000000) (fun _ => 1550003600) :=
  have both := trims_stale_iff oneIdle (fun _ => 1550000000) (fun _ => 1550003600) (fun _ => 0)
    unbroken_zero
  have trimmed := both.1 (by decide +kernel)
  ⟨trimmed, both.2 (by decide) trimmed⟩

/-- A connection that was touched a second ago is trimmed. -/
theorem fresh_trimmed :
    ¬ ∀ (pool : ConnPool) (touched : ConnPtr → Int64) (now elapseMs : Nat → Int64),
      0 < pool.connTrimLinger → Unbroken elapseMs →
        OnlyStaleTrimmed pool touched now elapseMs := by
  intro always
  have trimmed := always oneIdle (fun _ => 1550000000) (fun _ => 1550000001) (fun _ => 0)
    (by decide) unbroken_zero
  exact absurd trimmed.1 (by decide +kernel)

end Heracles.Connect.ConnPool
