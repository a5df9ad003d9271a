import Heracles.Business.StoreSql

/-!
Ordering and limit in the MySQL store.

A grouped query that asks for an order wants all its groups when the limit is
zero, and the first ones in that order when it is positive (`KeepsGroups`). The
store sorts and cuts exactly when it should not: with a limit it returns all rows
as they came, without one it cuts them down to none. `keeps_groups_iff` says which
result sets come out right all the same.
-/

namespace Heracles.Business.StoreSql

open Heracles.Base

/-- The returned lines are those of the groups that were asked for: all of them
without a limit, and the first `limit` in the requested order otherwise. -/
def KeepsGroups (cond : EventCond) (groups info : List EventInfo) : Prop :=
  ∃ omitted, (info ++ omitted).Perm groups ∧
    (cond.limit = 0 → omitted = []) ∧
    (0 < cond.limit →
      info.length = min cond.limit.toInt.toNat groups.length ∧
        Sort.InOrder cond.orderby cond.orders info ∧
        ∀ left ∈ omitted, ∀ returned ∈ info,
          Sort.precedes cond.orderby cond.orders left returned = false)

/-- The result set comes out right. -/
structure AlreadyRight (cond : EventCond) (groups : List EventInfo) : Prop where
  unlimited : cond.limit = 0 → groups = []
  limited : 0 < cond.limit → (groups.length : Int) ≤ cond.limit.toInt ∧
    Sort.InOrder cond.orderby cond.orders groups

/-- What the store returns: nothing without a limit, and everything in the order
of the rows with one. -/
theorem info_selectEvStat (s : StoreSql) {server : SqlServer} {localtime : Localtime}
    (stdSort : (EventInfo → EventInfo → Bool) → List EventInfo → List EventInfo) {now : Int64}
    {cond : EventCond} {lingerHint : Int64} {tables : Tables} {rows : List ResultRow}
    (answered : server.query (s.buildSql localtime cond
      (StoreLevelDB.effectiveStart now lingerHint cond)).text tables = some rows)
    (grouped : cond.groupby ≠ .none) (ordered : cond.orderby ≠ .none) :
    (s.selectEvStat server localtime true stdSort now cond .zero lingerHint tables).2.info =
      if cond.limit = 0 then [] else rows.map (itemOf cond.groupby) := by
  have start : EventSelect.zero.info = [] := rfl
  unfold selectEvStat
  simp only [not_true_eq_false, if_false, answered]
  cases rows with
  | nil => simp only [start, List.map_nil, ite_self]
  | cons row rows =>
      simp only [grouped, if_false, ordered, false_or]
      by_cases unlimited : cond.limit = 0
      · have none : sizeOfInt cond.limit = 0 := by
          rw [unlimited]
          rfl
        simp only [unlimited, ne_eq, not_true, if_false, if_true] at none ⊢
        rw [none]
        split
        · exact List.take_zero
        · rename_i empty
          exact List.length_eq_zero_iff.mp (Nat.eq_zero_of_not_pos empty)
      · simp only [ne_eq, unlimited, not_false_eq_true, if_true, if_false, start, List.nil_append]

/-- A result set is ordered and cut as asked exactly when it comes out right
already: an empty one without a limit, and with a limit one of at most that many
rows in the requested order. -/
theorem keeps_groups_iff (s : StoreSql) (server : SqlServer) (localtime : Localtime)
    (stdSort : (EventInfo → EventInfo → Bool) → List EventInfo → List EventInfo) (now : Int64)
    (cond : EventCond) (lingerHint : Int64) (tables : Tables) (rows : List ResultRow)
    (answered : server.query (s.buildSql localtime cond
      (StoreLevelDB.effectiveStart now lingerHint cond)).text tables = some rows)
    (grouped : cond.groupby ≠ .none) (ordered : cond.orderby ≠ .none) :
    KeepsGroups cond (rows.map (itemOf cond.groupby))
        (s.selectEvStat server localtime true stdSort now cond .zero lingerHint tables).2.info ↔
      AlreadyRight cond (rows.map (itemOf cond.groupby)) := by
  rw [info_selectEvStat s stdSort answered grouped ordered]
  set groups := rows.map (itemOf cond.groupby)
  by_cases unlimited : cond.limit = 0
  · have notLimited : ¬ 0 < cond.limit := by
      rw [unlimited]
      exact lt_irrefl 0
    rw [if_pos unlimited]
    constructor
    · rintro ⟨omitted, perm, all, _⟩
      refine ⟨fun _ => ?_, fun limited => absurd limited notLimited⟩
      rw [all unlimited] at perm
      exact perm.nil_eq.symm
    · rintro ⟨none, _⟩
      refine ⟨[], ?_, fun _ => rfl, fun limited => absurd limited notLimited⟩
      rw [none unlimited, List.append_nil]
  · rw [if_neg unlimited]
    constructor
    · rintro ⟨omitted, _, _, first⟩
      refine ⟨fun none => absurd none unlimited, fun limited => ?_⟩
      obtain ⟨length, inOrder, _⟩ := first limited
      have positive : 0 < cond.limit.toInt := Int32.lt_iff_toInt_lt.mp limited
      exact ⟨by omega, inOrder⟩
    · rintro ⟨_, right⟩
      refine ⟨[], ?_, fun _ => rfl, fun limited => ?_⟩
      · rw [List.append_nil]
      · obtain ⟨few, inOrder⟩ := right limited
        exact ⟨by omega, inOrder, fun left member => absurd member List.not_mem_nil⟩

private def twoGroups : List ResultRow :=
  [⟨3, 30, 10, 10, 10, 10, 10, 0, bytes "a"⟩, ⟨2, 20, 10, 10, 10, 10, 10, 0, bytes "b"⟩]

private def groupServer : SqlServer := ⟨fun _ tables => (-1, tables), fun _ _ => some twoGroups⟩

/-- A query for the groups by tag, by descending count. -/
private def byCount (limit : Int32) : EventCond :=
  ⟨60, bytes "svc", bytes "m", 0, [], [], .byTag, .count, .desc, limit⟩

theorem keeps_groups_iff_two :
    KeepsGroups (byCount 2) (twoGroups.map (itemOf .byTag))
        ((StoreSql.mk (bytes "db") (bytes "t")).selectEvStat groupServer (fun _ => ⟨119, 1⟩) true
          (fun _ l => l) 1550000100 (byCount 2) .zero 10 .empty).2.info ↔
      AlreadyRight (byCount 2) (twoGroups.map (itemOf .byTag)) :=
  keeps_groups_iff ⟨bytes "db", bytes "t"⟩ groupServer (fun _ => ⟨119, 1⟩) (fun _ l => l)
    1550000100 (byCount 2) 10 .empty twoGroups rfl (by decide) (by decide)

/-- Without a limit the two groups are lost. -/
theorem unlimited_lost :
    ¬ ∀ (s : StoreSql) (server : SqlServer) (localtime : Localtime)
      (stdSort : (EventInfo → EventInfo → Bool) → List EventInfo → List EventInfo) (now : Int64)
      (cond : EventCond) (lingerHint : Int64) (tables : Tables) (rows : List ResultRow),
      server.query (s.buildSql localtime cond
        (StoreLevelDB.effectiveStart now lingerHint cond)).text tables = some rows →
      cond.groupby ≠ .none → cond.orderby ≠ .none →
      KeepsGroups cond (rows.map (itemOf cond.groupby))
        (s.selectEvStat server localtime true stdSort now cond .zero lingerHint tables).2.info := by
  intro always
  obtain ⟨omitted, perm, all, _⟩ := always ⟨bytes "db", bytes "t"⟩ groupServer (fun _ => ⟨119, 1⟩)
    (fun _ l => l) 1550000100 (byCount 0) 10 .empty twoGroups rfl (by decide) (by decide)
  have answered : groupServer.query (StoreSql.buildSql ⟨bytes "db", bytes "t"⟩ (fun _ => ⟨119, 1⟩)
      (byCount 0) (StoreLevelDB.effectiveStart 1550000100 10 (byCount 0))).text .empty =
    some twoGroups := rfl
  rw [all rfl, info_selectEvStat _ _ answered (by decide) (by decide)] at perm
  exact absurd perm.length_eq (by decide)

end Heracles.Business.StoreSql
