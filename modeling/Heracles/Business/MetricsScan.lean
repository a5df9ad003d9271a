import Heracles.Business.ServiceNames
import Heracles.Business.StoreKeys

/-!
The metrics of a database, found by jumping.

`select_metrics` does not read every key: behind a key of metric `m` it seeks to
`m$`, the first byte after `#`. What lies between starts with `m#` and has no
other metric, so a jump skips nothing that is not recorded, and it goes past the
key that was read. `metrics_exact`: the scan ends, with the first fields of all
readable keys.
-/

namespace Heracles.Business.StoreLevelDB

open Heracles.Base

/-- The loop of `select_metrics` over an iterator of a database: what is left of it,
`cached_metric` and `unique_metrics`. `none` if the fuel runs out while the
iterator is valid. -/
def metricsScan (db : Database) :
    Nat → List (Bytes × Bytes) → Bytes → OrdMap Bytes Unit → Option (OrdMap Bytes Unit)
  | _, [], _, uniqueMetrics => some uniqueMetrics
  | 0, _ :: _, _, _ => none
  | fuel + 1, (strKey, _) :: rest, cachedMetric, uniqueMetrics =>
      match splitKey strKey with
      | none => metricsScan db fuel rest cachedMetric uniqueMetrics
      | some vec =>
          let (cachedMetric, uniqueMetrics) :=
            if cachedMetric ≠ vec.metric then (vec.metric, uniqueMetrics.insert vec.metric ())
            else (cachedMetric, uniqueMetrics)
          metricsScan db fuel (db.seek (cachedMetric ++ bytes "$")) cachedMetric uniqueMetrics

/-- The metric of a readable key. -/
def metricOf (key : Bytes) : Option Bytes := (splitKey key).map KeyFields.metric

theorem metricOf_of_split {key : Bytes} {vec : KeyFields} (split : splitKey key = some vec) :
    metricOf key = some vec.metric := by
  rw [metricOf, split]
  rfl

theorem metricOf_eq_some {key metric : Bytes} :
    metricOf key = some metric ↔ ∃ time tag entityIdx,
      key.splitOn 35 = [metric, time, tag, entityIdx] ∧ metric ≠ [] ∧ time ≠ [] ∧ tag ≠ [] := by
  unfold metricOf splitKey
  constructor
  · intro found
    split at found
    · rename_i first time tag entityIdx fields
      by_cases missing : first = [] ∨ time = [] ∨ tag = []
      · rw [if_pos missing] at found
        cases found
      · rw [if_neg missing] at found
        obtain rfl := Option.some.inj found
        push Not at missing
        exact ⟨time, tag, entityIdx, fields, missing⟩
    · cases found
  · rintro ⟨time, tag, entityIdx, fields, some⟩
    rw [fields]
    have present : ¬(metric = [] ∨ time = [] ∨ tag = []) := by
      push Not
      exact some
    simp only [present, if_false, Option.map_some]

/-! ### A jump -/

section Jump

variable {key metric : Bytes}

/-- A readable key is its metric, a `#` and the rest. -/
theorem shape_of_metricOf (found : metricOf key = some metric) :
    ∃ tail, key = metric ++ 35 :: tail ∧ 35 ∉ metric := by
  obtain ⟨time, tag, entityIdx, fields, _⟩ := metricOf_eq_some.mp found
  obtain ⟨tail, shape, plain, _⟩ := eq_append_of_splitOn fields
  exact ⟨tail, shape, plain⟩

/-- The target of the jump is above the key. -/
theorem lt_jump (found : metricOf key = some metric) : key < metric ++ bytes "$" := by
  obtain ⟨tail, shape, _⟩ := shape_of_metricOf found
  rw [shape]
  exact append_cons_lt_append_cons metric tail [] (by decide)

/-- Whatever the jump skips has the same metric or none. -/
theorem metric_of_skipped (found : metricOf key = some metric) {other otherMetric : Bytes}
    (after : key < other) (before : other < metric ++ bytes "$")
    (skipped : metricOf other = some otherMetric) : otherMetric = metric := by
  obtain ⟨tail, shape, plain⟩ := shape_of_metricOf found
  obtain ⟨otherTail, otherShape, otherPlain⟩ := shape_of_metricOf skipped
  have lower : ¬ other < metric ++ [35] := by
    intro less
    refine not_append_lt (metric ++ [35]) tail ?_
    rw [List.append_assoc, List.singleton_append, ← shape]
    exact after.trans less
  obtain ⟨rest, whole⟩ := prefix_of_between hash_covBy_dollar lower before
  rw [otherShape, List.append_assoc, List.singleton_append] at whole
  have fields := congrArg (List.splitOn 35) whole
  rw [List.splitOn_append_cons_self_of_not_mem plain,
    List.splitOn_append_cons_self_of_not_mem otherPlain] at fields
  exact (List.cons.inj fields).1.symm

end Jump

/-! ### The scan -/

/-- The metrics of the readable keys of entries. -/
def metricsIn (entries : List (Bytes × Bytes)) : List Bytes :=
  entries.filterMap fun e => metricOf e.1

section Scan

variable {db : Database} {before rest : List (Bytes × Bytes)} {key val metric : Bytes}

theorem metricsIn_cons (e : Bytes × Bytes) (name : Bytes) :
    name ∈ metricsIn (e :: rest) ↔ metricOf e.1 = some name ∨ name ∈ metricsIn rest := by
  simp only [metricsIn, List.mem_filterMap, List.mem_cons, exists_eq_or_imp]

/-- A jump goes on behind the entry that was read. -/
theorem jump_forward (entries : db.entries = before ++ (key, val) :: rest)
    (found : metricOf key = some metric) :
    (db.seek (metric ++ bytes "$")).Sublist rest ∧
      ∀ e ∈ rest, e ∈ db.seek (metric ++ bytes "$") ∨ e.1 < metric ++ bytes "$" := by
  have sorted := db.sorted
  rw [entries, List.pairwise_append] at sorted
  obtain ⟨_, _, apart⟩ := sorted
  have whole : db.entries = (before ++ [(key, val)]) ++ rest := by
    rw [entries, List.append_assoc, List.singleton_append]
  refine OrdMap.seek_append whole fun e member => ?_
  rcases List.mem_append.mp member with early | here
  · exact (apart e early _ List.mem_cons_self).trans (lt_jump found)
  · rw [List.mem_singleton.mp here]
    exact lt_jump found

/-- A jump lands behind the key, and what it skips behind the key has no other
metric. -/
theorem jump_skips_nothing (stored : key ∈ db.keys) (found : metricOf key = some metric) :
    (∀ e ∈ db.seek (metric ++ bytes "$"), key < e.1) ∧
      ∀ e ∈ db.entries, key < e.1 → e ∉ db.seek (metric ++ bytes "$") →
        ∀ other, metricOf e.1 = some other → other = metric := by
  obtain ⟨⟨_, val⟩, inside, rfl⟩ := List.mem_map.mp stored
  obtain ⟨before, rest, entries⟩ := List.append_of_mem inside
  have sorted := db.sorted
  rw [entries, List.pairwise_append] at sorted
  obtain ⟨forward, skips⟩ := jump_forward entries found
  constructor
  · intro e landed
    exact (List.pairwise_cons.mp sorted.2.1).1 e (forward.subset landed)
  · intro e listed behind missed other has
    rw [entries] at listed
    rcases List.mem_append.mp listed with early | late
    · exact absurd behind (lt_asymm (sorted.2.2 e early _ List.mem_cons_self))
    · rcases List.mem_cons.mp late with rfl | later
      · exact absurd behind (lt_irrefl _)
      · exact metric_of_skipped found behind ((skips e later).resolve_left missed) has

/-- The metrics from an entry on are its own and those behind the jump. -/
theorem mem_metricsIn_jump (entries : db.entries = before ++ (key, val) :: rest)
    (found : metricOf key = some metric) (name : Bytes) :
    name ∈ metricsIn ((key, val) :: rest) ↔
      name = metric ∨ name ∈ metricsIn (db.seek (metric ++ bytes "$")) := by
  have sorted := db.sorted
  rw [entries, List.pairwise_append] at sorted
  have later := (List.pairwise_cons.mp sorted.2.1).1
  obtain ⟨forward, skips⟩ := jump_forward entries found
  rw [metricsIn_cons, found, Option.some.injEq, eq_comm]
  refine or_congr_right' fun other => ?_
  simp only [metricsIn, List.mem_filterMap]
  constructor
  · rintro ⟨e, member, has⟩
    rcases skips e member with kept | skipped
    · exact ⟨e, kept, has⟩
    · exact absurd (metric_of_skipped found (later e member) skipped has) other
  · rintro ⟨e, member, has⟩
    exact ⟨e, forward.subset member, has⟩

/-- Whether or not the metric was cached, it is recorded afterwards. -/
theorem record_metric {cachedMetric : Bytes} {uniqueMetrics : OrdMap Bytes Unit}
    (nonempty : metric ≠ []) (cached : cachedMetric = [] ∨ cachedMetric ∈ uniqueMetrics.keys) :
    ∃ recorded : OrdMap Bytes Unit,
      (if cachedMetric ≠ metric then (metric, uniqueMetrics.insert metric ())
        else (cachedMetric, uniqueMetrics)) = (metric, recorded) ∧
      ∀ name, name ∈ recorded.keys ↔ name = metric ∨ name ∈ uniqueMetrics.keys := by
  by_cases same : cachedMetric = metric
  · refine ⟨uniqueMetrics, by rw [if_neg (not_not.mpr same), same], fun name => ?_⟩
    have present : metric ∈ uniqueMetrics.keys := by
      rcases cached with empty | present
      · exact absurd (same.symm.trans empty) nonempty
      · rwa [same] at present
    exact ⟨.inr, fun either => either.elim (fun here => here ▸ present) id⟩
  · exact ⟨_, if_pos same, fun name => OrdMap.mem_keys_insert⟩

/-- With as much fuel as entries are left, the loop ends, and it has added their
metrics. -/
theorem metricsScan_spec {fuel : Nat} {it : List (Bytes × Bytes)} {cachedMetric : Bytes}
    {uniqueMetrics : OrdMap Bytes Unit} (onDb : it <:+ db.entries) (enough : it.length ≤ fuel)
    (cached : cachedMetric = [] ∨ cachedMetric ∈ uniqueMetrics.keys) :
    ∃ found, metricsScan db fuel it cachedMetric uniqueMetrics = some found ∧
      ∀ name, name ∈ found.keys ↔ name ∈ uniqueMetrics.keys ∨ name ∈ metricsIn it := by
  induction fuel generalizing it cachedMetric uniqueMetrics with
  | zero =>
      obtain rfl := List.length_eq_zero_iff.mp (Nat.le_zero.mp enough)
      exact ⟨uniqueMetrics, rfl, fun name => by simp [metricsIn]⟩
  | succ fuel ih =>
      cases it with
      | nil => exact ⟨uniqueMetrics, rfl, fun name => by simp [metricsIn]⟩
      | cons e rest =>
          obtain ⟨strKey, val⟩ := e
          obtain ⟨before, entries⟩ := onDb
          have short : rest.length ≤ fuel := Nat.le_of_succ_le_succ enough
          rw [metricsScan]
          cases split : splitKey strKey with
          | none =>
              have unreadable : metricOf strKey = none := by
                rw [metricOf, split]
                rfl
              have onDb : rest <:+ db.entries := ⟨before ++ [(strKey, val)], by
                rw [List.append_assoc, List.singleton_append, entries]⟩
              obtain ⟨found, result, members⟩ := ih onDb short cached
              refine ⟨found, result, fun name => ?_⟩
              rw [members, metricsIn_cons, unreadable]
              simp only [reduceCtorEq, false_or]
          | some vec =>
              have readable := metricOf_of_split split
              obtain ⟨_, _, _, _, nonempty, _⟩ := metricOf_eq_some.mp readable
              obtain ⟨recorded, taken, keys⟩ := record_metric nonempty cached
              simp only [taken]
              obtain ⟨forward, _⟩ := jump_forward entries.symm readable
              have onDb : db.seek (vec.metric ++ bytes "$") <:+ db.entries :=
                List.dropWhile_suffix _
              obtain ⟨found, result, members⟩ := ih onDb (forward.length_le.trans short)
                (.inr ((keys vec.metric).mpr (.inl rfl)))
              refine ⟨found, result, fun name => ?_⟩
              rw [members, keys, mem_metricsIn_jump entries.symm readable]
              tauto

end Scan

/-- The single pass of `metricsLoop` finds the metrics too, with a target those from
the target on. -/
theorem mem_metricsLoop {it : List (Bytes × Bytes)} (sorted : it.Pairwise fun a b => a.1 < b.1)
    (name : Bytes) :
    (name ∈ metricsLoop none it ↔ name ∈ metricsIn it) ∧
      ∀ target, name ∈ metricsLoop (some target) it ↔
        ∃ e ∈ it, ¬ e.1 < target ∧ metricOf e.1 = some name := by
  induction it with
  | nil => exact ⟨by simp [metricsLoop, metricsIn], fun target => by simp [metricsLoop]⟩
  | cons e rest ih =>
      obtain ⟨strKey, val⟩ := e
      obtain ⟨later, sortedRest⟩ := List.pairwise_cons.mp sorted
      obtain ⟨plain, jumping⟩ := ih sortedRest
      have reading : name ∈ metricsLoop none ((strKey, val) :: rest) ↔
          name ∈ metricsIn ((strKey, val) :: rest) := by
        rw [metricsIn_cons, metricsLoop]
        cases split : splitKey strKey with
        | none => simp only [metricOf, split, Option.map_none, reduceCtorEq, false_or, plain]
        | some vec =>
            have readable := metricOf_of_split split
            rw [readable, Option.some.injEq, List.mem_cons, jumping, eq_comm]
            refine or_congr_right' fun other => ?_
            simp only [metricsIn, List.mem_filterMap]
            constructor
            · rintro ⟨e, member, _, has⟩
              exact ⟨e, member, has⟩
            · rintro ⟨e, member, has⟩
              refine ⟨e, member, fun skipped => ?_, has⟩
              exact other (metric_of_skipped readable (later e member) skipped has).symm
      refine ⟨reading, fun target => ?_⟩
      by_cases below : strKey < target
      · rw [metricsLoop, if_pos below, jumping]
        simp only [List.mem_cons, exists_eq_or_imp, below, not_true_eq_false, false_and, false_or]
      · have same : metricsLoop (some target) ((strKey, val) :: rest) =
            metricsLoop none ((strKey, val) :: rest) := by
          rw [metricsLoop, if_neg below, metricsLoop]
        rw [same, reading]
        simp only [metricsIn, List.mem_filterMap]
        have above : ∀ e ∈ (strKey, val) :: rest, ¬ e.1 < target := by
          intro e member
          rcases List.mem_cons.mp member with rfl | inside
          · exact below
          · exact fun less => below ((later e inside).trans less)
        exact exists_congr fun e => and_congr_right fun member => (and_iff_right (above e member)).symm

/-- A scan of the metrics of a database that can be opened ends, whatever its keys
are, with the first fields of the keys that have four fields, the first three of
them not empty, in order and without repetition. A jump lands behind the key that
was read, and no key before that and behind it has another metric. -/
theorem metrics_exact (s : StoreLevelDB) (env : LeveldbEnv) (service : Bytes) {path : Bytes}
    (opened : (s.getLeveldbHandler env service).1 = some path) :
    let after := (s.getLeveldbHandler env service).2
    let db := after.content path
    ∃ metrics, s.selectMetrics env service = (0, metrics, after) ∧
      (metricsScan db db.entries.length db.entries [] .empty).map OrdMap.keys = some metrics ∧
      metrics.Pairwise (· < ·) ∧
      (∀ name, name ∈ metrics ↔ ∃ key ∈ db.keys, ∃ time tag entityIdx,
        key.splitOn 35 = [name, time, tag, entityIdx] ∧ name ≠ [] ∧ time ≠ [] ∧ tag ≠ []) ∧
      ∀ key ∈ db.keys, ∀ metric, metricOf key = some metric →
        (∀ e ∈ db.seek (metric ++ bytes "$"), key < e.1) ∧
        ∀ e ∈ db.entries, key < e.1 → e ∉ db.seek (metric ++ bytes "$") →
          ∀ other, metricOf e.1 = some other → other = metric := by
  intro after db
  have named : service ≠ [] := by
    rintro rfl
    cases opened
  have members (name : Bytes) : name ∈ metricsIn db.entries ↔ ∃ key ∈ db.keys,
      ∃ time tag entityIdx, key.splitOn 35 = [name, time, tag, entityIdx] ∧
        name ≠ [] ∧ time ≠ [] ∧ tag ≠ [] := by
    simp only [metricsIn, List.mem_filterMap, metricOf_eq_some, OrdMap.keys, List.mem_map,
      exists_exists_and_eq_and]
  obtain ⟨unique, result, found⟩ := @metricsScan_spec db db.entries.length db.entries [] .empty
    (List.suffix_refl _) le_rfl (.inl rfl)
  have empty : (OrdMap.empty : OrdMap Bytes Unit).keys = [] := rfl
  simp only [empty, List.not_mem_nil, false_or] at found
  have keys : uniqueStore (metricsLoop none db.entries) = unique.keys := by
    rw [uniqueStore, OrdMap.keys_eq_iff]
    intro name
    rw [found, ← (mem_metricsLoop db.sorted name).1]
    exact mem_uniqueStore
  refine ⟨unique.keys, ?_, ?_, ?_, fun name => (found name).trans (members name), ?_⟩
  · rw [selectMetrics, if_neg named, ← keys]
    cases got : s.getLeveldbHandler env service with
    | mk handler t =>
        have handler_eq : handler = some path := by
          rw [got] at opened
          exact opened
        have after_eq : after = t := congrArg Prod.snd got
        simp only [handler_eq, db, after_eq]
  · rw [result]
    rfl
  · exact List.pairwise_map.mpr unique.sorted
  · exact fun key member metric readable => jump_skips_nothing member readable

/-- A store whose database has a metric that is a prefix of another, one that
contains `$`, and keys of other shapes. -/
private def mixed : StoreLevelDB :=
  ["m#1#a#", "m#2#b#x", "m$#1#a#", "m", "m#", "m#1##", "mm#1#a#", "#1#a#", "m#1#a#b#c"].foldl
    (fun s key => s.put ((init (bytes "db") (bytes "t")).fullpath (bytes "svc") (bytes "202401"))
      (bytes key) []) (init (bytes "db") (bytes "t"))

theorem metrics_exact_mixed :
    let env : LeveldbEnv := ⟨fun _ => ⟨124, 0⟩, 1704067200, true, true⟩
    (mixed.getLeveldbHandler env (bytes "svc")).1 =
        some ((init (bytes "db") (bytes "t")).fullpath (bytes "svc") (bytes "202401")) ∧
      ∃ metrics, (mixed.selectMetrics env (bytes "svc")).2.1 = metrics ∧
        bytes "m$" ∈ metrics := by
  intro env
  have opened : (mixed.getLeveldbHandler env (bytes "svc")).1 =
      some ((init (bytes "db") (bytes "t")).fullpath (bytes "svc") (bytes "202401")) := by
    decide +kernel
  obtain ⟨metrics, result, _, _, members, _⟩ := metrics_exact mixed env (bytes "svc") opened
  refine ⟨opened, metrics, by rw [result], (members _).mpr ?_⟩
  exact ⟨bytes "m$#1#a#", by decide +kernel, bytes "1", bytes "a", [], by decide +kernel,
    by decide, by decide, by decide⟩

end Heracles.Business.StoreLevelDB
