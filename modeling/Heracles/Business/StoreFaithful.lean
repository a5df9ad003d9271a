import Heracles.Business.ScanExact

/-!
Which records the LevelDB store can give back.

A key is made from arbitrary strings: each is cut at its first zero byte, the
text is cut at 4095 bytes, and nothing keeps `#` out of the fields. `Counted`
says which keys an ungrouped query counts. `KeysFaithful` is the exact condition
on the keys of the inserted records under which a query returns the sum of the
counts of its metric, whatever the counts are (`count_exact_iff`): a record is
counted and not overwritten exactly when its metric is the one asked for.
-/

namespace Heracles.Business.StoreLevelDB

open Heracles.Base

/-! ### Sums of counts -/

/-- The sum of the counts of records, as an integer. -/
def countSum (records : List EventInsert) : Int := (records.map fun r => r.count.toInt).sum

theorem countSum_perm {a b : List EventInsert} (perm : a.Perm b) : countSum a = countSum b :=
  (perm.map _).sum_eq

/-! ### What an ungrouped query counts -/

section Counting

variable (cond : EventCond) (stat : EventSelect)

/-- The keys an unfiltered query counts: those between its bounds that split
into four fields, the first three not empty. -/
def Counted (key : Bytes) : Prop := InWindow cond stat key ∧ (splitKey key).isSome

instance (key : Bytes) : Decidable (Counted cond stat key) := inferInstanceAs (Decidable (_ ∧ _))

/-- A record has the metric asked for exactly when the query consults the
database of the records (`here`), its key is counted and no later record has
the same key. -/
def KeysFaithful (here : Prop) (records : List EventInsert) : Prop :=
  ∀ record ∈ records, record.metric = cond.metric ↔
    here ∧ Counted cond stat (cstrKey record) ∧ record ∈ lasts cstrKey records

instance (here : Prop) [Decidable here] (records : List EventInsert) :
    Decidable (KeysFaithful cond stat here records) := inferInstanceAs (Decidable (∀ _ ∈ _, _))

variable {cond stat}

theorem readEntry_unfiltered (tag : cond.tag = []) (entityIdx : cond.entityIdx = []) (key : Bytes)
    (record : EventInsert) : readEntry cond key (layout record).toBytes =
      (splitKey key).map fun vec => (vec, layout record) := by
  have marked : ¬ (layout record).toBytes.getD 0 0 ≠ 68 := fun other => other rfl
  unfold readEntry
  cases splitKey key with
  | none => rfl
  | some vec =>
      simp only [tag, entityIdx, ne_eq, not_true_eq_false, false_and, ↓reduceIte,
        LeveldbInternalLayout.length_toBytes, false_or, Option.map_some]
      rw [if_neg marked, LeveldbInternalLayout.ofBytes_toBytes]

/-- The counts a scan adds up are those of the last records under counted keys. -/
theorem scan_countSum (tag : cond.tag = []) (entityIdx : cond.entityIdx = [])
    (records : List EventInsert) :
    ((scan (withRecords .empty records) cond stat).map fun entry => entry.2.count.toInt).sum =
      countSum ((lasts cstrKey records).filter fun record =>
        decide (Counted cond stat (cstrKey record))) := by
  have entries := OrdMap.entries_insertAll_perm cstrKey (fun stat => (layout stat).toBytes) records
  have each (record : EventInsert) :
      ((if InWindow cond stat (cstrKey record) then
        readEntry cond (cstrKey record) (layout record).toBytes else none).map
          fun entry => entry.2.count.toInt) =
        if Counted cond stat (cstrKey record) then some record.count.toInt else none := by
    rw [readEntry_unfiltered tag entityIdx]
    by_cases inside : InWindow cond stat (cstrKey record)
    · rw [if_pos inside]
      cases fields : splitKey (cstrKey record) with
      | none =>
          have uncounted : ¬ Counted cond stat (cstrKey record) := fun counted => by
            simpa [fields] using counted.2
          rw [if_neg uncounted]
          rfl
      | some vec =>
          have counted : Counted cond stat (cstrKey record) := ⟨inside, by rw [fields]; rfl⟩
          rw [if_pos counted]
          rfl
    · rw [if_neg inside, if_neg fun counted : Counted cond stat (cstrKey record) => inside counted.1]
      rfl
  have scanned (l : List EventInsert) :
      ((((l.map fun r => (cstrKey r, (layout r).toBytes)).filter fun e =>
        decide (InWindow cond stat e.1)).filterMap fun e => readEntry cond e.1 e.2).map
          fun entry => entry.2.count.toInt) =
        (l.filter fun record => decide (Counted cond stat (cstrKey record))).map
          fun r => r.count.toInt := by
    rw [List.filterMap_filter, List.filterMap_map, List.map_filterMap, ← List.filterMap_eq_map,
      List.filterMap_filter]
    refine List.filterMap_congr fun record _ => ?_
    simp only [Function.comp_apply, decide_eq_true_eq]
    exact each record
  rw [scan_eq_filterMap, countSum, ← scanned]
  refine (List.Perm.map _ (List.Perm.filterMap _ (List.Perm.filter _ ?_))).sum_eq
  exact entries

/-- The records counted are those of the metric. -/
theorem KeysFaithful.filter_perm {here : Prop} (present : here) {records : List EventInsert}
    (distinct : records.Nodup) (faithful : KeysFaithful cond stat here records) :
    ((lasts cstrKey records).filter fun record =>
      decide (Counted cond stat (cstrKey record))).Perm
      (records.filter fun record => decide (record.metric = cond.metric)) := by
  refine (List.perm_ext_iff_of_nodup ((distinct.sublist (lasts_sublist records)).filter _)
    (distinct.filter _)).mpr fun record => ?_
  simp only [List.mem_filter, decide_eq_true_eq]
  constructor
  · rintro ⟨last, counted⟩
    have member := (lasts_sublist records).subset last
    exact ⟨member, (faithful record member).mpr ⟨present, counted, last⟩⟩
  · rintro ⟨member, asked⟩
    obtain ⟨_, counted, last⟩ := (faithful record member).mp asked
    exact ⟨last, counted⟩

theorem KeysFaithful.filter_eq_nil {here : Prop} (absent : ¬ here) {records : List EventInsert}
    (faithful : KeysFaithful cond stat here records) :
    (records.filter fun record => decide (record.metric = cond.metric)) = [] := by
  refine List.filter_eq_nil_iff.mpr fun record member => ?_
  rw [decide_eq_true_iff]
  exact fun asked => absent ((faithful record member).mp asked).1

end Counting

/-! ### Inserts with other counts -/

/-- The call with another count in its record. -/
def recount (f : EventInsert → Int32) (call : InsertCall) : InsertCall :=
  (call.1, { call.2 with count := f call.2 })

/-- The same open handlers, whatever the databases hold. -/
structure SameHandlers (s t : StoreLevelDB) : Prop where
  filepath : t.filepath = s.filepath
  tablePrefix : t.tablePrefix = s.tablePrefix
  levelDBs : t.levelDBs = s.levelDBs

theorem SameHandlers.getLeveldbHandler {s t : StoreLevelDB} (same : SameHandlers s t)
    (env : LeveldbEnv) (service : Bytes) :
    (t.getLeveldbHandler env service).1 = (s.getLeveldbHandler env service).1 ∧
      SameHandlers (s.getLeveldbHandler env service).2 (t.getLeveldbHandler env service).2 := by
  have path : ∀ suffix, t.fullpath service suffix = s.fullpath service suffix := by
    intro suffix
    rw [fullpath, fullpath, same.filepath, same.tablePrefix]
  have created (suffix : Bytes) : (t.createHandler env service suffix).1 =
      (s.createHandler env service suffix).1 ∧
      SameHandlers (s.createHandler env service suffix).2
        (t.createHandler env service suffix).2 := by
    unfold createHandler
    rw [path suffix]
    cases env.openOk with
    | false => exact ⟨rfl, same⟩
    | true => exact ⟨rfl, same.filepath, same.tablePrefix, by simp [same.levelDBs]⟩
  unfold StoreLevelDB.getLeveldbHandler
  split
  · exact ⟨rfl, same⟩
  · dsimp only
    rw [same.levelDBs]
    split
    · split
      · exact ⟨rfl, same⟩
      · exact created env.month
    · exact created env.month

theorem SameHandlers.insertEvStat {s t : StoreLevelDB} (same : SameHandlers s t)
    (f : EventInsert → Int32) (call : InsertCall) :
    (Stored s call → Stored t (recount f call)) ∧
      SameHandlers (insertStep s call) (insertStep t (recount f call)) := by
  obtain ⟨env, stat⟩ := call
  obtain ⟨sameHandler, sameState⟩ := same.getLeveldbHandler env stat.service
  unfold Stored insertStep recount StoreLevelDB.insertEvStat
  dsimp only
  split
  · exact ⟨id, same⟩
  · revert sameHandler sameState
    generalize s.getLeveldbHandler env stat.service = gotS
    generalize t.getLeveldbHandler env stat.service = gotT
    obtain ⟨pathS, s'⟩ := gotS
    obtain ⟨pathT, t'⟩ := gotT
    rintro rfl sameState
    cases pathT with
    | none => exact ⟨id, sameState⟩
    | some path =>
        cases env.putOk with
        | false => exact ⟨id, sameState⟩
        | true => exact ⟨id, sameState.filepath, sameState.tablePrefix, sameState.levelDBs⟩

/-- Whether calls return 0 does not depend on the counts. -/
theorem stored_recount {s t : StoreLevelDB} (same : SameHandlers s t) (f : EventInsert → Int32)
    {calls : List InsertCall} (stored : Along insertStep Stored s calls) :
    Along insertStep Stored t (calls.map (recount f)) := by
  induction calls generalizing s t with
  | nil => trivial
  | cons call calls ih =>
      obtain ⟨head, rest⟩ := same.insertEvStat f call
      exact ⟨head stored.1, ih rest stored.2⟩

/-- All counts 0 but that of one record. -/
def countOnly (chosen : EventInsert) (record : EventInsert) : Int32 :=
  if record = chosen then 1 else 0

theorem countSum_countOnly (chosen : EventInsert) {l : List EventInsert} (distinct : l.Nodup) :
    countSum (l.map fun record => { record with count := countOnly chosen record }) =
      if chosen ∈ l then 1 else 0 := by
  induction l with
  | nil => rfl
  | cons record l ih =>
      obtain ⟨fresh, rest⟩ := List.nodup_cons.mp distinct
      have tail := ih rest
      rw [countSum] at tail
      rw [countSum, List.map_cons, List.map_cons, List.sum_cons, tail]
      by_cases here : record = chosen
      · subst here
        simp [countOnly, fresh]
      · simp [countOnly, here, Ne.symm here]

theorem bit_bmod_eq_iff {p q : Prop} [Decidable p] [Decidable q] :
    (if p then (1 : Int) else 0).bmod (2 ^ 32) = (if q then 1 else 0) ↔ (p ↔ q) := by
  by_cases left : p
  · by_cases right : q
    · simp only [left, right, ↓reduceIte]
      decide
    · simp only [left, right, ↓reduceIte]
      decide
  · by_cases right : q
    · simp only [left, right, ↓reduceIte]
      decide
    · simp only [left, right, ↓reduceIte]
      decide

/-! ### When the count of a query is exact -/

/-- The select returns the sum of the counts inserted under its metric. -/
def CountExact (filepath tablePrefix : Bytes) (calls : List InsertCall) (env : LeveldbEnv)
    (cond : EventCond) (lingerHint : Int64)
    (stdSort : (EventInfo → EventInfo → Bool) → List EventInfo → List EventInfo) : Prop :=
  let s := run insertStep (init filepath tablePrefix) calls
  (s.selectEvStat stdSort env cond .zero lingerHint).2.1.summary.count.toInt =
    countSum ((calls.map Prod.snd).filter fun record => decide (record.metric = cond.metric))

instance (filepath tablePrefix : Bytes) (calls : List InsertCall) (env : LeveldbEnv)
    (cond : EventCond) (lingerHint : Int64)
    (stdSort : (EventInfo → EventInfo → Bool) → List EventInfo → List EventInfo) :
    Decidable (CountExact filepath tablePrefix calls env cond lingerHint stdSort) :=
  inferInstanceAs (Decidable (_ = _))

/-- The sum of the counts of a metric is a 32-bit integer. -/
def SumFits (calls : List InsertCall) (cond : EventCond) : Prop :=
  Fits32 (countSum ((calls.map Prod.snd).filter fun record =>
    decide (record.metric = cond.metric)))

instance (calls : List InsertCall) (cond : EventCond) : Decidable (SumFits calls cond) :=
  inferInstanceAs (Decidable (Fits32 _))

/-- A query of the whole past: no grouping, interval or filter. -/
structure Unrestricted (cond : EventCond) : Prop where
  groupby : cond.groupby = .none
  tmInterval : cond.tmInterval = 0
  tag : cond.tag = []
  entityIdx : cond.entityIdx = []

section Exact

variable {filepath tablePrefix service month : Bytes} {calls : List InsertCall} {env : LeveldbEnv}
  {cond : EventCond} {lingerHint : Int64}
  {stdSort : (EventInfo → EventInfo → Bool) → List EventInfo → List EventInfo}
  (stored : Along insertStep Stored (init filepath tablePrefix) calls)
  (oneMonth : ∀ call ∈ calls, call.1.month = month ∧ call.2.service = service)
  (opens : env.openOk = true) (sameService : cond.service = service) (service_ne : service ≠ [])
  (query : Unrestricted cond)

include stored oneMonth opens sameService service_ne query

/-- What the select returns. -/
theorem toInt_select_count :
    ((run insertStep (init filepath tablePrefix) calls).selectEvStat stdSort env cond .zero
        lingerHint).2.1.summary.count.toInt =
      (if (init filepath tablePrefix).fullpath service month =
          (init filepath tablePrefix).fullpath service env.month then
        countSum ((lasts cstrKey (calls.map Prod.snd)).filter fun record =>
          decide (Counted cond (prepare env.now lingerHint cond .zero) (cstrKey record)))
      else 0).bmod (2 ^ 32) := by
  obtain ⟨named, sameFilepath, samePrefix, _⟩ :=
    content_run (init_named filepath tablePrefix) stored
  have cond_service_ne : cond.service ≠ [] := sameService ▸ service_ne
  obtain ⟨t, _, same⟩ := selectWith_eq (fun entry => itemOf entry.2) foldByNone named opens
    cond_service_ne (prepare env.now lingerHint cond .zero)
  have path : (run insertStep (init filepath tablePrefix) calls).fullpath cond.service env.month =
      (init filepath tablePrefix).fullpath service env.month := by
    rw [StoreLevelDB.fullpath, StoreLevelDB.fullpath, sameFilepath, samePrefix, sameService]
  have counts (db : Database) :
      ((scan db cond (prepare env.now lingerHint cond .zero)).map
        ((fun item : EventInfo => item.count.toInt) ∘ fun entry => itemOf entry.2)).sum =
      ((scan db cond (prepare env.now lingerHint cond .zero)).map
        fun entry => entry.2.count.toInt).sum := rfl
  rw [selectEvStat, if_neg cond_service_ne]
  simp only [query.groupby, selectEvStatByNone, same, foldByNone]
  rw [toInt_summarize_count, List.map_map, counts, path, content_oneMonth stored oneMonth]
  split
  · rw [scan_countSum query.tag query.entityIdx]
  · rw [scan_eq_filterMap]
    rfl

variable (distinct : (calls.map fun call =>
  (call.2.metric, call.2.timestamp, call.2.tag, call.2.entityIdx)).Nodup)

include distinct

/-- The count of an unrestricted query. When the keys are faithful it is exact
whenever the sum fits into 32 bits; when they are not, there are counts for the
same keys with which it is wrong although their sum fits. -/
theorem count_exact_iff :
    (KeysFaithful cond (prepare env.now lingerHint cond .zero)
        ((init filepath tablePrefix).fullpath service month =
          (init filepath tablePrefix).fullpath service env.month) (calls.map Prod.snd) →
      (CountExact filepath tablePrefix calls env cond lingerHint stdSort ↔ SumFits calls cond)) ∧
    (¬ KeysFaithful cond (prepare env.now lingerHint cond .zero)
        ((init filepath tablePrefix).fullpath service month =
          (init filepath tablePrefix).fullpath service env.month) (calls.map Prod.snd) →
      ∃ f, SumFits (calls.map (recount f)) cond ∧
        ¬ CountExact filepath tablePrefix (calls.map (recount f)) env cond lingerHint stdSort) := by
  set stat := prepare env.now lingerHint cond .zero
  set here : Prop := (init filepath tablePrefix).fullpath service month =
    (init filepath tablePrefix).fullpath service env.month with hereDef
  have nodup : (calls.map Prod.snd).Nodup := by
    refine List.Nodup.of_map (fun r : EventInsert => (r.metric, r.timestamp, r.tag, r.entityIdx)) ?_
    rw [List.map_map]
    exact distinct
  constructor
  · intro faithful
    rw [CountExact, SumFits, toInt_select_count stored oneMonth opens sameService service_ne query]
    by_cases present : here
    · rw [if_pos present, countSum_perm (faithful.filter_perm present nodup)]
      exact bmod32_eq_iff
    · rw [if_neg present, faithful.filter_eq_nil present]
      decide
  · intro unfaithful
    simp only [KeysFaithful, not_forall] at unfaithful
    obtain ⟨record, member, mismatch⟩ := unfaithful
    have storedAgain := stored_recount ⟨rfl, rfl, rfl⟩ (countOnly record) stored
    have oneMonthAgain : ∀ call ∈ calls.map (recount (countOnly record)),
        call.1.month = month ∧ call.2.service = service := by
      intro call inCalls
      obtain ⟨original, inOriginal, rfl⟩ := List.mem_map.mp inCalls
      exact oneMonth original inOriginal
    have records : (calls.map (recount (countOnly record))).map Prod.snd =
        (calls.map Prod.snd).map fun r => { r with count := countOnly record r } := by
      rw [List.map_map, List.map_map]
      rfl
    have asked : countSum (((calls.map (recount (countOnly record))).map Prod.snd).filter
        fun r => decide (r.metric = cond.metric)) =
        if record.metric = cond.metric then 1 else 0 := by
      rw [records, List.filter_map]
      refine (countSum_countOnly record (nodup.filter _)).trans ?_
      simp [List.mem_filter, member]
    have found : countSum ((lasts cstrKey ((calls.map (recount (countOnly record))).map
        Prod.snd)).filter fun r => decide (Counted cond stat (cstrKey r))) =
        if record ∈ lasts cstrKey (calls.map Prod.snd) ∧ Counted cond stat (cstrKey record)
        then 1 else 0 := by
      rw [records, lasts_map, List.filter_map]
      refine (countSum_countOnly record ((nodup.sublist (lasts_sublist _)).filter _)).trans ?_
      simp only [List.mem_filter, Function.comp_apply, decide_eq_true_eq]
      rfl
    refine ⟨countOnly record, ?_, ?_⟩
    · rw [SumFits, asked]
      split <;> decide
    · rw [CountExact, toInt_select_count storedAgain oneMonthAgain opens sameService service_ne
        query, asked, found, ← ite_and]
      intro same
      have counted := bit_bmod_eq_iff.mp same
      exact mismatch ⟨fun asked => (counted.mpr asked).imp_right And.symm,
        fun found => counted.mp (found.imp_right And.symm)⟩

end Exact

/-- Records whose fields contain neither `#` nor zero bytes and whose keys fit
the buffer are all given back, by a query of their month from a start that is
not before them. -/
theorem keysFaithful_of_storable {cond : EventCond} {stat : EventSelect} {here : Prop}
    (present : here) (query : Expressible cond stat) (tmInterval : cond.tmInterval = 0)
    {records : List EventInsert} (distinct : (records.map identity).Nodup)
    (storable : ∀ record ∈ records, Storable record ∧ record.metric ≠ [] ∧
      record.timestamp.toInt ≤ stat.timestamp.toInt) :
    KeysFaithful cond stat here records := by
  have agree : ∀ a ∈ records, ∀ b ∈ records, cstrKey b = cstrKey a ↔ identity b = identity a :=
    fun a memberA b memberB =>
      cstrKey_inj (storable b memberB).1.readable (storable a memberA).1.readable
  intro record member
  obtain ⟨ok, metric_ne, upper⟩ := storable record member
  have lower := ok.lower
  have within := query.inWindow_keyText_iff ok.metric.1 (by omega) ok.upper
    (StoreLevelDB.storedTag record) record.entityIdx
  rw [← ok.cstrKey_eq] at within
  have unlimited : ¬ 0 < cond.tmInterval.toInt := by
    rw [tmInterval]
    decide
  have readable : (splitKey (cstrKey record)).isSome := by
    rw [ok.cstrKey_eq, splitKey_keyText ok.metric.1 ok.storedTag.1 ok.entityIdx.1 _ metric_ne
      (storedTag_ne_nil record)]
    rfl
  rw [lasts_congr agree, lasts_of_nodup distinct]
  constructor
  · intro asked
    exact ⟨present, ⟨within.mpr ⟨asked, upper, fun limited => absurd limited unlimited⟩, readable⟩,
      member⟩
  · rintro ⟨_, ⟨inside, _⟩, _⟩
    exact (within.mp inside).1

/-- Two records of different seconds are both counted. -/
theorem count_exact_two_seconds :
    let env : LeveldbEnv := ⟨fun _ => ⟨119, 1⟩, 1550000100, true, true⟩
    let first : EventInsert :=
      ⟨bytes "svc", [], 1550000000, 1, bytes "m", bytes "T", 2, 10, 5, 4, 6, 4, 5, 6⟩
    let second : EventInsert := { first with timestamp := 1550000003, count := 3 }
    let cond : EventCond := ⟨0, bytes "svc", bytes "m", 0, [], [], .none, .none, .desc, 0⟩
    CountExact (bytes "db") (bytes "heracles") [(env, first), (env, second)] env cond 10
        (fun _ info => info) ↔
      SumFits [(env, first), (env, second)] cond := by
  intro env first second cond
  have oneMonth : ∀ call ∈ [(env, first), (env, second)],
      call.1.month = env.month ∧ call.2.service = bytes "svc" := by simp [first, second]
  exact (count_exact_iff (by decide +kernel) oneMonth rfl rfl (by decide) ⟨rfl, rfl, rfl, rfl⟩
    (by decide)).1 (by decide +kernel)

/-- A record whose tag contains `#` is stored, and no query finds it: its key
splits into five fields. -/
theorem hashed_tag_not_counted :
    ¬ ∀ (filepath tablePrefix service month : Bytes) (calls : List InsertCall) (env : LeveldbEnv)
      (cond : EventCond) (lingerHint : Int64)
      (stdSort : (EventInfo → EventInfo → Bool) → List EventInfo → List EventInfo),
      Along insertStep Stored (init filepath tablePrefix) calls →
      (∀ call ∈ calls, call.1.month = month ∧ call.2.service = service) →
      (∀ call ∈ calls, 1 ≤ call.2.timestamp.toInt ∧ call.2.timestamp.toInt ≤ 8999999999 ∧
        call.2.tag ≠ [] ∧
        call.2.timestamp.toInt ≤ (effectiveStart env.now lingerHint cond).toInt) →
      (calls.map fun call =>
        (call.2.metric, call.2.timestamp, call.2.tag, call.2.entityIdx)).Nodup →
      env.month = month → env.openOk = true → cond.service = service → Unrestricted cond →
      SumFits calls cond → CountExact filepath tablePrefix calls env cond lingerHint stdSort := by
  intro always
  have wrong := always (bytes "db") (bytes "heracles") (bytes "svc") (bytes "201902")
    [(⟨fun _ => ⟨119, 1⟩, 1550000100, true, true⟩,
      ⟨bytes "svc", [], 1550000000, 1, bytes "m", bytes "a#b", 3, 10, 5, 4, 6, 4, 5, 6⟩)]
    ⟨fun _ => ⟨119, 1⟩, 1550000100, true, true⟩
    ⟨0, bytes "svc", bytes "m", 0, [], [], .none, .none, .desc, 0⟩ 10 (fun _ info => info)
    (by decide +kernel) (by decide +kernel) (by decide) (by decide) (by decide +kernel) rfl rfl
    ⟨rfl, rfl, rfl, rfl⟩ (by decide)
  exact absurd wrong (by decide +kernel)

end Heracles.Business.StoreLevelDB
