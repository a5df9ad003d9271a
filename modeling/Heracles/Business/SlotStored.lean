import Heracles.Business.Partition
import Heracles.Business.SlotRecords

/-!
The counts of a slot in the LevelDB store.

A record is stored under its metric, time, tag and entity, where the empty tag is
written as `T`. So the record of the tag `T` replaces that of the empty tag, and
`countsKept_iff` says for which slots the stored counts of a metric still add up to
the number of its message ids.
-/

namespace Heracles.Business

open Heracles.Base

namespace StoreLevelDB

/-! ### Counts under a time -/

/-- A key of a metric, a time and an entity. -/
def UnderTime (metric : Bytes) (t : Int64) (entityIdx : Bytes) (key : Bytes) : Bool :=
  match splitKey key with
  | none => false
  | some vec => vec.metric = metric ∧ vec.time = decimal (invTime t) ∧ vec.entityIdx = entityIdx

/-- The sum of the counts stored for a metric under a time and an entity. -/
def storedCount (db : Database) (metric : Bytes) (t : Int64) (entityIdx : Bytes) : Int :=
  ((db.entries.filter fun e => UnderTime metric t entityIdx e.1).map fun e =>
    (LeveldbInternalLayout.ofBytes e.2).count.toInt).sum

theorem underTime_cstrKey {r : EventInsert} (ok : Readable r) (metric_ne : r.metric ≠ [])
    (metric : Bytes) :
    UnderTime metric r.timestamp r.entityIdx (cstrKey r) = decide (r.metric = metric) := by
  rw [UnderTime, ok.cstrKey_eq, splitKey_keyText ok.metric.1 ok.storedTag.1 ok.entityIdx.1 _
    metric_ne (storedTag_ne_nil r)]
  simp

/-- The counts stored for a metric are those of its last records under each key. -/
theorem storedCount_withRecords {db : Database} {records : List EventInsert} {t : Int64}
    {entityIdx : Bytes} (ok : ∀ r ∈ records, Readable r ∧ r.metric ≠ [] ∧ r.timestamp = t ∧
      r.entityIdx = entityIdx) {metric : Bytes}
    (fresh : ∀ key ∈ db.keys, UnderTime metric t entityIdx key = false) :
    storedCount (withRecords db records) metric t entityIdx =
      ((lasts cstrKey (group EventInsert.metric records metric)).map
        fun r => r.count.toInt).sum := by
  have perm := OrdMap.filter_insertAll_perm db cstrKey (fun stat => (layout stat).toBytes) records
    fresh
  have ofMetric : records.filter (fun r => UnderTime metric t entityIdx (cstrKey r)) =
      group EventInsert.metric records metric := by
    refine List.filter_congr fun r member => ?_
    obtain ⟨readable, metric_ne, rfl, rfl⟩ := ok r member
    rw [underTime_cstrKey readable metric_ne metric]
    exact decide_eq_decide.mpr Iff.rfl
  rw [filter_lasts, ofMetric] at perm
  refine (perm.map _).sum_eq.trans ?_
  rw [List.map_map]
  refine congrArg List.sum (List.map_congr_left fun r _ => ?_)
  simp only [Function.comp_apply, LeveldbInternalLayout.ofBytes_toBytes]
  rfl

/-! ### Tags that meet -/

/-- The text a tag is stored as. -/
def tagText (tag : Bytes) : Bytes := if tag = [] then bytes "T" else tag

/-- Among tags in ascending order, all have texts of their own, or the empty tag is
written as another one. -/
theorem lasts_tagText {tags : List Bytes} (ascending : tags.Pairwise (· < ·)) :
    (¬ ([] ∈ tags ∧ bytes "T" ∈ tags) → lasts tagText tags = tags) ∧
    ([] ∈ tags ∧ bytes "T" ∈ tags → [] ∉ lasts tagText tags) := by
  have distinct : tags.Nodup := ascending.imp ne_of_lt
  constructor
  · intro apart
    refine lasts_of_nodup (distinct.map_on fun a memberA b memberB same => ?_)
    unfold tagText at same
    split at same
    · rename_i emptyA
      split at same
      · rename_i emptyB
        rw [emptyA, emptyB]
      · exact absurd ⟨emptyA ▸ memberA, same ▸ memberB⟩ apart
    · split at same
      · rename_i emptyB
        exact absurd ⟨emptyB ▸ memberB, same ▸ memberA⟩ apart
      · exact same
  · rintro ⟨empty, named⟩ kept
    obtain ⟨before, after, shape, last⟩ := mem_lasts_iff.mp kept
    rw [shape] at named ascending
    rcases List.mem_append.mp named with early | late
    · have below := (List.pairwise_append.mp ascending).2.2 _ early [] List.mem_cons_self
      exact List.not_lt_nil _ below
    · rcases List.mem_cons.mp late with same | inside
      · exact absurd same (by decide)
      · exact last _ inside rfl

/-- Numbers that are at most others add up to the same only if they are the same. -/
theorem sum_eq_iff_of_le {ι : Type} {l : List ι} {f g : ι → Int} (below : ∀ i ∈ l, f i ≤ g i) :
    (l.map f).sum = (l.map g).sum ↔ ∀ i ∈ l, f i = g i := by
  constructor
  · intro same i member
    by_contra differs
    have less := List.sum_lt_sum f g below ⟨i, member, lt_of_le_of_ne (below i member) differs⟩
    omega
  · intro each
    exact congrArg List.sum (List.map_congr_left each)

/-- A counter shows at most what it has counted, and that much only below 2^31. -/
theorem bmod32_natCast_le (n : Nat) : (n : Int).bmod (2 ^ 32) ≤ n := by
  by_cases small : (n : Int) < 2 ^ 31
  · exact (bmod32_eq_iff.mpr ⟨by omega, small⟩).le
  · have high : (n : Int).bmod (2 ^ 32) < (2 ^ 32 + 1) / 2 := Int.bmod_lt (by norm_num)
    have half : ((2 : Int) ^ 32 + 1) / 2 = 2 ^ 31 := by norm_num
    rw [half] at high
    omega

/-- Of the numbers of events with each tag, what the store keeps adds up to all of
them exactly when no two tags meet and every number can be counted. -/
theorem sum_kept_iff {tags : List Bytes} (ascending : tags.Pairwise (· < ·)) {number : Bytes → Nat}
    (some : ∀ tag ∈ tags, 0 < number tag) :
    ((lasts tagText tags).map fun tag => (number tag : Int).bmod (2 ^ 32)).sum =
        (tags.map fun tag => (number tag : Int)).sum ↔
      ¬ ([] ∈ tags ∧ bytes "T" ∈ tags) ∧ ∀ tag ∈ tags, number tag < 2 ^ 31 := by
  have fits (n : Nat) : (n : Int).bmod (2 ^ 32) = n ↔ n < 2 ^ 31 := by
    rw [bmod32_eq_iff, Fits32]
    norm_cast
    omega
  by_cases meet : [] ∈ tags ∧ bytes "T" ∈ tags
  · have dropped := (lasts_tagText ascending).2 meet
    have others : (lasts tagText tags).Sublist (tags.erase []) := by
      have sub := (@lasts_sublist _ _ _ tagText tags).erase []
      rwa [List.erase_of_not_mem dropped] at sub
    have split := ((List.perm_cons_erase meet.1).map fun tag => (number tag : Int)).sum_eq
    rw [List.map_cons, List.sum_cons] at split
    have below : ((lasts tagText tags).map fun tag => (number tag : Int).bmod (2 ^ 32)).sum ≤
        ((lasts tagText tags).map fun tag => (number tag : Int)).sum :=
      List.sum_le_sum fun tag _ => bmod32_natCast_le _
    have less : ((lasts tagText tags).map fun tag => (number tag : Int)).sum ≤
        ((tags.erase []).map fun tag => (number tag : Int)).sum := by
      refine (others.map _).sum_le_sum fun n member => ?_
      obtain ⟨tag, _, rfl⟩ := List.mem_map.mp member
      exact Int.natCast_nonneg _
    have positive := some [] meet.1
    constructor
    · intro same
      omega
    · rintro ⟨apart, _⟩
      exact absurd meet apart
  · rw [(lasts_tagText ascending).1 meet, sum_eq_iff_of_le fun tag _ => bmod32_natCast_le _]
    exact ⟨fun each => ⟨meet, fun tag member => (fits _).mp (each tag member)⟩,
      fun each tag member => (fits _).mpr (each.2 tag member)⟩

/-! ### Storing a slot -/

/-- An insert with an open database and a successful `Put` is refused only for what
its record lacks. -/
theorem insertEvStat_ok {s : StoreLevelDB} (named : s.HandlersNamed) {call : InsertCall}
    (opens : call.1.openOk = true) (puts : call.1.putOk = true) :
    (call.2.service ≠ [] ∧ call.2.metric ≠ [] ∧ call.2.timestamp ≠ 0 → Stored s call) ∧
    (call.2.service = [] ∨ call.2.timestamp = 0 → insertStep s call = s) := by
  obtain ⟨env, stat⟩ := call
  unfold Stored insertStep insertEvStat
  constructor
  · rintro ⟨service, metric, timestamp⟩
    rw [if_neg (by simp [service, metric, timestamp])]
    rcases getLeveldbHandler_cases named env stat.service with ⟨_, failed⟩ | ⟨t, got, _, _⟩
    · rcases failed with anonymous | closed
      · exact absurd anonymous service
      · rw [opens] at closed
        cases closed
    · rw [got]
      dsimp only
      rw [if_pos puts]
  · intro lacks
    rw [if_pos (by tauto)]

/-- The inserts of records that lack nothing all return 0. -/
theorem along_stored {s : StoreLevelDB} (named : s.HandlersNamed) {calls : List InsertCall}
    (ok : ∀ call ∈ calls, call.1.openOk = true ∧ call.1.putOk = true ∧ call.2.service ≠ [] ∧
      call.2.metric ≠ [] ∧ call.2.timestamp ≠ 0) : Along insertStep Stored s calls := by
  induction calls generalizing s with
  | nil => trivial
  | cons call calls ih =>
      obtain ⟨opens, puts, lacksNothing⟩ := ok call List.mem_cons_self
      have stored := (insertEvStat_ok named opens puts).1 lacksNothing
      rcases insertEvStat_cases named call with ⟨failed, _⟩ | ⟨_, inserted⟩
      · exact absurd stored failed
      · exact ⟨stored, ih inserted.named fun c member => ok c (List.mem_cons_of_mem call member)⟩

/-- The inserts of records without service or time do nothing. -/
theorem run_refused {s : StoreLevelDB} (named : s.HandlersNamed) {calls : List InsertCall}
    (ok : ∀ call ∈ calls, call.1.openOk = true ∧ call.1.putOk = true ∧
      (call.2.service = [] ∨ call.2.timestamp = 0)) : run insertStep s calls = s := by
  induction calls with
  | nil => rfl
  | cons call calls ih =>
      obtain ⟨opens, puts, lacks⟩ := ok call List.mem_cons_self
      rw [run_cons, (insertEvStat_ok named opens puts).2 lacks]
      exact ih fun c member => ok c (List.mem_cons_of_mem call member)

section Slot

variable {nth : NthElement Int32} {slot : EventsByTime} {service entityIdx : Bytes}

/-- The records of a slot have its time, its service and its entity. -/
theorem of_mem_records {r : EventInsert}
    (member : r ∈ doProcessEvent nth slot (statFor service entityIdx slot)) :
    r.service = service ∧ r.entityIdx = entityIdx ∧ r.timestamp = slot.timestamp := by
  rw [((mem_doProcessEvent nth slot _).mp member).2]
  exact ⟨rfl, rfl, rfl⟩

/-- The last records of a metric under each key are those of the last tags with
each text. -/
theorem lasts_group (readable : ∀ r ∈ doProcessEvent nth slot (statFor service entityIdx slot),
      Readable r) (metric : Bytes) :
    lasts cstrKey (group EventInsert.metric
        (doProcessEvent nth slot (statFor service entityIdx slot)) metric) =
      (lasts tagText (slot.tags metric)).map fun tag =>
        recordOf (statFor service entityIdx slot) metric tag (statOf (slot.tagged metric tag)) := by
  have known : ∀ tag ∈ slot.tags metric, Readable (recordOf (statFor service entityIdx slot)
      metric tag (statOf (slot.tagged metric tag))) := fun tag member =>
    readable _ ((mem_doProcessEvent nth slot _).mpr ⟨EventsByTime.mem_tags.mp member, rfl⟩)
  rw [group_doProcessEvent, lasts_map]
  refine congrArg (List.map _) (lasts_congr fun a memberA b memberB => ?_)
  have okA := known a memberA
  have okB := known b memberB
  rw [okA.cstrKey_eq, okB.cstrKey_eq]
  constructor
  · intro same
    exact (keyText_injective okB.metric.1 okB.storedTag.1 okB.entityIdx.1 okA.metric.1
      okA.storedTag.1 okA.entityIdx.1 same).2.2.1
  · intro same
    exact congrArg (fun text => keyText metric (invTime slot.timestamp) text entityIdx) same

/-- Nothing is under a time in a database without records for it. -/
theorem storedCount_fresh {db : Database} {metric : Bytes} {t : Int64}
    (fresh : ∀ key ∈ db.keys, UnderTime metric t entityIdx key = false) :
    storedCount db metric t entityIdx = 0 := by
  have nothing : (db.entries.filter fun e => UnderTime metric t entityIdx e.1) = [] := by
    refine List.filter_eq_nil_iff.mpr fun e member => ?_
    rw [fresh e.1 (List.mem_map_of_mem member)]
    exact Bool.false_ne_true
  rw [storedCount, nothing]
  rfl

/-- The stored counts of a metric add up to the number of its message ids. -/
def CountsKept (db : Database) (slot : EventsByTime) (entityIdx metric : Bytes) : Prop :=
  storedCount db metric slot.timestamp entityIdx =
    (keySet EventData.msgid ((slot.data.find? metric).getD [])).card

instance (db : Database) (slot : EventsByTime) (entityIdx metric : Bytes) :
    Decidable (CountsKept db slot entityIdx metric) := inferInstanceAs (Decidable (_ = _))

/-- The events of a metric can be stored and counted: the record is not refused, no
tag has too many events, and the empty tag and `T` do not both occur. -/
def Keepable (service : Bytes) (slot : EventsByTime) (metric : Bytes) : Prop :=
  service ≠ [] ∧ slot.timestamp ≠ 0 ∧ (∀ tag, (slot.tagged metric tag).length < 2 ^ 31) ∧
    ¬ (slot.tagged metric [] ≠ [] ∧ slot.tagged metric (bytes "T") ≠ [])

/-- After a slot has been stored, the counts of a metric are kept exactly when it has
no events, or they can be stored and counted. -/
theorem counts_kept_iff (filepath tablePrefix month : Bytes) (earlier : List Call)
    (nth : NthElement Int32) (slot : EventsByTime) (service entityIdx : Bytes)
    (calls : List InsertCall)
    (records : calls.map Prod.snd = doProcessEvent nth slot (statFor service entityIdx slot))
    (puts : ∀ call ∈ calls, call.1.openOk = true ∧ call.1.putOk = true ∧ call.1.month = month)
    (readable : ∀ r ∈ doProcessEvent nth slot (statFor service entityIdx slot),
      Readable r ∧ r.metric ≠ [])
    (fresh : ∀ metric,
      ∀ key ∈ ((run callStep (init filepath tablePrefix) earlier).content
        ((init filepath tablePrefix).fullpath service month)).keys,
      UnderTime metric slot.timestamp entityIdx key = false)
    (metric : Bytes) :
    CountsKept ((run insertStep (run callStep (init filepath tablePrefix) earlier) calls).content
        ((init filepath tablePrefix).fullpath service month)) slot entityIdx metric ↔
      slot.retained metric = [] ∨ Keepable service slot metric := by
  obtain ⟨named, sameFilepath, samePrefix, _⟩ :=
    content_calls (init_named filepath tablePrefix) earlier
  set s := run callStep (init filepath tablePrefix) earlier
  have inRecords : ∀ call ∈ calls, call.2 ∈ doProcessEvent nth slot (statFor service entityIdx slot) :=
    fun call member => records ▸ List.mem_map_of_mem member
  have path : ∀ call ∈ calls, s.target call = (init filepath tablePrefix).fullpath service month := by
    intro call member
    rw [target, StoreLevelDB.fullpath, StoreLevelDB.fullpath, sameFilepath, samePrefix,
      (puts call member).2.2, (of_mem_records (inRecords call member)).1]
  have noEvents : slot.retained metric = [] ↔
      (keySet EventData.msgid ((slot.data.find? metric).getD [])).card = 0 := by
    rw [EventsByTime.retained, ← length_firsts, List.length_eq_zero_iff]
  by_cases refused : service = [] ∨ slot.timestamp = 0
  · have same : run insertStep s calls = s := by
      refine run_refused named fun call member => ?_
      obtain ⟨recordService, _, recordTime⟩ := of_mem_records (inRecords call member)
      rw [recordService, recordTime]
      exact ⟨(puts call member).1, (puts call member).2.1, refused⟩
    have notKeepable : ¬ Keepable service slot metric := fun keepable =>
      refused.elim keepable.1 keepable.2.1
    rw [same, CountsKept, storedCount_fresh (fresh metric), noEvents]
    simp only [notKeepable, or_false]
    exact ⟨fun same => by exact_mod_cast same.symm, fun none => by rw [none]; rfl⟩
  · push Not at refused
    have stored : Along insertStep Stored s calls := by
      refine along_stored named fun call member => ?_
      obtain ⟨recordService, _, recordTime⟩ := of_mem_records (inRecords call member)
      rw [recordService, recordTime]
      exact ⟨(puts call member).1, (puts call member).2.1, refused.1,
        (readable _ (inRecords call member)).2, refused.2⟩
    have all : calls.filter (fun call => s.target call =
        (init filepath tablePrefix).fullpath service month) = calls :=
      List.filter_eq_self.mpr fun call member => decide_eq_true (path call member)
    have database := (content_run named stored).2.2.2
      ((init filepath tablePrefix).fullpath service month)
    rw [all, records] at database
    have ok : ∀ r ∈ doProcessEvent nth slot (statFor service entityIdx slot), Readable r ∧
        r.metric ≠ [] ∧ r.timestamp = slot.timestamp ∧ r.entityIdx = entityIdx := fun r member =>
      ⟨(readable r member).1, (readable r member).2, (of_mem_records member).2.2,
        (of_mem_records member).2.1⟩
    have counts : (fun tag => (recordOf (statFor service entityIdx slot) metric tag
        (statOf (slot.tagged metric tag))).count.toInt) =
        fun tag => ((slot.tagged metric tag).length : Int).bmod (2 ^ 32) :=
      funext fun tag => (congrArg Int32.toInt (statOf_count _)).trans (toInt_gather_count _)
    rw [CountsKept, database, storedCount_withRecords ok (fresh metric),
      lasts_group (fun r member => (readable r member).1), List.map_map, Function.comp_def, counts,
      ← sum_length_tagged, sum_kept_iff (slot.tags_ascending metric) fun tag member =>
        List.length_pos_iff.mpr (EventsByTime.mem_tags.mp member)]
    simp only [EventsByTime.mem_tags]
    constructor
    · rintro ⟨apart, few⟩
      refine .inr ⟨refused.1, refused.2, fun tag => ?_, apart⟩
      by_cases none : slot.tagged metric tag = []
      · rw [none]
        norm_num
      · exact few tag none
    · rintro (none | keepable)
      · have nothing (tag : Bytes) : slot.tagged metric tag = [] := by
          rw [EventsByTime.tagged, none]
          rfl
        exact ⟨fun both => both.1 (nothing []), fun tag some => absurd (nothing tag) some⟩
      · exact ⟨keepable.2.2.2, fun tag _ => keepable.2.2.1 tag⟩

end Slot

/-! ### Two tags that meet -/

/-- A slot with one event without tag and one with the tag `T`. -/
def meeting : EventsByTime :=
  ⟨0, 1550000001, 3,
    ⟨[(bytes "m", [⟨1, bytes "m", [], 5⟩, ⟨2, bytes "m", bytes "T", 7⟩])],
      List.pairwise_singleton _ _⟩⟩

/-- The records of a slot, with the same clock for each. -/
def meetingCalls (slot : EventsByTime) : List InsertCall :=
  (doProcessEvent (.bySorting Int32) slot (statFor (bytes "svc") [] slot)).map fun r =>
    (⟨fun _ => ⟨119, 1⟩, 1550000100, true, true⟩, r)

theorem counts_kept_iff_meeting :
    CountsKept ((run insertStep (run callStep (init (bytes "db") (bytes "heracles")) [])
        (meetingCalls meeting)).content
        ((init (bytes "db") (bytes "heracles")).fullpath (bytes "svc") (bytes "201902")))
        meeting [] (bytes "m") ↔
      meeting.retained (bytes "m") = [] ∨ Keepable (bytes "svc") meeting (bytes "m") := by
  refine counts_kept_iff (bytes "db") (bytes "heracles") (bytes "201902") [] (.bySorting Int32)
    meeting (bytes "svc") [] (meetingCalls meeting) ?_ (by decide +kernel) ?_ ?_ (bytes "m")
  · decide +kernel
  · intro r member
    have known : r ∈ [(⟨bytes "svc", [], 1550000001, 3, bytes "m", [], 1, 5, 5, 5, 5, 5, 5, 5⟩ :
        EventInsert), ⟨bytes "svc", [], 1550000001, 3, bytes "m", bytes "T", 1, 7, 7, 7, 7, 7, 7,
          7⟩] := by
      have same : doProcessEvent (.bySorting Int32) meeting (statFor (bytes "svc") [] meeting) =
          [⟨bytes "svc", [], 1550000001, 3, bytes "m", [], 1, 5, 5, 5, 5, 5, 5, 5⟩,
            ⟨bytes "svc", [], 1550000001, 3, bytes "m", bytes "T", 1, 7, 7, 7, 7, 7, 7, 7⟩] := by
        decide +kernel
      rwa [← same]
    rcases List.mem_pair.mp known with rfl | rfl
    · exact ⟨⟨by decide, by decide, by decide, by decide +kernel⟩, by decide⟩
    · exact ⟨⟨by decide, by decide, by decide, by decide +kernel⟩, by decide⟩
  · intro metric key member
    cases member

/-- Of its two events one is left in the store. -/
theorem meeting_loses :
    ¬ CountsKept ((run insertStep (init (bytes "db") (bytes "heracles"))
        (meetingCalls meeting)).content
        ((init (bytes "db") (bytes "heracles")).fullpath (bytes "svc") (bytes "201902")))
        meeting [] (bytes "m") := by
  decide +kernel

end StoreLevelDB

end Heracles.Business
