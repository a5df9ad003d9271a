import Heracles.Business.FlushOnce
import Heracles.Business.SlotStored

/-!
Historical reads.

A record whose timestamp lies after the start of a window is not visible in it
(`not_visible_of_after`), and storing it leaves the scan as it is. So two selects of
one window give the same answer as long as only such records are stored in between.
-/

namespace Heracles.Business

open Heracles.Base

namespace StoreLevelDB

/-! ### Records outside of a window -/

/-- A key that a scan reads. -/
def Visible (cond : EventCond) (stat : EventSelect) (key : Bytes) : Prop :=
  InWindow cond stat key ∧ splitKey key ≠ none

variable {cond : EventCond} {stat : EventSelect}

/-- Storing under a key that is not visible leaves the scan as it is. -/
theorem scan_insert (db : Database) {key : Bytes} (hidden : ¬ Visible cond stat key)
    (value : Bytes) : scan (db.insert key value) cond stat = scan db cond stat := by
  have silent (v : Bytes) : (if decide (InWindow cond stat key) = true then
      readEntry cond key v else none) = none := by
    split
    · rename_i inside
      have unread : splitKey key = none := by
        by_contra splits
        exact hidden ⟨of_decide_eq_true inside, splits⟩
      rw [readEntry, unread]
    · rfl
  rw [scan_eq_filterMap, scan_eq_filterMap, List.filterMap_filter, List.filterMap_filter]
  exact OrdMap.filterMap_insert db silent value

/-- The text of a record's key before it is cut to the buffer. -/
def textOf (record : EventInsert) : Bytes :=
  keyText (cstr record.metric) (invTime record.timestamp) (cstr (storedTag record))
    (cstr record.entityIdx)

/-- A record whose key is not cut, or has no `#` in its metric. -/
def Uncut (record : EventInsert) : Prop :=
  35 ∉ cstr record.metric ∨ (textOf record).length < 4096

instance (record : EventInsert) : Decidable (Uncut record) := inferInstanceAs (Decidable (_ ∨ _))

/-- A visible key has four fields, the first of them the metric asked for. -/
theorem fields_of_visible (plain : 35 ∉ cond.metric) {key : Bytes}
    (visible : Visible cond stat key) :
    ∃ time tag entityIdx, key.splitOn 35 = [cond.metric, time, tag, entityIdx] ∧ 35 ∉ time ∧
      ∃ tail, key = cond.metric ++ 35 :: (time ++ 35 :: tail) := by
  obtain ⟨within, splits⟩ := visible
  unfold splitKey at splits
  split at splits
  · rename_i metric time tag entityIdx fields
    obtain ⟨afterMetric, first, metricPlain, others⟩ := eq_append_of_splitOn fields
    obtain ⟨tail, second, timePlain, _⟩ := eq_append_of_splitOn others
    rw [first] at within
    obtain rfl := metric_of_inWindow plain metricPlain within
    exact ⟨time, tag, entityIdx, fields, timePlain, tail, by rw [first, second]⟩
  · exact absurd rfl splits

/-- The key of a visible record has the metric asked for and the time of the record. -/
theorem key_of_visible (plain : 35 ∉ cond.metric) {record : EventInsert} (uncut : Uncut record)
    (visible : Visible cond stat (cstrKey record)) :
    ∃ tail, cstrKey record =
      cond.metric ++ 35 :: (decimal (invTime record.timestamp) ++ 35 :: tail) := by
  obtain ⟨time, tag, entityIdx, fields, timePlain, tail, shape⟩ := fields_of_visible plain visible
  have text : cstrKey record = snprintf 4096 (textOf record) := cstrKey_eq record
  have metricPlain : 35 ∉ cstr record.metric := by
    rcases uncut with metricPlain | short
    · exact metricPlain
    · -- a `#` in the metric gives the key a fifth field
      rw [text, snprintf_eq_self short, textOf, keyText, List.splitOn_append_cons_self,
        List.splitOn_append_cons_self, List.splitOn_append_cons_self] at fields
      have lengths := congrArg List.length fields
      have some (s : Bytes) : 0 < (s.splitOn 35).length :=
        List.length_pos_of_ne_nil (List.splitOn_ne_nil 35 s)
      have := some (decimal (invTime record.timestamp))
      have := some (cstr (storedTag record))
      have := some (cstr record.entityIdx)
      simp only [List.length_append, List.length_cons, List.length_nil] at lengths
      have one : ((cstr record.metric).splitOn 35).length = 1 := by
        have := some (cstr record.metric)
        omega
      obtain ⟨field, single⟩ := List.length_eq_one_iff.mp one
      obtain ⟨same, metricPlain⟩ := eq_of_splitOn single
      rwa [same]
  have whole : textOf record = cstrKey record ++ (textOf record).drop 4095 := by
    rw [text, snprintf, List.take_append_drop]
  have left := congrArg (List.splitOn 35) whole
  rw [shape, textOf, keyText, List.splitOn_append_cons_self_of_not_mem metricPlain,
    List.splitOn_append_cons_self_of_not_mem (hash_not_mem_decimal _), List.append_assoc,
    List.cons_append, List.append_assoc, List.cons_append,
    List.splitOn_append_cons_self_of_not_mem plain,
    List.splitOn_append_cons_self_of_not_mem timePlain] at left
  obtain ⟨_, others⟩ := List.cons.inj left
  exact ⟨tail, by rw [shape, (List.cons.inj others).1]⟩

/-- A record after the start of a window is not visible in it. -/
theorem not_visible_of_after (plain : 35 ∉ cond.metric) (startLower : 0 ≤ stat.timestamp.toInt)
    {record : EventInsert} (uncut : Uncut record) (after : stat.timestamp < record.timestamp)
    (upper : record.timestamp.toInt ≤ 8999999999) : ¬ Visible cond stat (cstrKey record) := by
  intro visible
  obtain ⟨tail, shape⟩ := key_of_visible plain uncut visible
  have reached := visible.1.1
  have separator : bytes "#" = [35] := by decide
  have later := Int64.lt_iff_toInt_lt.mp after
  rw [shape, tUpper, separator, List.append_assoc, append_lt_append_left, List.singleton_append,
    List.cons_lt_cons_iff] at reached
  push Not at reached
  have before : record.timestamp ≤ stat.timestamp :=
    le_of_not_lt_str startLower (by omega) upper (not_lt.mpr (reached.2 rfl))
  exact absurd after (not_lt.mpr before)

/-! ### Selects -/

/-- A select opens a database at most. -/
theorem selectEvStat_same {s : StoreLevelDB} (named : s.HandlersNamed)
    (stdSort : (EventInfo → EventInfo → Bool) → List EventInfo → List EventInfo) (env : LeveldbEnv)
    (cond : EventCond) (stat : EventSelect) (lingerHint : Int64) :
    SameContent s (s.selectEvStat stdSort env cond stat lingerHint).2.2 := by
  have unchanged : SameContent s s := ⟨rfl, rfl, fun _ => rfl, named⟩
  have selected (item : KeyFields × LeveldbInternalLayout → EventInfo)
      (fold : List EventInfo → EventSelect → EventSelect) (stat : EventSelect) :
      SameContent s (selectWith item fold s env cond stat).2.2 := by
    unfold selectWith
    rcases getLeveldbHandler_cases named env cond.service with ⟨failed, _⟩ | ⟨t, got, _, same⟩
    · rw [failed]
      exact unchanged
    · rw [got]
      exact same
  unfold selectEvStat
  split
  · exact unchanged
  · cases cond.groupby with
    | none => exact selected _ _ _
    | byTimestamp => exact selected _ _ _
    | byTag => exact selected _ _ _

/-- Two selects that open their databases give the same answer when they fold the
same entries for the same window. -/
theorem selectEvStat_congr {s t : StoreLevelDB} (named : s.HandlersNamed) (named' : t.HandlersNamed)
    (stdSort : (EventInfo → EventInfo → Bool) → List EventInfo → List EventInfo)
    {env env' : LeveldbEnv} (opens : env.openOk = true) (opens' : env'.openOk = true)
    {cond : EventCond} {stat : EventSelect} {lingerHint : Int64}
    (sameStart : effectiveStart env'.now lingerHint cond = effectiveStart env.now lingerHint cond)
    (same : scan (t.content (t.fullpath cond.service env'.month)) cond
        (prepare env.now lingerHint cond stat) =
      scan (s.content (s.fullpath cond.service env.month)) cond
        (prepare env.now lingerHint cond stat)) :
    (t.selectEvStat stdSort env' cond stat lingerHint).1 =
        (s.selectEvStat stdSort env cond stat lingerHint).1 ∧
      (t.selectEvStat stdSort env' cond stat lingerHint).2.1 =
        (s.selectEvStat stdSort env cond stat lingerHint).2.1 := by
  have prepared : prepare env'.now lingerHint cond stat = prepare env.now lingerHint cond stat := by
    rw [prepare, prepare, sameStart]
  unfold selectEvStat
  split
  · exact ⟨rfl, rfl⟩
  · rename_i service_ne
    rw [prepared]
    have selected (item : KeyFields × LeveldbInternalLayout → EventInfo)
        (fold : List EventInfo → EventSelect → EventSelect) :
        (selectWith item fold t env' cond (prepare env.now lingerHint cond stat)).1 =
            (selectWith item fold s env cond (prepare env.now lingerHint cond stat)).1 ∧
          (selectWith item fold t env' cond (prepare env.now lingerHint cond stat)).2.1 =
            (selectWith item fold s env cond (prepare env.now lingerHint cond stat)).2.1 := by
      obtain ⟨_, _, first⟩ := selectWith_eq item fold named opens service_ne
        (prepare env.now lingerHint cond stat)
      obtain ⟨_, _, second⟩ := selectWith_eq item fold named' opens' service_ne
        (prepare env.now lingerHint cond stat)
      rw [first, second, same]
      exact ⟨rfl, rfl⟩
    cases cond.groupby with
    | none => exact selected _ _
    | byTimestamp =>
        obtain ⟨code, answer⟩ := selected itemByTimestamp foldByTimestamp
        exact ⟨code, congrArg (fun out : EventSelect =>
          { out with info := orderInfo stdSort cond out.info }) answer⟩
    | byTag =>
        obtain ⟨code, answer⟩ := selected itemByTag foldByTag
        exact ⟨code, congrArg (fun out : EventSelect =>
          { out with info := orderInfo stdSort cond out.info }) answer⟩

end StoreLevelDB

/-! ### Slots behind a time -/

namespace Pipeline

/-- The configuration is `conf`, every open slot is under its timestamp, its linger
time can be added to it, and the clock shows a time with a ten-digit inverse. -/
structure Regular (conf : EventHandlerConf) (p : Pipeline) : Prop where
  fixed : p.handler.conf = conf
  keyed : p.handler.Keyed
  roomy : RoomyIntake p
  clockLower : 0 ≤ p.clock.toInt
  clockUpper : p.clock.toInt ≤ 8999999999

/-- The clock is not set beyond the ten-digit inverses. -/
def InTime : Act → Prop
  | .tick now => now.toInt ≤ 8999999999
  | _ => True

instance : ∀ a, Decidable (InTime a)
  | .tick _ => inferInstanceAs (Decidable (_ ≤ _))
  | .reconf _ | .check _ | .insert _ | .addEvent _ | .lingerCheck | .run | .runTask _ =>
      inferInstanceAs (Decidable True)

variable {conf : EventHandlerConf} {p : Pipeline}

theorem roomForLinger_of_orderly (fixed : p.handler.conf = conf) (linger : 0 < conf.eventLinger.toInt)
    (stepPos : 0 < conf.eventStep.toInt) {a : Act} (orderly : Orderly p a) : RoomForLinger p a := by
  subst fixed
  cases a with
  | check ev => exact fun passed => niceStep_room stepPos linger (orderly passed)
  | addEvent ev => exact fun passed => niceStep_room stepPos linger (orderly passed)
  | reconf conf => exact orderly
  | tick now => trivial
  | insert i => trivial
  | lingerCheck => trivial
  | run => trivial
  | runTask i => trivial

theorem regular_start (service entityIdx : Bytes) (conf : EventHandlerConf) {clock : Int64}
    (lower : 0 ≤ clock.toInt) (upper : clock.toInt ≤ 8999999999) :
    Regular conf (start service entityIdx conf clock) where
  fixed := rfl
  keyed e member := by simp [start, EventHandler.create, OrdMap.empty] at member
  roomy := roomyIntake_start service entityIdx conf clock
  clockLower := lower
  clockUpper := upper

theorem Regular.of_same {q : Pipeline} (regular : Regular conf p) (same : SameIntake p q) :
    Regular conf q where
  fixed := same.conf.trans regular.fixed
  keyed := by
    unfold EventHandler.Keyed
    rw [same.events]
    exact regular.keyed
  roomy := regular.roomy.of_same same
  clockLower := same.clock ▸ regular.clockLower
  clockUpper := same.clock ▸ regular.clockUpper

theorem Regular.step (regular : Regular conf p) (linger : 0 < conf.eventLinger.toInt)
    (stepPos : 0 < conf.eventStep.toInt) {a : Act} (orderly : Orderly p a) (inTime : InTime a) :
    Regular conf (step p a) := by
  have roomy := regular.roomy.step (roomForLinger_of_orderly regular.fixed linger stepPos orderly)
  obtain ⟨fixed, keyed, _, lower, upper⟩ := regular
  cases a with
  | tick now => exact ⟨fixed, keyed, roomy, lower.trans (Int64.le_iff_toInt_le.mp orderly), inTime⟩
  | check ev =>
      simp only [Pipeline.step] at roomy ⊢
      split at roomy
      · rename_i passed
        rw [if_pos passed]
        exact ⟨fixed, keyed, roomy, lower, upper⟩
      · rename_i refused
        rw [if_neg refused]
        exact ⟨fixed, keyed, roomy, lower, upper⟩
  | insert i =>
      simp only [Pipeline.step] at roomy ⊢
      cases here : p.waiting[i]? with
      | none =>
          simp only [here] at roomy ⊢
          exact ⟨fixed, keyed, roomy, lower, upper⟩
      | some ev =>
          simp only [here] at roomy ⊢
          exact ⟨fixed, keyed.doAddEvent ev.timestamp ev.data, roomy, lower, upper⟩
  | addEvent ev =>
      rw [step_addEvent] at roomy ⊢
      split at roomy
      · rename_i passed
        rw [if_pos passed]
        exact ⟨fixed, keyed.doAddEvent ev.timestamp ev.data, roomy, lower, upper⟩
      · rename_i refused
        rw [if_neg refused]
        exact ⟨fixed, keyed, roomy, lower, upper⟩
  | lingerCheck => exact ⟨fixed, keyed.lingerCheckRun p.clock, roomy, lower, upper⟩
  | run => exact Regular.of_same ⟨fixed, keyed, ‹_›, lower, upper⟩ p.sameIntake_run
  | runTask i => exact Regular.of_same ⟨fixed, keyed, ‹_›, lower, upper⟩ (p.sameIntake_runTask i)
  | reconf conf => exact orderly.elim

/-- A slot time after a start and up to the clock. -/
def Between (start : Int64) (p : Pipeline) (t : Int64) : Prop := start < t ∧ t ≤ p.clock

/-- The linger time after `start` is over, and every slot on its way, or still to be
opened by a waiting call, is behind `start`. -/
structure Ahead (start : Int64) (p : Pipeline) : Prop where
  reached : start.toInt + p.handler.conf.eventLinger.toInt ≤ p.clock.toInt
  opened : ∀ key ∈ p.handler.events.keys, start < key
  waiting : ∀ ev ∈ p.waiting, start < p.handler.conf.niceStep ev.timestamp
  moving : ∀ slot ∈ p.handler.processQueue ++ p.tasks.flatten, Between start p slot.timestamp

/-- The slots that a step hands to `do_process_event`. -/
def handedBy (p : Pipeline) (a : Act) : List EventsByTime := (step p a).handed.drop p.handed.length

variable {start : Int64}

/-- A report that passes the linger test belongs to a slot behind the start. -/
theorem Ahead.accepted (ahead : Ahead start p) (regular : Regular conf p)
    (linger : 0 < conf.eventLinger.toInt) (stepPos : 0 < conf.eventStep.toInt) {ev : EventReport}
    (passed : p.handler.addEventCheck p.clock ev = 0)
    (fits : TimeFits p.handler.conf p.clock ev.timestamp) :
    start < p.handler.conf.niceStep ev.timestamp := by
  have notOld := (EventHandler.addEventCheck_eq_zero_iff.mp passed).2
  have reached := ahead.reached
  rw [regular.fixed] at *
  have young := (not_too_old_iff fits).mp notOld
  have after := lt_niceStep stepPos linger fits
  rw [Int64.lt_iff_toInt_lt]
  omega

theorem Ahead.accept (ahead : Ahead start p) {ev : EventReport}
    (behind : start < p.handler.conf.niceStep ev.timestamp) : Ahead start (p.accept ev) where
  reached := ahead.reached
  opened key member := by
    rcases EventHandler.mem_keys_doAddEvent.mp member with rfl | opened
    · exact behind
    · exact ahead.opened key opened
  waiting := ahead.waiting
  moving := ahead.moving

/-- A flush moves slots behind the start that have ended. -/
theorem Ahead.flush (ahead : Ahead start p) (regular : Regular conf p)
    (linger : 0 < conf.eventLinger.toInt) : Ahead start (step p .lingerCheck) where
  reached := ahead.reached
  opened key member := ahead.opened key (EventHandler.mem_keys_of_lingerCheckRun member)
  waiting := ahead.waiting
  moving slot member := by
    have parts : slot ∈ (p.handler.processQueue ++ (p.handler.lingerCheckRun p.clock).1) ++
        p.tasks.flatten := member
    have positive : 0 < p.handler.conf.eventLinger.toInt := regular.fixed ▸ linger
    rw [List.mem_append, List.mem_append] at parts
    rcases parts with (queued | moved) | inTask
    · exact ahead.moving slot (List.mem_append_left _ queued)
    · obtain ⟨key, inEvents, due⟩ := (mem_lingerCheckRun_iff regular.roomy.1).mp moved
      have named : slot.timestamp = key := regular.keyed (key, slot) inEvents
      rw [named]
      refine ⟨ahead.opened key (List.mem_map_of_mem inEvents), Int64.le_iff_toInt_le.mpr ?_⟩
      change key.toInt ≤ p.clock.toInt
      omega
    · exact ahead.moving slot (List.mem_append_right _ inTask)

/-- The queued slots are handed over, bundled into tasks or left where they are. -/
theorem Ahead.run (ahead : Ahead start p) : Ahead start (step p .run) ∧
    ∀ slot ∈ p.handedBy .run, Between start p slot.timestamp := by
  rw [handedBy]
  rcases p.runThread_cases with ⟨point, same⟩ | ⟨point, vec, rest, queue, same⟩ |
    ⟨event, rest, queue, same⟩
  · simp only [Pipeline.step, same, List.drop_length]
    exact ⟨⟨ahead.reached, ahead.opened, ahead.waiting, ahead.moving⟩,
      fun slot member => absurd member List.not_mem_nil⟩
  · simp only [Pipeline.step, same, List.drop_length]
    refine ⟨⟨ahead.reached, ahead.opened, ahead.waiting, fun slot member => ?_⟩,
      fun slot member => absurd member List.not_mem_nil⟩
    refine ahead.moving slot ?_
    simp only [List.flatten_append, List.flatten_cons, List.flatten_nil, List.append_nil,
      List.mem_append] at member
    rw [← queue, List.mem_append, List.mem_append]
    tauto
  · simp only [Pipeline.step, same, List.drop_left]
    refine ⟨⟨ahead.reached, ahead.opened, ahead.waiting, fun slot member => ?_⟩, fun slot member => ?_⟩
    · refine ahead.moving slot ?_
      rw [← queue, List.mem_append, List.mem_append]
      rcases List.mem_append.mp member with queued | inTask
      · exact .inl (.inr queued)
      · exact .inr inTask
    · refine ahead.moving slot (List.mem_append_left _ ?_)
      rw [← queue]
      exact List.mem_append_left rest member

theorem Ahead.runTask (ahead : Ahead start p) (i : Nat) : Ahead start (step p (.runTask i)) ∧
    ∀ slot ∈ p.handedBy (.runTask i), Between start p slot.timestamp := by
  rw [handedBy]
  simp only [Pipeline.step]
  cases here : p.tasks[i]? with
  | none =>
      simp only [List.drop_length]
      exact ⟨ahead, fun slot member => absurd member List.not_mem_nil⟩
  | some task =>
      have inTasks := List.mem_of_getElem? here
      simp only [List.drop_left]
      refine ⟨⟨ahead.reached, ahead.opened, ahead.waiting, fun slot member => ?_⟩,
        fun slot member => ?_⟩
      · refine ahead.moving slot ?_
        rcases List.mem_append.mp member with queued | inTask
        · exact List.mem_append_left _ queued
        · obtain ⟨other, inRest, inside⟩ := List.mem_flatten.mp inTask
          exact List.mem_append_right _
            (List.mem_flatten.mpr ⟨other, List.mem_of_mem_eraseIdx inRest, inside⟩)
      · exact ahead.moving slot (List.mem_append_right _ (List.mem_flatten.mpr ⟨task, inTasks, member⟩))

theorem le_clock_step {a : Act} (orderly : Orderly p a) : p.clock ≤ (step p a).clock := by
  cases a with
  | tick now => exact orderly
  | check ev =>
      simp only [Pipeline.step]
      split
      · exact le_refl _
      · exact le_refl _
  | insert i =>
      simp only [Pipeline.step]
      split
      · exact le_refl _
      · exact le_refl _
  | addEvent ev => exact le_refl _
  | lingerCheck => exact le_refl _
  | run => exact p.sameIntake_run.clock.ge
  | runTask i => exact (p.sameIntake_runTask i).clock.ge
  | reconf conf => exact le_refl _

/-- Every step keeps what is on its way behind the start, and hands over only such
slots. -/
theorem Ahead.step (ahead : Ahead start p) (regular : Regular conf p)
    (linger : 0 < conf.eventLinger.toInt) (stepPos : 0 < conf.eventStep.toInt) {a : Act}
    (orderly : Orderly p a) :
    Ahead start (step p a) ∧ ∀ slot ∈ p.handedBy a, Between start p slot.timestamp := by
  have nothing (same : (Pipeline.step p a).handed = p.handed) :
      ∀ slot ∈ p.handedBy a, Between start p slot.timestamp := by
    rw [handedBy, same, List.drop_length]
    exact fun slot member => absurd member List.not_mem_nil
  cases a with
  | tick now =>
      have forward : p.clock ≤ now := orderly
      refine ⟨⟨ahead.reached.trans (Int64.le_iff_toInt_le.mp forward), ahead.opened, ahead.waiting,
        fun slot member => ?_⟩, nothing rfl⟩
      obtain ⟨behind, ended⟩ := ahead.moving slot member
      exact ⟨behind, ended.trans forward⟩
  | check ev =>
      by_cases passed : p.handler.addEventCheck p.clock ev = 0
      · have behind := ahead.accepted regular linger stepPos passed (orderly passed)
        simp only [Pipeline.step, passed, if_true] at nothing ⊢
        refine ⟨⟨ahead.reached, ahead.opened, fun other member => ?_, ahead.moving⟩, nothing trivial⟩
        rcases List.mem_append.mp member with member | member
        · exact ahead.waiting other member
        · exact List.mem_singleton.mp member ▸ behind
      · simp only [Pipeline.step, passed, if_false] at nothing ⊢
        exact ⟨ahead, nothing trivial⟩
  | insert i =>
      simp only [Pipeline.step] at nothing ⊢
      cases here : p.waiting[i]? with
      | none =>
          simp only [here] at nothing ⊢
          exact ⟨ahead, nothing trivial⟩
      | some ev =>
          simp only [here] at nothing ⊢
          have left : Ahead start { p with waiting := p.waiting.eraseIdx i } :=
            ⟨ahead.reached, ahead.opened,
              fun other member => ahead.waiting other (List.mem_of_mem_eraseIdx member), ahead.moving⟩
          exact ⟨left.accept (ahead.waiting ev (List.mem_of_getElem? here)), nothing rfl⟩
  | addEvent ev =>
      rw [step_addEvent] at nothing ⊢
      by_cases passed : p.handler.addEventCheck p.clock ev = 0
      · rw [if_pos passed] at nothing ⊢
        exact ⟨ahead.accept (ahead.accepted regular linger stepPos passed (orderly passed)),
          nothing rfl⟩
      · rw [if_neg passed] at nothing ⊢
        exact ⟨ahead, nothing rfl⟩
  | lingerCheck => exact ⟨ahead.flush regular linger, nothing rfl⟩
  | run => exact ahead.run
  | runTask i => exact ahead.runTask i
  | reconf conf => exact orderly.elim

end Pipeline

/-! ### A handler with its store -/

/-- A handler in operation with the LevelDB store that its records go to. `pending`
are the records of slots handed to `do_process_event` that are not stored yet. -/
structure Archive where
  pipeline : Pipeline
  store : StoreLevelDB
  pending : List EventInsert

/-- What is the same for all of a run: how `nth_element` rearranges values, the time
zone, and how ties are sorted. -/
structure Surroundings where
  nth : NthElement Int32
  localtime : Localtime
  stdSort : (EventInfo → EventInfo → Bool) → List EventInfo → List EventInfo

inductive Op where
  /-- A step of the handler, its timer, its threads and its callers. -/
  | act (a : Act)
  /-- The `i`-th record not yet stored is given to the store. -/
  | store (i : Nat) (opens puts : Bool)
  /-- A select. -/
  | select (cond : EventCond) (opens : Bool)

namespace Archive

/-- A handler just created, with a store without databases. -/
def start (service entityIdx : Bytes) (conf : EventHandlerConf) (clock : Int64)
    (filepath tablePrefix : Bytes) : Archive :=
  ⟨.start service entityIdx conf clock, .init filepath tablePrefix, []⟩

/-- The records of the slots that a step hands to `do_process_event`. -/
def produced (w : Surroundings) (p : Pipeline) (a : Act) : List EventInsert :=
  (p.handedBy a).flatMap fun slot =>
    doProcessEvent w.nth slot (statFor p.handler.service p.handler.entityIdx slot)

/-- The environment of a call at the clock of the moment. -/
def env (w : Surroundings) (s : Archive) (opens puts : Bool) : LeveldbEnv :=
  ⟨w.localtime, s.pipeline.clock, opens, puts⟩

/-- `get_event` of the handler. -/
def getEvent (w : Surroundings) (s : Archive) (cond : EventCond) (opens : Bool) :
    Int32 × EventSelect × StoreLevelDB :=
  s.store.selectEvStat w.stdSort (s.env w opens true) cond .zero
    s.pipeline.handler.conf.eventLinger.toInt64

def step (w : Surroundings) (s : Archive) : Op → Archive
  | .act a =>
      { s with
        pipeline := s.pipeline.step a
        pending := s.pending ++ produced w s.pipeline a }
  | .store i opens puts =>
      match s.pending[i]? with
      | none => s
      | some record =>
          { s with
            store := StoreLevelDB.insertStep s.store (s.env w opens puts, record)
            pending := s.pending.eraseIdx i }
  | .select cond opens => { s with store := (s.getEvent w cond opens).2.2 }

/-- As `linger_check_run` and complete processing leave the handler at the clock of
the moment: no open slot is due and nothing is on its way to the store. -/
structure Settled (s : Archive) : Prop where
  flushed : (s.pipeline.handler.lingerCheckRun s.pipeline.clock).1 = []
  processed : s.pipeline.handler.processQueue = []
  executed : s.pipeline.tasks = []
  stored : s.pending = []

instance (s : Archive) : Decidable s.Settled :=
  decidable_of_iff ((s.pipeline.handler.lingerCheckRun s.pipeline.clock).1 = [] ∧
      s.pipeline.handler.processQueue = [] ∧ s.pipeline.tasks = [] ∧ s.pending = [])
    ⟨fun ⟨flushed, processed, executed, stored⟩ => ⟨flushed, processed, executed, stored⟩,
      fun ⟨flushed, processed, executed, stored⟩ => ⟨flushed, processed, executed, stored⟩⟩

/-- The clock never goes back and stays within the ten-digit inverses, the
configuration stays, and no time computation for an accepted report leaves the
64-bit range. -/
def Orderly (s : Archive) : Op → Prop
  | .act a => Pipeline.Orderly s.pipeline a ∧ Pipeline.InTime a
  | .store _ _ _ | .select _ _ => True

instance (s : Archive) : ∀ op, Decidable (s.Orderly op)
  | .act _ => inferInstanceAs (Decidable (_ ∧ _))
  | .store _ _ _ | .select _ _ => inferInstanceAs (Decidable True)

/-- No record with a `#` in its metric is stored under a key that is cut. -/
def StoresUncut (s : Archive) : Op → Prop
  | .store i _ _ => ∀ record ∈ s.pending[i]?.toList, StoreLevelDB.Uncut record
  | .act _ | .select _ _ => True

instance (s : Archive) : ∀ op, Decidable (s.StoresUncut op)
  | .store _ _ _ => inferInstanceAs (Decidable (∀ _ ∈ _, _))
  | .act _ | .select _ _ => inferInstanceAs (Decidable True)

/-- No open slot ends at the start of a window, and no call of `add_event` between
its linger test and its insertion belongs to a slot that ends there or earlier. -/
def Clear (s : Archive) (window : Int64) : Prop :=
  window ∉ s.pipeline.handler.events.keys ∧
    ∀ ev ∈ s.pipeline.waiting, window < s.pipeline.handler.conf.niceStep ev.timestamp

instance (s : Archive) (window : Int64) : Decidable (s.Clear window) :=
  inferInstanceAs (Decidable (_ ∧ _))

/-! ### What a window keeps -/

variable {w : Surroundings} {conf : EventHandlerConf}

/-- The handler is regular and the store has its handlers in order. -/
structure Kept (conf : EventHandlerConf) (s : Archive) : Prop where
  regular : Pipeline.Regular conf s.pipeline
  named : s.store.HandlersNamed

theorem Kept.step {s : Archive} (kept : Kept conf s) (linger : 0 < conf.eventLinger.toInt)
    (stepPos : 0 < conf.eventStep.toInt) {op : Op} (orderly : s.Orderly op) :
    Kept conf (step w s op) := by
  cases op with
  | act a => exact ⟨kept.regular.step linger stepPos orderly.1 orderly.2, kept.named⟩
  | store i opens puts =>
      simp only [Archive.step]
      split
      · exact kept
      · rename_i record _
        refine ⟨kept.regular, ?_⟩
        rcases StoreLevelDB.insertEvStat_cases kept.named (s.env w opens puts, record) with
          ⟨_, same⟩ | ⟨_, inserted⟩
        · exact same.named
        · exact inserted.named
  | select cond opens =>
      exact ⟨kept.regular, (StoreLevelDB.selectEvStat_same kept.named _ _ _ _ _).named⟩

/-- Since `first`, everything on its way lies behind the start of a window, and a scan
of the window in a directory finds what it found. -/
structure Sealed (first : Archive) (path : Bytes) (cond : EventCond) (stat : EventSelect)
    (s : Archive) : Prop where
  ahead : Pipeline.Ahead stat.timestamp s.pipeline
  pending : ∀ record ∈ s.pending, Pipeline.Between stat.timestamp s.pipeline record.timestamp
  filepath : s.store.filepath = first.store.filepath
  tablePrefix : s.store.tablePrefix = first.store.tablePrefix
  scanned : StoreLevelDB.scan (s.store.content path) cond stat =
    StoreLevelDB.scan (first.store.content path) cond stat

variable {first : Archive} {path : Bytes} {cond : EventCond} {stat : EventSelect}

/-- A record behind the start changes nothing in the window. -/
theorem Sealed.store {s : Archive} (sealing : Sealed first path cond stat s) (kept : Kept conf s)
    (plain : 35 ∉ cond.metric) (lower : 0 ≤ stat.timestamp.toInt) {i : Nat} {opens puts : Bool}
    (uncut : s.StoresUncut (.store i opens puts)) :
    Sealed first path cond stat (step w s (.store i opens puts)) := by
  simp only [Archive.step]
  cases here : s.pending[i]? with
  | none => exact sealing
  | some record =>
      have member := List.mem_of_getElem? here
      obtain ⟨behind, ended⟩ := sealing.pending record member
      have others : ∀ other ∈ s.pending.eraseIdx i,
          Pipeline.Between stat.timestamp s.pipeline other.timestamp := fun other inRest =>
        sealing.pending other (List.mem_of_mem_eraseIdx inRest)
      rcases StoreLevelDB.insertEvStat_cases kept.named (s.env w opens puts, record) with
        ⟨_, same⟩ | ⟨_, inserted⟩
      · exact ⟨sealing.ahead, others, same.filepath.trans sealing.filepath,
          same.tablePrefix.trans sealing.tablePrefix, by rw [same.content, sealing.scanned]⟩
      · refine ⟨sealing.ahead, others, inserted.filepath.trans sealing.filepath,
          inserted.tablePrefix.trans sealing.tablePrefix, ?_⟩
        have upper : record.timestamp.toInt ≤ 8999999999 :=
          (Int64.le_iff_toInt_le.mp ended).trans kept.regular.clockUpper
        have hidden := StoreLevelDB.not_visible_of_after plain lower
          (uncut record (by rw [here]; exact List.mem_singleton_self record)) behind upper
        rw [inserted.content, ← sealing.scanned]
        split
        · exact StoreLevelDB.scan_insert _ hidden _
        · rfl

theorem Sealed.step {s : Archive} (sealing : Sealed first path cond stat s) (kept : Kept conf s)
    (linger : 0 < conf.eventLinger.toInt) (stepPos : 0 < conf.eventStep.toInt)
    (plain : 35 ∉ cond.metric) (lower : 0 ≤ stat.timestamp.toInt) {op : Op}
    (orderly : s.Orderly op) (uncut : s.StoresUncut op) :
    Sealed first path cond stat (step w s op) := by
  cases op with
  | act a =>
      obtain ⟨ahead, handed⟩ := sealing.ahead.step kept.regular linger stepPos orderly.1
      refine ⟨ahead, fun record member => ?_, sealing.filepath, sealing.tablePrefix, sealing.scanned⟩
      have between : Pipeline.Between stat.timestamp s.pipeline record.timestamp := by
        rcases List.mem_append.mp member with waiting | new
        · exact sealing.pending record waiting
        · obtain ⟨slot, inHanded, made⟩ := List.mem_flatMap.mp new
          rw [(StoreLevelDB.of_mem_records made).2.2]
          exact handed slot inHanded
      exact ⟨between.1, between.2.trans (Pipeline.le_clock_step orderly.1)⟩
  | store i opens puts => exact sealing.store kept plain lower uncut
  | select cond' opens =>
      have same := StoreLevelDB.selectEvStat_same kept.named w.stdSort (s.env w opens true) cond' .zero
        s.pipeline.handler.conf.eventLinger.toInt64
      exact ⟨sealing.ahead, sealing.pending, same.filepath.trans sealing.filepath,
        same.tablePrefix.trans sealing.tablePrefix, (congrArg (StoreLevelDB.scan · cond stat)
          (same.content path)).trans sealing.scanned⟩

/-- A window starts at most where the linger time before the clock starts. -/
theorem effectiveStart_le {now lingerHint : Int64} (cond : EventCond)
    (fits : Fits64 (now.toInt - lingerHint.toInt)) :
    (StoreLevelDB.effectiveStart now lingerHint cond).toInt + lingerHint.toInt ≤ now.toInt := by
  have bound : StoreLevelDB.effectiveStart now lingerHint cond ≤ now - lingerHint := by
    unfold StoreLevelDB.effectiveStart
    split
    · exact min_le_left _ _
    · exact le_refl _
  rw [Int64.le_iff_toInt_le, toInt_sub_of_fits fits] at bound
  omega

/-- A settled handler with nothing at the start of a window has nothing before it. -/
theorem Settled.sealed {s : Archive} (settled : s.Settled) (kept : Kept conf s)
    (linger : 0 < conf.eventLinger.toInt) (path : Bytes) (cond : EventCond)
    (clear : s.Clear (StoreLevelDB.effectiveStart s.pipeline.clock conf.eventLinger.toInt64 cond)) :
    Sealed s path cond (StoreLevelDB.prepare s.pipeline.clock conf.eventLinger.toInt64 cond .zero)
      s := by
  obtain ⟨fixed, keyed, roomy, clockLower, clockUpper⟩ := kept.regular
  set window := StoreLevelDB.effectiveStart s.pipeline.clock conf.eventLinger.toInt64 cond
  have wide := int32_bounds conf.eventLinger
  have reached : window.toInt + conf.eventLinger.toInt ≤ s.pipeline.clock.toInt := by
    have bound := @effectiveStart_le s.pipeline.clock conf.eventLinger.toInt64 cond (by
      rw [Int32.toInt_toInt64]
      exact ⟨by omega, by omega⟩)
    rwa [Int32.toInt_toInt64] at bound
  have opened (key : Int64) (member : key ∈ s.pipeline.handler.events.keys) : window < key := by
    have young : ¬ key.toInt + conf.eventLinger.toInt < s.pipeline.clock.toInt := by
      intro due
      obtain ⟨slot, found⟩ := OrdMap.mem_keys_iff.mp member
      have moved : slot ∈ (s.pipeline.handler.lingerCheckRun s.pipeline.clock).1 :=
        (mem_lingerCheckRun_iff roomy.1).mpr ⟨key, OrdMap.mem_entries_iff.mpr found, fixed ▸ due⟩
      rw [settled.flushed] at moved
      exact List.not_mem_nil moved
    have apart : window ≠ key := fun same => clear.1 (same ▸ member)
    refine lt_of_le_of_ne (Int64.le_iff_toInt_le.mpr ?_) apart
    omega
  refine ⟨⟨?_, opened, clear.2, fun slot member => ?_⟩, fun record member => ?_, rfl, rfl, rfl⟩
  · rw [fixed]
    exact reached
  · rw [settled.processed, settled.executed] at member
    exact absurd member List.not_mem_nil
  · rw [settled.stored] at member
    exact absurd member List.not_mem_nil

/-- The directory that a select opens. -/
def directory (w : Surroundings) (s : Archive) (cond : EventCond) : Bytes :=
  s.store.fullpath cond.service (getTableSuffix w.localtime s.pipeline.clock)

/-- A select of a sealed window in the same month gives the answer it gave. -/
theorem Sealed.answer {first second : Archive} (kept : Kept conf first) (kept' : Kept conf second)
    (sealing : Sealed first (first.directory w cond) cond
      (StoreLevelDB.prepare first.pipeline.clock conf.eventLinger.toInt64 cond .zero) second)
    (sameStart : StoreLevelDB.effectiveStart second.pipeline.clock conf.eventLinger.toInt64 cond =
      StoreLevelDB.effectiveStart first.pipeline.clock conf.eventLinger.toInt64 cond)
    (sameMonth : getTableSuffix w.localtime second.pipeline.clock =
      getTableSuffix w.localtime first.pipeline.clock) :
    (second.getEvent w cond true).1 = (first.getEvent w cond true).1 ∧
      (second.getEvent w cond true).2.1 = (first.getEvent w cond true).2.1 := by
  have path : second.directory w cond = first.directory w cond := by
    rw [directory, directory, StoreLevelDB.fullpath, StoreLevelDB.fullpath, sameMonth,
      sealing.filepath, sealing.tablePrefix]
  unfold getEvent
  rw [kept'.regular.fixed, kept.regular.fixed]
  refine StoreLevelDB.selectEvStat_congr kept.named kept'.named w.stdSort rfl rfl sameStart ?_
  change StoreLevelDB.scan (second.store.content (second.directory w cond)) cond _ =
    StoreLevelDB.scan (first.store.content (first.directory w cond)) cond _
  rw [path]
  exact sealing.scanned

/-- In every run in which the clock never goes back and no time computation
overflows: two selects whose windows start at the same time give the same answer, if
at the first one the handler is settled and clear of the start of the window, both
clocks show the same month, and in between no record with a `#` in its metric is
stored under a key that is cut. -/
theorem reads_repeatable (w : Surroundings) (service entityIdx : Bytes) (conf : EventHandlerConf)
    (clock : Int64) (filepath tablePrefix : Bytes) (before between : List Op) (cond : EventCond)
    (linger : 0 < conf.eventLinger.toInt) (stepPos : 0 < conf.eventStep.toInt)
    (clockLower : 0 ≤ clock.toInt) (clockUpper : clock.toInt ≤ 8999999999)
    (orderly : Along (step w) Orderly
      (start service entityIdx conf clock filepath tablePrefix) (before ++ between))
    (plain : 35 ∉ cond.metric) :
    let first := run (step w) (start service entityIdx conf clock filepath tablePrefix) before
    let second := run (step w) first between
    let window := StoreLevelDB.effectiveStart first.pipeline.clock conf.eventLinger.toInt64 cond
    0 ≤ window.toInt →
    StoreLevelDB.effectiveStart second.pipeline.clock conf.eventLinger.toInt64 cond = window →
    first.Settled → first.Clear window → Along (step w) StoresUncut first between →
    getTableSuffix w.localtime second.pipeline.clock =
      getTableSuffix w.localtime first.pipeline.clock →
    (second.getEvent w cond true).1 = (first.getEvent w cond true).1 ∧
      (second.getEvent w cond true).2.1 = (first.getEvent w cond true).2.1 := by
  intro first second window windowLower sameStart settled clear uncut sameMonth
  obtain ⟨early, late⟩ := along_append.mp orderly
  have keptStart : Kept conf (start service entityIdx conf clock filepath tablePrefix) :=
    ⟨Pipeline.regular_start service entityIdx conf clockLower clockUpper,
      StoreLevelDB.init_named filepath tablePrefix⟩
  have kept : Kept conf first :=
    early.invariant (fun _ _ kept ok => kept.step linger stepPos ok) keptStart
  have sealing := settled.sealed kept linger (first.directory w cond) cond clear
  have both := (late.and uncut).invariant (P := fun s => Kept conf s ∧
      Sealed first (first.directory w cond) cond
        (StoreLevelDB.prepare first.pipeline.clock conf.eventLinger.toInt64 cond .zero) s)
    (fun s op inv ok => ⟨inv.1.step linger stepPos ok.1,
      inv.2.step inv.1 linger stepPos plain windowLower ok.1 ok.2⟩) ⟨kept, sealing⟩
  exact both.2.answer kept both.1 sameStart sameMonth

/-! ### A slot at the start of a window -/

/-- February 2019, with a full sort for `nth_element`. -/
def february : Surroundings := ⟨.bySorting Int32, fun _ => ⟨119, 1⟩, fun _ info => info⟩

/-- The handler thread takes one slot and its only record is stored. -/
def processOne : List Op := [.act .run, .act .run, .act .run, .store 0 true true]

/-- A report of one event. -/
def report (ts msgid : Int64) : Op :=
  .act (.addEvent ⟨ts, bytes "svc", [], [⟨msgid, bytes "m", bytes "T", 7⟩]⟩)

/-- A query of the three seconds up to `tmStart`. -/
def upTo (tmStart : Int64) : EventCond :=
  ⟨3, bytes "svc", bytes "m", tmStart, [], [], .none, .none, .desc, 0⟩

/-- A report between two selects. -/
theorem reads_repeatable_later_report :
    let first := run (step february) (start (bytes "svc") [] ⟨10, 3, 10⟩ 5 (bytes "db") (bytes "h"))
      ([report 1 1, .act (.tick 20), .act .lingerCheck] ++ processOne)
    let second := run (step february) first
      ([report 15 2, .act (.tick 40), .act .lingerCheck] ++ processOne)
    (second.getEvent february (upTo 5) true).1 = (first.getEvent february (upTo 5) true).1 ∧
      (second.getEvent february (upTo 5) true).2.1 = (first.getEvent february (upTo 5) true).2.1 :=
  reads_repeatable february (bytes "svc") [] ⟨10, 3, 10⟩ 5 (bytes "db") (bytes "h") _ _ (upTo 5)
    (by decide) (by decide) (by decide) (by decide) (by decide +kernel) (by decide)
    (by decide +kernel) (by decide +kernel) (by decide +kernel) (by decide +kernel)
    (by decide +kernel) (by decide +kernel)

/-- The slot 3 is open at 13, as `3 + 10 < 13` fails, but a window may start at
`13 - 10`. It is flushed at 14, and the same window then has one event more. -/
theorem boundary_slot_appears :
    let first := run (step february) (start (bytes "svc") [] ⟨10, 3, 10⟩ 5 (bytes "db") (bytes "h"))
      [report 1 1, .act (.tick 13), .act .lingerCheck]
    let second := run (step february) first ([.act (.tick 14), .act .lingerCheck] ++ processOne)
    first.Settled ∧ second.Settled ∧
      StoreLevelDB.effectiveStart first.pipeline.clock 10 (upTo 3) = 3 ∧
      StoreLevelDB.effectiveStart second.pipeline.clock 10 (upTo 3) = 3 ∧
      (first.getEvent february (upTo 3) true).2.1.summary.count = 0 ∧
      (second.getEvent february (upTo 3) true).2.1.summary.count = 1 := by
  decide +kernel

end Archive

end Heracles.Business
