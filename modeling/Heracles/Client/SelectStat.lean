import Heracles.Business.Groups
import Heracles.Business.ServiceNames
import Heracles.Client.HeraclesClient
import Heracles.Rpc.MonitorTaskService

/-!
The querying side of the client.

`select_stat` sends a query through `rpc_event_select` and sorts the lines itself
when the server has not: the server sorts and cuts for a limit, the client sorts
for the limit 0. The remote call is a parameter; `callRead` is the service at its
other end, with messages that arrive as they were sent. `select_limit` says that
both ways give the same lines.
-/

namespace Heracles.Client

open Heracles.Base
open Heracles.Business
open Heracles.Rpc

/-! ### The call -/

/-- The numbers of the enumerations, as the request carries them. -/
def groupTypeCode : GroupType → Int32
  | .none => 0
  | .byTimestamp => 1
  | .byTag => 2

def orderByTypeCode : OrderByType → Int32
  | .none => 0
  | .timestamp => 1
  | .tag => 2
  | .count => 3
  | .sum => 4
  | .avg => 5
  | .min => 6
  | .max => 7
  | .p10 => 8
  | .p50 => 9
  | .p90 => 10

def orderTypeCode : Business.OrderType → Int32
  | .desc => 0
  | .asc => 1

/-- The query in a request. -/
def selectOf (version : Bytes) (cond : EventCond) : ReadSelect where
  version := version
  service := cond.service
  metric := cond.metric
  tmInterval := cond.tmInterval
  tmStart := cond.tmStart
  entityIdx := cond.entityIdx
  tag := cond.tag
  groupby := groupTypeCode cond.groupby
  orderby := orderByTypeCode cond.orderby
  orders := orderTypeCode cond.orders
  limit := cond.limit

/-- The query of a response that carries none. -/
def noSelect : SelectResponse := ⟨[], [], 0, [], 0, 0, [], [], .zero, []⟩

/-- A received line: only the field grouped by is kept. -/
def receivedItem (groupby : GroupType) (item : EventInfo) : EventInfo :=
  match groupby with
  | .none => { item with timestamp := 0, tag := [] }
  | .byTimestamp => { item with tag := [] }
  | .byTag => { item with timestamp := 0 }

/-- What is copied from a response. The lines stay as they are without grouping. -/
def received (cond : EventCond) (select : SelectResponse) (respInfo : EventSelect) : EventSelect where
  timestamp := select.timestamp
  tmInterval := select.tmInterval
  service := select.service
  metric := select.metric
  entityIdx := select.entityIdx
  tag := select.tag
  summary :=
    { select.summary with timestamp := respInfo.summary.timestamp, tag := respInfo.summary.tag }
  info :=
    if cond.groupby ≠ .none then select.info.map (receivedItem cond.groupby) else respInfo.info

/-- The parameter check of `rpc_event_select`. -/
def SelectParam (version : Bytes) (cond : EventCond) : Prop :=
  version ≠ [] ∧ cond.service ≠ [] ∧ cond.metric ≠ [] ∧ ¬cond.tmInterval < 0

instance (version : Bytes) (cond : EventCond) : Decidable (SelectParam version cond) :=
  inferInstanceAs (Decidable (_ ∧ _))

/-- `rpc_event_select`, where `call` is the remote call: without a response it has
failed. -/
def rpcEventSelect (call : ReadRequest → Option ReadResponse) (version : Bytes) (cond : EventCond)
    (respInfo : EventSelect) : Int32 × EventSelect :=
  if SelectParam version cond then
    match call ⟨none, some (selectOf version cond), none, none⟩ with
    | none => (-1, respInfo)
    | some response =>
        if response.code ≠ 0 then (-1, respInfo)
        else (0, received cond (response.select.getD noSelect) respInfo)
  else (-1, respInfo)

/-- The condition with the client's service, where it names none. -/
def completed (c : HeraclesClientImpl) (cond : EventCond) : EventCond :=
  if cond.service = [] then { cond with service := c.service } else cond

/-- `select_stat`; it completes the condition by the service of the client. `call`
is missing without a client agent. -/
def HeraclesClientImpl.selectStat (c : HeraclesClientImpl)
    (call : Option (ReadRequest → Option ReadResponse))
    (stdSort : (EventInfo → EventInfo → Bool) → List EventInfo → List EventInfo) (version : Bytes)
    (cond : EventCond) (stat : EventSelect) : Int32 × EventCond × EventSelect :=
  match call with
  | none => (-1, cond, stat)
  | some call =>
      let cond := completed c cond
      let (code, stat) := rpcEventSelect call version cond stat
      if code ≠ 0 then (code, cond, stat)
      else if cond.orderby ≠ .none ∧ cond.limit = 0 ∧ stat.info ≠ [] then
        (0, cond, { stat with info := Sort.doSort stdSort stat.info cond.orderby cond.orders })
      else (0, cond, stat)

/-! ### The service -/

/-- The service at the other end of a call: a request that is rejected or
abandoned brings no response. -/
def callRead (repos : EventReposIf) (request : ReadRequest) : Option ReadResponse :=
  match MonitorTaskService.readRequest repos request with
  | .reply response => some response
  | .reject => none
  | .abandon _ => none

/-- A repository whose queries the server answers. -/
def serving (others : EventReposIf) (server : Server) (env : ReadEnv) : EventReposIf :=
  { others with
    getEvent := fun version cond =>
      ((server.getEvent env version cond).1, (server.getEvent env version cond).2.1) }

/-- A condition arrives as it was sent. -/
theorem condOf_selectOf (version : Bytes) (cond : EventCond) :
    condOf (selectOf version cond) = .ok cond := by
  have groupby : groupTypeOf (groupTypeCode cond.groupby) = some cond.groupby := by
    cases cond.groupby with
    | none => decide
    | byTimestamp => decide
    | byTag => decide
  have orders : orderTypeOf (orderTypeCode cond.orders) = some cond.orders := by
    cases cond.orders with
    | desc => decide
    | asc => decide
  have orderby : orderByTypeOf (orderByTypeCode cond.orderby) = some cond.orderby := by
    cases cond.orderby <;> decide
  simp only [condOf, selectOf, groupby, orderby, orders]

/-- A query that passes the check of the client fails with the server's and has
the server's lines otherwise. -/
theorem rpcEventSelect_callRead (repos : EventReposIf) {version : Bytes} {cond : EventCond}
    (param : SelectParam version cond) (respInfo : EventSelect) :
    rpcEventSelect (callRead repos) version cond respInfo =
      if (repos.getEvent version cond).1 ≠ 0 then (-1, respInfo)
      else (0, received cond
        (MonitorTaskService.selectResponse (selectOf version cond) (repos.getEvent version cond).2)
        respInfo) := by
  rw [rpcEventSelect, if_pos param, callRead, MonitorTaskService.readRequest]
  have sent : (selectOf version cond).version = version := rfl
  simp only [Option.isSome_none, Bool.false_eq_true, if_false, condOf_selectOf, sent]
  by_cases failed : (repos.getEvent version cond).1 ≠ 0
  · rw [if_pos failed, if_pos failed]
  · rw [if_neg failed, if_neg failed]
    rfl

/-! ### Lines that the server leaves unsorted -/

open StoreLevelDB

/-- A query with another limit. -/
abbrev limited (cond : EventCond) (limit : Int32) : EventCond := { cond with limit := limit }

theorem receivedItem_byTag {line : EventInfo} (unset : line.timestamp = 0) :
    receivedItem .byTag line = line := by
  rw [receivedItem, ← unset]

theorem receivedItem_byTimestamp {line : EventInfo} (unset : line.tag = []) :
    receivedItem .byTimestamp line = line := by
  rw [receivedItem, ← unset]

/-- The lines of a grouped select have no other key than the one grouped by. -/
theorem receivedItem_line {s : StoreLevelDB} {env : LeveldbEnv} {cond : EventCond}
    {stat : EventSelect} (fresh : stat.info = []) :
    (∀ line ∈ (s.selectEvStatByTag env cond stat).2.1.info, receivedItem .byTag line = line) ∧
      ∀ line ∈ (s.selectEvStatByTimestamp env cond stat).2.1.info,
        receivedItem .byTimestamp line = line := by
  rw [selectEvStatByTag, selectEvStatByTimestamp, selectWith_matched, selectWith_matched]
  split
  · rw [fresh]
    exact ⟨fun _ none => absurd none List.not_mem_nil, fun _ none => absurd none List.not_mem_nil⟩
  · simp only [foldByTag, foldByTimestamp, fresh, List.nil_append]
    constructor
    · intro line member
      obtain ⟨⟨tag, items⟩, _, rfl⟩ := List.mem_map.mp member
      exact receivedItem_byTag (collectGroup_names _ items).1
    · intro line member
      obtain ⟨⟨timestamp, items⟩, _, rfl⟩ := List.mem_map.mp member
      exact receivedItem_byTimestamp (collectGroup_names _ items).2

/-- The limit plays no part in what a select folds. -/
theorem selectWith_limited (item : Entry → EventInfo)
    (fold : List EventInfo → EventSelect → EventSelect) (s : StoreLevelDB) (env : LeveldbEnv)
    (cond : EventCond) (a b : Int32) (stat : EventSelect) :
    selectWith item fold s env (limited cond a) stat =
      selectWith item fold s env (limited cond b) stat := by
  have scanned (db : Database) : scan db (limited cond a) stat = scan db (limited cond b) stat := by
    rw [scan_eq_filterMap, scan_eq_filterMap]
    rfl
  unfold selectWith
  simp only [scanned]

section Server

variable {stdSort : (EventInfo → EventInfo → Bool) → List EventInfo → List EventInfo}
  {cond : EventCond} {limit : Int32}

/-- Sorting and cutting, for a positive limit. -/
theorem orderInfo_limited (sorts : SortsDistinct stdSort) (ordered : cond.orderby ≠ .none)
    (positive : 0 < limit) {info : List EventInfo} (distinct : Sort.DistinctKeys cond.orderby info) :
    orderInfo stdSort (limited cond limit) info =
      (Sort.doSort stdSort info cond.orderby cond.orders).take (sizeOfInt limit) := by
  have limit_ne : limit ≠ 0 := fun zero => by
    rw [zero] at positive
    exact absurd positive (by decide)
  rw [orderInfo, if_neg (not_or.mpr ⟨ordered, limit_ne⟩)]
  by_cases none : info = []
  · have sorted := Sort.doSort_perm sorts distinct cond.orders
    rw [none] at sorted ⊢
    rw [if_pos rfl, sorted.eq_nil, List.take_nil]
  · rw [if_neg none]
    dsimp only
    split
    · rfl
    · rename_i short
      exact (List.take_of_length_le (not_lt.mp short)).symm

theorem orderInfo_unlimited (info : List EventInfo) :
    orderInfo stdSort (limited cond 0) info = info := if_pos (.inr rfl)

/-- What the limit does to a select. -/
structure Cut (stdSort : (EventInfo → EventInfo → Bool) → List EventInfo → List EventInfo)
    (cond : EventCond) (limit : Int32) (whole cut : Int32 × EventSelect) : Prop where
  code : cut.1 = whole.1
  groups : ∀ line ∈ whole.2.info, receivedItem cond.groupby line = line
  info : Sort.DistinctKeys cond.orderby whole.2.info → cut.2.info =
    (Sort.doSort stdSort whole.2.info cond.orderby cond.orders).take (sizeOfInt limit)

theorem Cut.none (sorts : SortsDistinct stdSort) (cond : EventCond) (limit : Int32) (code : Int32) :
    Cut stdSort cond limit (code, .zero) (code, .zero) := by
  refine ⟨rfl, fun _ none => absurd none List.not_mem_nil, fun distinct => ?_⟩
  rw [(Sort.doSort_perm sorts distinct cond.orders).eq_nil, List.take_nil]
  rfl

/-- A select with a limit gives the first lines of what it gives without one, sorted. -/
theorem selectEvStat_cut (sorts : SortsDistinct stdSort) (s : StoreLevelDB) (env : LeveldbEnv)
    (grouped : cond.groupby ≠ .none) (ordered : cond.orderby ≠ .none) (positive : 0 < limit)
    (lingerHint : Int64) :
    let whole := s.selectEvStat stdSort env (limited cond 0) .zero lingerHint
    let cut := s.selectEvStat stdSort env (limited cond limit) .zero lingerHint
    Cut stdSort cond limit (whole.1, whole.2.1) (cut.1, cut.2.1) := by
  unfold selectEvStat
  by_cases anonymous : cond.service = []
  · rw [if_pos anonymous, if_pos anonymous]
    exact Cut.none sorts cond limit (-1)
  · rw [if_neg anonymous, if_neg anonymous]
    have lines := @receivedItem_line s env (limited cond 0)
      (prepare env.now lingerHint (limited cond 0) .zero) rfl
    have same : prepare env.now lingerHint (limited cond limit) .zero =
        prepare env.now lingerHint (limited cond 0) .zero := rfl
    cases groupby : cond.groupby with
    | none => exact absurd groupby grouped
    | byTimestamp =>
        simp only [same, selectEvStatByTimestamp,
          selectWith_limited _ _ s env cond limit 0, orderInfo_unlimited]
        exact ⟨rfl, groupby ▸ lines.2, orderInfo_limited sorts ordered positive⟩
    | byTag =>
        simp only [same, selectEvStatByTag,
          selectWith_limited _ _ s env cond limit 0, orderInfo_unlimited]
        exact ⟨rfl, groupby ▸ lines.1, orderInfo_limited sorts ordered positive⟩

/-- The requests of a service and an entity go to the LevelDB store. -/
def OnLevelDB (server : Server) (env : ReadEnv) (service entityIdx : Bytes) : Prop :=
  ∀ h ∈ (server.repos.findCreateEventHandler env.init service entityIdx).1,
    h.storeType = bytes "leveldb"

instance (server : Server) (env : ReadEnv) (service entityIdx : Bytes) :
    Decidable (OnLevelDB server env service entityIdx) := inferInstanceAs (Decidable (∀ _ ∈ _, _))

theorem getEvent_cut {server : Server} {env : ReadEnv} (sorts : SortsDistinct env.stdSort)
    (onLevelDB : OnLevelDB server env cond.service cond.entityIdx) (grouped : cond.groupby ≠ .none)
    (ordered : cond.orderby ≠ .none) (positive : 0 < limit) (version : Bytes) :
    let whole := server.getEvent env version (limited cond 0)
    let cut := server.getEvent env version (limited cond limit)
    Cut env.stdSort cond limit (whole.1, whole.2.1) (cut.1, cut.2.1) := by
  unfold Server.getEvent EventRepos.getEvent
  by_cases param : EventRepos.GetEventParam version cond
  · rw [if_pos (show EventRepos.GetEventParam version (limited cond 0) from param),
      if_pos (show EventRepos.GetEventParam version (limited cond limit) from param)]
    dsimp only
    unfold OnLevelDB at onLevelDB
    revert onLevelDB
    generalize server.repos.findCreateEventHandler env.init cond.service cond.entityIdx = got
    obtain ⟨handler, repos⟩ := got
    intro onLevelDB
    cases handler with
    | none => exact Cut.none sorts cond limit (-1)
    | some h =>
        simp only [Server.handlerGetEvent, if_pos (onLevelDB h rfl)]
        exact selectEvStat_cut sorts server.leveldb env.leveldb grouped ordered positive _
  · rw [if_neg (show ¬ EventRepos.GetEventParam version (limited cond 0) from param),
      if_neg (show ¬ EventRepos.GetEventParam version (limited cond limit) from param)]
    exact Cut.none sorts cond limit (-1)

end Server

theorem completed_limited (c : HeraclesClientImpl) (cond : EventCond) (limit : Int32) :
    completed c (limited cond limit) = limited (completed c cond) limit := by
  unfold completed
  split
  · rfl
  · rfl

theorem completed_fields (c : HeraclesClientImpl) (cond : EventCond) :
    (completed c cond).groupby = cond.groupby ∧ (completed c cond).orderby = cond.orderby ∧
      (completed c cond).orders = cond.orders ∧ (completed c cond).limit = cond.limit ∧
      (completed c cond).entityIdx = cond.entityIdx := by
  unfold completed
  split
  · exact ⟨rfl, rfl, rfl, rfl, rfl⟩
  · exact ⟨rfl, rfl, rfl, rfl, rfl⟩

section Client

variable (c : HeraclesClientImpl) (repos : EventReposIf) (version : Bytes) (cond : EventCond)
  (stat : EventSelect)
  (clientSort : (EventInfo → EventInfo → Bool) → List EventInfo → List EventInfo)

/-- The query is sent and the server answers it with 0. -/
def Answered (query : EventCond) : Prop :=
  SelectParam version query ∧ (repos.getEvent version query).1 = 0

theorem selectStat_failed (failed : ¬ Answered repos version (completed c cond)) :
    (c.selectStat (some (callRead repos)) clientSort version cond stat).1 = -1 := by
  have refused : ¬ (-1 : Int32) = 0 := by decide
  have rpc : rpcEventSelect (callRead repos) version (completed c cond) stat = (-1, stat) := by
    by_cases param : SelectParam version (completed c cond)
    · rw [rpcEventSelect_callRead repos param, if_pos fun zero => failed ⟨param, zero⟩]
    · rw [rpcEventSelect, if_neg param]
  unfold HeraclesClientImpl.selectStat
  simp only [rpc, ne_eq, refused, not_false_eq_true, if_true]

/-- The lines that the client copies from an answer. -/
def copied (query : EventCond) : List EventInfo :=
  (repos.getEvent version query).2.info.map (receivedItem query.groupby)

/-- The lines of an answered query, as the client hands them out. -/
theorem selectStat_answered (answered : Answered repos version (completed c cond))
    (grouped : cond.groupby ≠ .none) :
    (c.selectStat (some (callRead repos)) clientSort version cond stat).1 = 0 ∧
    (c.selectStat (some (callRead repos)) clientSort version cond stat).2.2.info =
      if cond.orderby ≠ .none ∧ cond.limit = 0 ∧ copied repos version (completed c cond) ≠ [] then
        Sort.doSort clientSort (copied repos version (completed c cond)) cond.orderby cond.orders
      else copied repos version (completed c cond) := by
  obtain ⟨groupby, orderby, orders, limit, _⟩ := completed_fields c cond
  have rpc := rpcEventSelect_callRead repos answered.1 stat
  rw [if_neg (not_not.mpr answered.2)] at rpc
  have lines : (received (completed c cond)
      (MonitorTaskService.selectResponse (selectOf version (completed c cond))
        (repos.getEvent version (completed c cond)).2) stat).info =
      copied repos version (completed c cond) := by
    rw [received, groupby, if_pos grouped, copied, groupby]
    rfl
  unfold HeraclesClientImpl.selectStat
  simp only [rpc, lines, orderby, orders, limit, ne_eq, not_true_eq_false, if_false]
  split
  · exact ⟨rfl, rfl⟩
  · exact ⟨rfl, lines⟩

end Client

/-- A query with a positive limit brings the first lines of what the same query
brings with the limit 0, when the groups have different sort keys. -/
theorem select_limit (c : HeraclesClientImpl) (others : EventReposIf) (server : Server)
    (env : ReadEnv) (version : Bytes) (cond : EventCond) (stat : EventSelect)
    {clientSort : (EventInfo → EventInfo → Bool) → List EventInfo → List EventInfo}
    {limit : Int32} (serverSorts : SortsDistinct env.stdSort)
    (clientSorts : SortsDistinct clientSort) (grouped : cond.groupby ≠ .none)
    (ordered : cond.orderby ≠ .none) (positive : 0 < limit)
    (onLevelDB : OnLevelDB server env (completed c cond).service cond.entityIdx)
    (distinct : Sort.DistinctKeys cond.orderby
      (server.getEvent env version (limited (completed c cond) 0)).2.1.info) :
    let call := some (callRead (serving others server env))
    let whole := c.selectStat call clientSort version (limited cond 0) stat
    let cut := c.selectStat call clientSort version (limited cond limit) stat
    cut.1 = whole.1 ∧ (whole.1 = 0 → cut.2.2.info = whole.2.2.info.take limit.toInt.toNat) := by
  intro call whole cut
  obtain ⟨groupby, orderby, orders, _, entityIdx⟩ := completed_fields c cond
  have limit_ne : limit ≠ 0 := fun zero => by
    rw [zero] at positive
    exact absurd positive (by decide)
  have size : sizeOfInt limit = limit.toInt.toNat := by
    have nonneg : 0 ≤ limit.toInt := (Int32.lt_iff_toInt_lt.mp positive).le
    rw [sizeOfInt, toNat_unsigned, if_pos nonneg]
  have limits : Cut env.stdSort (completed c cond) limit _ _ := getEvent_cut serverSorts
    (by rwa [entityIdx]) (by rwa [groupby]) (by rwa [orderby]) positive version
  rw [← orderby] at distinct
  set repos := serving others server env with repos_def
  set lines := (server.getEvent env version (limited (completed c cond) 0)).2.1.info with lines_def
  set sorted := Sort.doSort env.stdSort lines (completed c cond).orderby (completed c cond).orders
    with sorted_def
  have copiedWhole : copied repos version (limited (completed c cond) 0) = lines :=
    (List.map_congr_left limits.groups).trans (List.map_id lines)
  have copiedCut : copied repos version (limited (completed c cond) limit) =
      sorted.take (sizeOfInt limit) := by
    have cutLines : (server.getEvent env version (limited (completed c cond) limit)).2.1.info =
        sorted.take (sizeOfInt limit) := limits.info distinct
    have kept : ∀ line ∈ sorted.take (sizeOfInt limit),
        receivedItem (completed c cond).groupby line = line := fun line member =>
      limits.groups line ((Sort.doSort_perm serverSorts distinct _).subset
        (List.mem_of_mem_take member))
    exact (congrArg _ cutLines).trans ((List.map_congr_left kept).trans (List.map_id _))
  by_cases answered : Answered repos version (limited (completed c cond) 0)
  · have answeredCut : Answered repos version (limited (completed c cond) limit) :=
      ⟨answered.1, limits.code.trans answered.2⟩
    rw [← completed_limited] at answered answeredCut copiedWhole copiedCut
    have wholeLines := selectStat_answered c repos version (limited cond 0) stat clientSort answered
      grouped
    have cutLines := selectStat_answered c repos version (limited cond limit) stat clientSort
      answeredCut grouped
    refine ⟨cutLines.1.trans wholeLines.1.symm, fun _ => ?_⟩
    rw [cutLines.2, if_neg fun unlimited => limit_ne unlimited.2.1, copiedCut, size]
    refine congrArg (List.take _) ?_
    rw [wholeLines.2, copiedWhole]
    by_cases none : lines = []
    · rw [if_neg fun some => some.2.2 none, sorted_def]
      have permuted := Sort.doSort_perm serverSorts distinct (completed c cond).orders
      rw [none] at permuted ⊢
      exact permuted.eq_nil
    · rw [if_pos ⟨ordered, rfl, none⟩, sorted_def, Sort.doSort_eq serverSorts clientSorts distinct,
        orderby, orders]
  · have answeredCut : ¬ Answered repos version (limited (completed c cond) limit) := fun other =>
      answered ⟨other.1, limits.code.symm.trans other.2⟩
    rw [← completed_limited] at answered answeredCut
    have wholeCode := selectStat_failed c repos version (limited cond 0) stat clientSort answered
    have cutCode := selectStat_failed c repos version (limited cond limit) stat clientSort answeredCut
    refine ⟨cutCode.trans wholeCode.symm, fun zero => ?_⟩
    rw [wholeCode] at zero
    exact absurd zero (by decide)

/-! Two tags of one metric, stored under LevelDB and asked for in descending order
of their counts. -/

private def tagsEnv : LeveldbEnv := ⟨fun _ => ⟨119, 1⟩, 1550000100, true, true⟩

private def tagRecord (tag : Bytes) (count : Int32) : EventInsert :=
  ⟨bytes "svc", [], 1550000000, 10, bytes "m", tag, count, 15, 5, 4, 6, 4, 5, 6⟩

private def tagsServer : Server :=
  ⟨.ofDefault 10, run insertStep (.init (bytes "store") (bytes "t"))
    [(tagsEnv, tagRecord (bytes "a") 3), (tagsEnv, tagRecord (bytes "b") 5)]⟩

private def sortingEnv : ReadEnv :=
  ⟨EventRepos.allWell 0, tagsEnv, fun cmp l => l.insertionSort fun a b => cmp a b = true,
    fun _ _ => (-1, .zero), fun _ => none⟩

private def tagsClient : HeraclesClientImpl := .fresh ⟨true, 100, by decide⟩ (bytes "svc") []

private def byCount : EventCond := ⟨3600, [], bytes "m", 0, [], [], .byTag, .count, .desc, 0⟩

theorem select_limit_two_tags :
    let call := some (callRead (serving emptyRepos tagsServer sortingEnv))
    let whole := tagsClient.selectStat call sortingEnv.stdSort (bytes "1.0.0") (limited byCount 0)
      .zero
    let cut := tagsClient.selectStat call sortingEnv.stdSort (bytes "1.0.0") (limited byCount 1)
      .zero
    whole.2.2.info.map EventInfo.tag = [bytes "b", bytes "a"] ∧
      cut.2.2.info = whole.2.2.info.take 1 := by
  have served := select_limit tagsClient emptyRepos tagsServer sortingEnv (bytes "1.0.0") byCount
    .zero sortsDistinct_insertionSort sortsDistinct_insertionSort (by decide) (by decide)
    (show (0 : Int32) < 1 by decide) (by decide +kernel) (by decide +kernel)
  exact ⟨by decide +kernel, served.2 (by decide +kernel)⟩

end Heracles.Client
