import Heracles.Base.Runs
import Mathlib.Data.Finset.Card
import Mathlib.Data.Finset.Insert
import Mathlib.Data.Finset.Erase

/-!
The connection pool.

A connection is idle in the pool, or busy and held by a scoped handle whose
destruction gives it back. Connections are told apart by their address, as the
pool's comparator does; an address is used again only after the connection that
had it is gone, which is all an `Allocator` promises.

Requests run concurrently: each first counts itself and resets the handle it was
given, and takes a connection later, when it holds the lock and one is
available. Every order of these steps is a run of `step`, and
`one_holder` says what holds after each.
-/

namespace Heracles.Connect

open Heracles.Base

/-- A `ConnPtr`: the address of a connection object. -/
abbrev ConnPtr := Nat

/-- Where the next object is put: never where a live one is. -/
structure Allocator where
  pick : Finset ConnPtr → ConnPtr
  fresh : ∀ live, pick live ∉ live

structure ConnPoolStat where
  acquiredCount : UInt32
  acquiredSuccess : UInt32
deriving DecidableEq

def ConnPoolStat.incrCount (stat : ConnPoolStat) : ConnPoolStat :=
  { stat with acquiredCount := stat.acquiredCount + 1 }

def ConnPoolStat.incrSuccess (stat : ConnPoolStat) : ConnPoolStat :=
  { stat with acquiredSuccess := stat.acquiredSuccess + 1 }

structure ConnPool where
  capacity : Nat
  connsBusy : Finset ConnPtr
  connsIdle : List ConnPtr
  stat : ConnPoolStat
  connTrimLinger : UInt32
deriving DecidableEq

namespace ConnPool

/-- What comes of the attempt to make a new connection. -/
inductive Creation where
  | failed
  | initFailed
  | ready
deriving DecidableEq

def checkAvailable (pool : ConnPool) : Bool :=
  !pool.connsIdle.isEmpty ∨ pool.connsIdle.length + pool.connsBusy.card < pool.capacity

/-- Takes the idle connection at the front, or makes a new one at `addr` while
the pool has room. -/
def doRequestConn (pool : ConnPool) (addr : ConnPtr) (creation : Creation) :
    ConnPool × Option ConnPtr :=
  match pool.connsIdle with
  | conn :: rest =>
      ({ pool with
          connsIdle := rest
          connsBusy := insert conn pool.connsBusy
          stat := pool.stat.incrSuccess }, some conn)
  | [] =>
      if pool.connsIdle.length + pool.connsBusy.card < pool.capacity then
        match creation with
        | .failed => (pool, none)
        | .initFailed => (pool, none)
        | .ready =>
            ({ pool with
                connsBusy := insert addr pool.connsBusy
                stat := pool.stat.incrSuccess }, some addr)
      else (pool, none)

/-- What the destruction of a scoped handle does: a healthy connection becomes
idle, another one is dropped. -/
def freeConn (pool : ConnPool) (conn : ConnPtr) (isHealth : Bool) : ConnPool :=
  { pool with
    connsIdle := if isHealth then pool.connsIdle ++ [conn] else pool.connsIdle
    connsBusy := pool.connsBusy.erase conn }

/-- `ConnStat::expire`. The age is computed and not used; the clock itself is
compared with the linger time. -/
def expire (_start : UInt32) (now : Int64) (linger : UInt32) : Bool :=
  linger < now.toUInt64.toUInt32

/-- The loop of `do_conn_linger_trim` over the idle connections, `count` of
which have been seen. Every twentieth looks whether more than 20 ms have gone. -/
def trimLoop (start : ConnPtr → UInt32) (linger : UInt32) (now elapseMs : Nat → Int64) :
    Nat → List ConnPtr → List ConnPtr
  | _, [] => []
  | count, conn :: rest =>
      let kept := if expire (start conn) (now (count + 1)) linger then [] else [conn]
      if (count + 1) % 20 = 0 ∧ 20 < elapseMs (count + 1) then kept ++ rest
      else kept ++ trimLoop start linger now elapseMs (count + 1) rest

def doConnLingerTrim (pool : ConnPool) (start : ConnPtr → UInt32) (now elapseMs : Nat → Int64) :
    ConnPool :=
  { pool with connsIdle := trimLoop start pool.connTrimLinger now elapseMs 0 pool.connsIdle }

/-! ### The pool and its callers -/

/-- The pool, the connection objects' `start_`, the connections held by live
scoped handles, and the number of requests that have not got theirs yet. Copies
of a handle are one handle: they share the deleter. -/
structure State where
  pool : ConnPool
  start : ConnPtr → UInt32
  handles : List ConnPtr
  waiting : Nat

/-- Addresses in use. -/
def State.live (s : State) : Finset ConnPtr :=
  s.pool.connsBusy ∪ s.pool.connsIdle.toFinset ∪ s.handles.toFinset

inductive Action where
  /-- The last copy of a handle is destroyed. -/
  | release (handle : Nat) (isHealth : Bool)
  /-- `request_scoped_conn` up to the lock; `scope` is the handle it resets. -/
  | request (scope : Option Nat) (isHealth : Bool)
  /-- `request_scoped_conn` when it has the lock, at first or after a wake-up. -/
  | enter (alloc : Allocator) (creation : Creation) (now : Int64)
  /-- `do_conn_linger_trim`, with the clock at each turn of its loop. -/
  | trim (now elapseMs : Nat → Int64)

/-- Destroys a handle, when there is such a one. -/
def release (s : State) (handle : Nat) (isHealth : Bool) : State :=
  match s.handles[handle]? with
  | none => s
  | some conn =>
      { s with
        pool := s.pool.freeConn conn isHealth
        handles := s.handles.eraseIdx handle }

/-- The part of `request_scoped_conn` under the lock. -/
def enter (s : State) (alloc : Allocator) (creation : Creation) (now : Int64) : State :=
  if s.waiting = 0 ∨ ¬ s.pool.checkAvailable then s
  else
    let addr := alloc.pick s.live
    let (pool, conn) := s.pool.doRequestConn addr creation
    { s with
      pool := pool
      -- the constructor of a new connection touches it
      start := if s.pool.connsIdle.isEmpty then Function.update s.start addr now.toUInt64.toUInt32
        else s.start
      handles := s.handles ++ conn.toList
      waiting := s.waiting - 1 }

def step (s : State) : Action → State
  | .release handle isHealth => release s handle isHealth
  | .request scope isHealth =>
      let counted := { s with
        pool := { s.pool with stat := s.pool.stat.incrCount }
        waiting := s.waiting + 1 }
      match scope with
      | none => counted
      | some handle => release counted handle isHealth
  | .enter alloc creation now => enter s alloc creation now
  | .trim now elapseMs => { s with pool := s.pool.doConnLingerTrim s.start now elapseMs }

/-- A new pool. -/
def State.initial (capacity : Nat) (linger : UInt32) (start : ConnPtr → UInt32) : State :=
  ⟨⟨capacity, ∅, [], ⟨0, 0⟩, linger⟩, start, [], 0⟩

/-! ### One holder -/

/-- The pool keeps its bound and every connection is in one place: idle once, or
busy and held by one handle. -/
structure OneHolder (s : State) : Prop where
  bound : s.pool.connsIdle.length + s.pool.connsBusy.card ≤ s.pool.capacity
  idle : s.pool.connsIdle.Nodup
  apart : ∀ conn ∈ s.pool.connsIdle, conn ∉ s.pool.connsBusy
  held : ∀ conn, conn ∈ s.pool.connsBusy ↔ conn ∈ s.handles
  handles : s.handles.Nodup

theorem OneHolder.initial (capacity : Nat) (linger : UInt32) (start : ConnPtr → UInt32) :
    OneHolder (State.initial capacity linger start) := by
  constructor <;> simp [State.initial]

/-- Fewer idle connections, in the same order, break nothing. -/
theorem OneHolder.fewer_idle {s : State} (holder : OneHolder s) {idle : List ConnPtr}
    (fewer : idle.Sublist s.pool.connsIdle) :
    OneHolder { s with pool := { s.pool with connsIdle := idle } } where
  bound := by
    have := holder.bound
    have := fewer.length_le
    dsimp only
    omega
  idle := holder.idle.sublist fewer
  apart conn member := holder.apart conn (fewer.subset member)
  held := holder.held
  handles := holder.handles

theorem trimLoop_sublist (start : ConnPtr → UInt32) (linger : UInt32)
    (now elapseMs : Nat → Int64) (count : Nat) (idle : List ConnPtr) :
    (trimLoop start linger now elapseMs count idle).Sublist idle := by
  induction idle generalizing count with
  | nil => exact List.Sublist.refl _
  | cons conn rest ih =>
      have kept : (if expire (start conn) (now (count + 1)) linger then [] else [conn]).Sublist
          [conn] := by
        split
        · exact List.nil_sublist _
        · exact List.Sublist.refl _
      unfold trimLoop
      dsimp only
      split
      · exact kept.append (List.Sublist.refl rest)
      · exact kept.append (ih (count + 1))

theorem OneHolder.trim {s : State} (holder : OneHolder s) (now elapseMs : Nat → Int64) :
    OneHolder { s with pool := s.pool.doConnLingerTrim s.start now elapseMs } :=
  holder.fewer_idle (trimLoop_sublist s.start s.pool.connTrimLinger now elapseMs 0 _)

/-- Only one handle has the connection, so after its destruction none has. -/
theorem OneHolder.release {s : State} (holder : OneHolder s) (handle : Nat) (isHealth : Bool) :
    OneHolder (release s handle isHealth) := by
  unfold ConnPool.release
  split
  · exact holder
  · rename_i conn found
    obtain ⟨inside, rfl⟩ := List.getElem?_eq_some_iff.mp found
    have member : s.handles[handle] ∈ s.handles := List.getElem_mem inside
    have busy := (holder.held _).mpr member
    have remaining : ∀ other, other ∈ s.handles.eraseIdx handle ↔
        other ∈ s.handles ∧ other ≠ s.handles[handle] := by
      intro other
      rw [← List.Nodup.erase_getElem holder.handles, holder.handles.mem_erase_iff, and_comm]
    have card := Finset.card_erase_of_mem busy
    have positive := Finset.card_pos.mpr ⟨_, busy⟩
    have bound := holder.bound
    have notIdle : s.handles[handle] ∉ s.pool.connsIdle := fun idle => holder.apart _ idle busy
    refine ⟨?_, ?_, ?_, ?_, ?_⟩
    · cases isHealth <;> simp only [freeConn, card] <;> simp <;> omega
    · cases isHealth with
      | false => exact holder.idle
      | true =>
          exact List.Nodup.append holder.idle (List.nodup_singleton _)
            (List.disjoint_singleton.mpr notIdle)
    · intro other idle busyStill
      have := Finset.mem_erase.mp busyStill
      cases isHealth with
      | false => exact holder.apart other idle this.2
      | true =>
          rcases List.mem_append.mp idle with old | new
          · exact holder.apart other old this.2
          · exact this.1 (List.mem_singleton.mp new)
    · intro other
      rw [remaining other, ← holder.held other]
      simp only [freeConn, Finset.mem_erase]
      exact and_comm
    · exact holder.handles.sublist (List.eraseIdx_sublist _ _)

/-- What `do_request_conn` gives was idle, or is new and within the bound. -/
theorem doRequestConn_cases (pool : ConnPool) (addr : ConnPtr) (creation : Creation) :
    (doRequestConn pool addr creation = (pool, none)) ∨
    (∃ conn rest, pool.connsIdle = conn :: rest ∧
      doRequestConn pool addr creation =
        ({ pool with
            connsIdle := rest
            connsBusy := insert conn pool.connsBusy
            stat := pool.stat.incrSuccess }, some conn)) ∨
    (pool.connsIdle = [] ∧ pool.connsBusy.card < pool.capacity ∧
      doRequestConn pool addr creation =
        ({ pool with
            connsBusy := insert addr pool.connsBusy
            stat := pool.stat.incrSuccess }, some addr)) := by
  unfold doRequestConn
  split
  · rename_i conn rest idle
    exact .inr (.inl ⟨conn, rest, idle, rfl⟩)
  · rename_i idle
    split
    · rename_i room
      rw [idle, List.length_nil, Nat.zero_add] at room
      cases creation with
      | failed => exact .inl rfl
      | initFailed => exact .inl rfl
      | ready => exact .inr (.inr ⟨idle, room, rfl⟩)
    · exact .inl rfl

/-- A connection that was not busy becomes busy under a new handle. -/
theorem OneHolder.taken {s : State} (holder : OneHolder s) {conn : ConnPtr}
    (free : conn ∉ s.pool.connsBusy) {idle : List ConnPtr} (fewer : idle.Sublist s.pool.connsIdle)
    (left : conn ∉ idle) (room : idle.length + s.pool.connsBusy.card < s.pool.capacity)
    (stat : ConnPoolStat) (start : ConnPtr → UInt32) (waiting : Nat) :
    OneHolder
      ⟨{ s.pool with connsIdle := idle, connsBusy := insert conn s.pool.connsBusy, stat := stat },
        start, s.handles ++ [conn], waiting⟩ where
  bound := by
    have := Finset.card_insert_of_notMem free
    dsimp only
    omega
  idle := holder.idle.sublist fewer
  apart other member busy := by
    rcases Finset.mem_insert.mp busy with rfl | old
    · exact left member
    · exact holder.apart other (fewer.subset member) old
  held other := by
    rw [Finset.mem_insert, List.mem_append, List.mem_singleton, holder.held other]
    exact or_comm
  handles :=
    List.Nodup.append holder.handles (List.nodup_singleton conn)
      (List.disjoint_singleton.mpr fun member => free ((holder.held conn).mpr member))

theorem OneHolder.enter {s : State} (holder : OneHolder s) (alloc : Allocator)
    (creation : Creation) (now : Int64) : OneHolder (enter s alloc creation now) := by
  unfold ConnPool.enter
  split
  · exact holder
  · have fresh := alloc.fresh s.live
    have bound := holder.bound
    rcases doRequestConn_cases s.pool (alloc.pick s.live) creation with
      same | ⟨conn, rest, idle, took⟩ | ⟨idle, room, made⟩
    · simp only [same, Option.toList_none, List.append_nil]
      exact ⟨holder.bound, holder.idle, holder.apart, holder.held, holder.handles⟩
    · simp only [took, Option.toList_some]
      have distinct := holder.idle
      rw [idle] at distinct bound
      have free := holder.apart conn (idle ▸ List.mem_cons_self)
      have fewer : rest.Sublist s.pool.connsIdle := idle ▸ List.sublist_cons_self conn rest
      refine holder.taken free fewer (List.nodup_cons.mp distinct).1 ?_ _ _ _
      rw [List.length_cons] at bound
      omega
    · simp only [made, Option.toList_some]
      have free : alloc.pick s.live ∉ s.pool.connsBusy := fun busy =>
        fresh (Finset.mem_union_left _ (Finset.mem_union_left _ busy))
      have left : alloc.pick s.live ∉ s.pool.connsIdle := by
        rw [idle]
        exact List.not_mem_nil
      refine holder.taken free (List.Sublist.refl _) left ?_ _ _ _
      rw [idle, List.length_nil, Nat.zero_add]
      exact room

theorem OneHolder.step {s : State} (holder : OneHolder s) (action : Action) :
    OneHolder (step s action) := by
  cases action with
  | release handle isHealth => exact holder.release handle isHealth
  | request scope isHealth =>
      have counted : OneHolder { s with
          pool := { s.pool with stat := s.pool.stat.incrCount }
          waiting := s.waiting + 1 } :=
        ⟨holder.bound, holder.idle, holder.apart, holder.held, holder.handles⟩
      cases scope with
      | none => exact counted
      | some handle => exact counted.release handle isHealth
  | enter alloc creation now => exact holder.enter alloc creation now
  | trim now elapseMs => exact holder.trim now elapseMs

/-- In every state the pool can reach, each connection has one place and the
bound is kept. -/
theorem one_holder (capacity : Nat) (linger : UInt32) (start : ConnPtr → UInt32)
    (actions : List Action) :
    OneHolder (run step (State.initial capacity linger start) actions) :=
  run_invariant (P := OneHolder) (fun _ action holder => holder.step action)
    (OneHolder.initial capacity linger start) actions

end ConnPool

end Heracles.Connect
