import Heracles.Base.Runs
import Heracles.Utils.EQueue

/-!
The order of a queue.

Any number of threads use one queue; every operation is one step under its lock,
with a wait that ends when there is an item or the time is over. A history keeps
what the callers have put in and what they got out, as far as arguments and answers
tell. `faithful_fifo` says what holds of it after any sequence of operations.
-/

namespace Heracles.Utils.EQueue

open Heracles.Base

variable {α : Type}

/-! ### Operations as their callers see them -/

/-- `UNIQUE_PUSH`. -/
def uniquePush [BEq α] (t : α) (items : List α) : Bool × List α :=
  if items.any (· == t) then (false, items) else (true, items ++ [t])

/-- `POP` of up to `maxCount` items appends to the caller's vector. -/
def popInto (vec : List α) (maxCount : Nat) (items : List α) : Nat × List α × List α :=
  let (popped, left) := popMany maxCount items
  (popped.length, vec ++ popped, left)

/-- `TRY_POP` replaces the caller's vector, unless the queue is empty. -/
def tryPop (vec items : List α) : Nat × List α × List α :=
  if items.isEmpty then (0, vec, items) else (items.length, items, [])

/-- What `SHRINK_FRONT` returns. -/
def shrinkCount (sz : Nat) (items : List α) : Nat :=
  if items.length ≤ sz then 0 else items.length - (shrinkFront sz items).length

inductive Op (α : Type) where
  | push (t : α)
  | pushRange (ts : List α)
  | uniquePush (t : α)
  /-- `POP` without a time limit. -/
  | pop
  /-- `POP` of one item within a time. -/
  | popWithin
  | popMany (vec : List α) (maxCount : Nat)
  | tryPop (vec : List α)
  | shrinkFront (sz : Nat)

inductive Answer (α : Type) where
  | done
  | pushed (added : Bool)
  | waiting
  | timeout
  | item (t : α)
  | vec (count : Nat) (vec : List α)
  | removed (count : Nat)

/-- The answer to the caller and the queue it leaves. -/
def answer [BEq α] (items : List α) : Op α → Answer α × List α
  | .push t => (.done, items ++ [t])
  | .pushRange ts => (.done, items ++ ts)
  | .uniquePush t => ((.pushed (uniquePush t items).1), (uniquePush t items).2)
  | .pop =>
      match pop items with
      | none => (.waiting, items)
      | some (t, left) => (.item t, left)
  | .popWithin =>
      match pop items with
      | none => (.timeout, items)
      | some (t, left) => (.item t, left)
  | .popMany vec maxCount =>
      let (count, vec, left) := popInto vec maxCount items
      (.vec count vec, left)
  | .tryPop vec =>
      let (count, vec, left) := tryPop vec items
      (.vec count vec, left)
  | .shrinkFront sz => (.removed (shrinkCount sz items), shrinkFront sz items)

/-! ### Histories -/

/-- A queue, what it has accepted, what was popped from it and what was removed by
`SHRINK_FRONT`, each in order. -/
structure History (α : Type) where
  items : List α
  accepted : List α
  popped : List α
  shrunk : List α

def History.empty : History α := ⟨[], [], [], []⟩

/-- What an operation puts into the queue, by its arguments and its answer. -/
def acceptedBy : Op α → Answer α → List α
  | .push t, _ => [t]
  | .pushRange ts, _ => ts
  | .uniquePush t, .pushed true => [t]
  | _, _ => []

/-- What a caller gets: one item, or what was appended to its vector, or all that is
in its vector if the count says that it was replaced. -/
def poppedBy : Op α → Answer α → List α
  | .popMany vec _, .vec _ vec' => vec'.drop vec.length
  | .tryPop _, .vec count vec' => if count = 0 then [] else vec'
  | _, .item t => [t]
  | _, _ => []

/-- The items at the front that `SHRINK_FRONT` says it has removed. -/
def shrunkBy (items : List α) : Answer α → List α
  | .removed count => items.take count
  | _ => []

def step [BEq α] (h : History α) (op : Op α) : History α :=
  let (ans, items) := answer h.items op
  { items := items
    accepted := h.accepted ++ acceptedBy op ans
    popped := h.popped ++ poppedBy op ans
    shrunk := h.shrunk ++ shrunkBy h.items ans }

/-! ### What is claimed -/

/-- The items popped and those still queued are the accepted ones in order, with only
the shrunk ones missing: each accepted item is marked as one that stays or one that
is missing. -/
def History.Faithful (h : History α) : Prop :=
  ∃ marked : List (α × Bool), marked.map Prod.fst = h.accepted ∧
    (marked.filter fun m => m.2).map Prod.fst = h.popped ++ h.items ∧
    (marked.filter fun m => !m.2).map Prod.fst = h.shrunk

/-- A bulk pop appends between one and `maxCount` items from the front, or returns 0
on an empty queue. -/
def PopsBulk (vec : List α) (maxCount : Nat) (items : List α) : Prop :=
  (items = [] ∧ popInto vec maxCount items = (0, vec, [])) ∨
    ∃ popped left, popped ++ left = items ∧ 1 ≤ popped.length ∧ popped.length ≤ maxCount ∧
      popInto vec maxCount items = (popped.length, vec ++ popped, left)

/-- `SHRINK_FRONT` leaves the newest items, at most `sz`, and counts the others. -/
def Shrinks (sz : Nat) (items : List α) : Prop :=
  shrinkFront sz items <:+ items ∧ (shrinkFront sz items).length = min sz items.length ∧
    shrinkCount sz items + (shrinkFront sz items).length = items.length

/-- An operation that adds items without looking for equal ones. -/
def Op.plainPush : Op α → Bool
  | .push _ => true
  | .pushRange _ => true
  | _ => false

/-! ### One step -/

theorem popMany_length {maxCount : Nat} (positive : 1 ≤ maxCount) (items : List α) :
    (popMany maxCount items).1.length ≤ maxCount := by
  induction items generalizing maxCount with
  | nil => exact Nat.zero_le _
  | cons t items ih =>
      simp only [popMany]
      split
      · next more =>
          have rest := @ih (maxCount - 1) (by omega)
          rw [List.length_cons]
          omega
      · exact positive

theorem pops_bulk (vec : List α) {maxCount : Nat} (positive : 1 ≤ maxCount) (items : List α) :
    PopsBulk vec maxCount items := by
  cases items with
  | nil => exact Or.inl ⟨rfl, by simp [popInto, popMany]⟩
  | cons t items =>
      refine Or.inr ⟨_, _, popMany_append maxCount (t :: items), ?_, popMany_length positive _, rfl⟩
      rw [popMany]
      split
      · exact Nat.succ_pos _
      · exact Nat.le_refl 1

theorem shrinks (sz : Nat) (items : List α) : Shrinks sz items := by
  unfold Shrinks shrinkCount shrinkFront
  split
  · next small => exact ⟨List.suffix_refl _, (Nat.min_eq_right small).symm, Nat.zero_add _⟩
  · next large =>
      rw [List.length_drop]
      exact ⟨List.drop_suffix _ _, by omega, by omega⟩

/-- What is counted as removed is what `shrunk` says. -/
theorem take_shrinkCount (sz : Nat) (items : List α) :
    items.take (shrinkCount sz items) = shrunk sz items := by
  unfold shrinkCount shrunk shrinkFront
  split
  · next small => rw [Nat.sub_eq_zero_of_le small]
  · rw [List.length_drop]
    congr 1
    omega

/-- The items that have left the queue, in order, each marked as popped or not. -/
def History.Accounted (h : History α) (left : List (α × Bool)) : Prop :=
  h.accepted = left.map Prod.fst ++ h.items ∧
    h.popped = (left.filter fun m => m.2).map Prod.fst ∧
    h.shrunk = (left.filter fun m => !m.2).map Prod.fst

theorem filter_marked (mark : Bool) (ts : List α) :
    ((ts.map fun t => (t, mark)).filter fun m => m.2).map Prod.fst = (if mark then ts else []) ∧
      ((ts.map fun t => (t, mark)).filter fun m => !m.2).map Prod.fst =
        (if mark then [] else ts) := by
  cases mark with
  | true => simp [List.filter_map, Function.comp_def]
  | false => simp [List.filter_map, Function.comp_def]

/-- Items leave at the front, all popped or all shrunk. -/
theorem History.Accounted.leave {h : History α} {left : List (α × Bool)}
    (accounted : h.Accounted left) (mark : Bool) {front rest : List α}
    (split : front ++ rest = h.items) :
    (History.mk rest h.accepted (h.popped ++ if mark then front else [])
      (h.shrunk ++ if mark then [] else front)).Accounted
        (left ++ front.map fun t => (t, mark)) := by
  obtain ⟨accepted, popped, shrunk⟩ := accounted
  obtain ⟨kept, missing⟩ := filter_marked mark front
  refine ⟨?_, ?_, ?_⟩
  · simp only [accepted, ← split, List.map_append, List.map_map, Function.comp_def, List.map_id',
      List.append_assoc]
  · simp only [List.filter_append, List.map_append, kept, popped]
  · simp only [List.filter_append, List.map_append, missing, shrunk]

/-- Items are added at the end. -/
theorem History.Accounted.add {h : History α} {left : List (α × Bool)}
    (accounted : h.Accounted left) (ts : List α) :
    (History.mk (h.items ++ ts) (h.accepted ++ ts) h.popped h.shrunk).Accounted left := by
  obtain ⟨accepted, popped, shrunk⟩ := accounted
  exact ⟨by rw [accepted, List.append_assoc], popped, shrunk⟩

/-- Both forms of `POP` of one item leave an empty queue as it is, and else take what
is first. -/
theorem step_pop [BEq α] (h : History α) {op : Op α} (one : op = .pop ∨ op = .popWithin) :
    (h.items = [] ∧
        step h op = ⟨h.items, h.accepted ++ [], h.popped ++ [], h.shrunk ++ []⟩) ∨
      ∃ t rest, h.items = t :: rest ∧
        step h op = ⟨rest, h.accepted ++ [], h.popped ++ [t], h.shrunk ++ []⟩ := by
  rcases one with rfl | rfl
  all_goals
    cases queued : h.items with
    | nil => exact Or.inl ⟨rfl, by simp only [step, answer, queued, pop]; rfl⟩
    | cons t rest => exact Or.inr ⟨t, rest, rfl, by simp only [step, answer, queued, pop]; rfl⟩

/-- What a step takes from the front leaves as popped or as shrunk, and what it adds
comes at the end. -/
theorem History.Accounted.step [BEq α] {h : History α} {left : List (α × Bool)}
    (accounted : h.Accounted left) (op : Op α) :
    ∃ left', (EQueue.step h op).Accounted left' := by
  have stays : (History.mk h.items (h.accepted ++ []) (h.popped ++ []) (h.shrunk ++ [])).Accounted
      left := by
    simpa only [List.append_nil] using accounted
  have adds (ts : List α) : (History.mk (h.items ++ ts) (h.accepted ++ ts) (h.popped ++ [])
      (h.shrunk ++ [])).Accounted left := by
    simpa only [List.append_nil] using accounted.add ts
  have pops {front rest : List α} (split : front ++ rest = h.items) :
      (History.mk rest (h.accepted ++ []) (h.popped ++ front) (h.shrunk ++ [])).Accounted
        (left ++ front.map fun t => (t, true)) := by
    simpa only [List.append_nil, if_true] using accounted.leave true split
  have popsOne {op : Op α} (one : op = .pop ∨ op = .popWithin) :
      ∃ left', (EQueue.step h op).Accounted left' := by
    rcases step_pop h one with ⟨_, next⟩ | ⟨t, rest, queued, next⟩
    · exact ⟨left, next ▸ stays⟩
    · exact ⟨_, next ▸ @pops [t] rest queued.symm⟩
  cases op with
  | push t => exact ⟨left, adds [t]⟩
  | pushRange ts => exact ⟨left, adds ts⟩
  | uniquePush t =>
      simp only [EQueue.step, answer, uniquePush]
      split
      · exact ⟨left, stays⟩
      · exact ⟨left, adds [t]⟩
  | pop => exact popsOne (Or.inl rfl)
  | popWithin => exact popsOne (Or.inr rfl)
  | popMany vec maxCount =>
      simp only [EQueue.step, answer, popInto, acceptedBy, poppedBy, shrunkBy, List.drop_left]
      exact ⟨_, pops (popMany_append maxCount h.items)⟩
  | tryPop vec =>
      simp only [EQueue.step, answer, tryPop]
      split
      · exact ⟨left, stays⟩
      · next some =>
          have many : h.items.length ≠ 0 := fun none =>
            some (List.isEmpty_iff.mpr (List.eq_nil_of_length_eq_zero none))
          simp only [acceptedBy, poppedBy, shrunkBy, if_neg many]
          exact ⟨_, pops (List.append_nil h.items)⟩
  | shrinkFront sz =>
      simp only [EQueue.step, answer, acceptedBy, poppedBy, shrunkBy, take_shrinkCount]
      have leaves := accounted.leave false (shrunk_append sz h.items)
      simp only [Bool.false_eq_true, if_false] at leaves
      exact ⟨_, by simpa only [List.append_nil] using leaves⟩

theorem History.Accounted.faithful {h : History α} {left : List (α × Bool)}
    (accounted : h.Accounted left) : h.Faithful := by
  obtain ⟨accepted, popped, shrunk⟩ := accounted
  obtain ⟨kept, missing⟩ := filter_marked true h.items
  refine ⟨left ++ h.items.map fun t => (t, true), ?_, ?_, ?_⟩
  · simp only [accepted, List.map_append, List.map_map, Function.comp_def, List.map_id']
  · rw [List.filter_append, List.map_append, kept, popped, if_pos rfl]
  · rw [List.filter_append, List.map_append, missing, shrunk, if_pos rfl, List.append_nil]

/-- No item equals one queued before it. -/
def NoneTwice [BEq α] (items : List α) : Prop :=
  items.Pairwise fun older newer => (older == newer) = false

/-- Without a plain push, no step makes two queued items equal. -/
theorem NoneTwice.step [BEq α] {h : History α} (distinct : NoneTwice h.items) {op : Op α}
    (unique : op.plainPush = false) : NoneTwice (EQueue.step h op).items := by
  have suffix {rest : List α} (fewer : rest <:+ h.items) : NoneTwice rest :=
    List.Pairwise.sublist fewer.sublist distinct
  have popsOne {op : Op α} (one : op = .pop ∨ op = .popWithin) :
      NoneTwice (EQueue.step h op).items := by
    rcases step_pop h one with ⟨_, next⟩ | ⟨t, rest, queued, next⟩
    · rw [next]
      exact distinct
    · rw [next]
      exact suffix (queued ▸ List.suffix_cons t rest)
  cases op with
  | push t => cases unique
  | pushRange ts => cases unique
  | uniquePush t =>
      simp only [EQueue.step, answer, uniquePush]
      split
      · exact distinct
      · next absent =>
          refine List.pairwise_append.mpr ⟨distinct, List.pairwise_singleton _ t, ?_⟩
          intro older queued newer last
          obtain rfl := List.mem_singleton.mp last
          rw [← Bool.not_eq_true]
          exact fun equal => absent (List.any_eq_true.mpr ⟨older, queued, equal⟩)
  | pop => exact popsOne (Or.inl rfl)
  | popWithin => exact popsOne (Or.inr rfl)
  | popMany vec maxCount =>
      exact suffix ⟨_, popMany_append maxCount h.items⟩
  | tryPop vec =>
      simp only [EQueue.step, answer, tryPop]
      split
      · exact distinct
      · exact List.Pairwise.nil
  | shrinkFront sz => exact suffix (shrinks sz h.items).1

/-! ### Whole runs -/

/-- After any sequence of operations on a new queue, what was popped and what is
queued is what was accepted, in order and but for what was shrunk; the bulk
operations do what they say; and unless there was a plain push, no two queued items
are equal. -/
theorem faithful_fifo [BEq α] (ops : List (Op α)) :
    (run step .empty ops).Faithful ∧
      (∀ vec maxCount, 1 ≤ maxCount → PopsBulk vec maxCount (run step .empty ops).items) ∧
      (∀ sz, Shrinks sz (run step .empty ops).items) ∧
      ((∀ op ∈ ops, op.plainPush = false) → NoneTwice (run step .empty ops).items) := by
  refine ⟨?_, fun vec _ positive => pops_bulk vec positive _, fun sz => shrinks sz _, ?_⟩
  · have start : ∃ left, (History.empty : History α).Accounted left := ⟨[], rfl, rfl, rfl⟩
    obtain ⟨left, accounted⟩ := run_invariant (P := fun h : History α => ∃ left, h.Accounted left)
      (fun h op ⟨left, accounted⟩ => accounted.step op) start ops
    exact accounted.faithful
  · intro unique
    exact Along.invariant (P := fun h : History α => NoneTwice h.items)
      (fun h op distinct plain => NoneTwice.step distinct plain) List.Pairwise.nil
      (along_of_forall unique _)

end Heracles.Utils.EQueue
