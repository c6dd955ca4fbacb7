import Wan.Library.Heap
import Wan.Library.Failure
import Mathlib.Data.List.Perm.Basic
import Mathlib.Data.List.Infix
import Mathlib.Algebra.Group.Int.Defs
import Mathlib.Algebra.Group.Nat.Hom

/-!
# The priority queue of `Container/Queue.hpp`

The queue over the elements of its vector.  Indices are `int` values: a result outside of the
type is a failure of the model, as is an access outside of the vector.
-/

namespace Wan.Container.PriorityQueue

open Wan.Library

variable {PriorityQueueType : Type}

/-- What goes wrong in a call. -/
inductive Failure where
  /-- `CustomException::Fault`. -/
  | fault (what functionName : String)
  /-- `std::out_of_range`. -/
  | outOfRange (what : String)
  /-- A result that is no `int`. -/
  | overflow
  /-- A loop that outruns its bound. -/
  | endless
  deriving DecidableEq, Repr

/-- The result of an `int` operation. -/
def int (value : Int) : Except Failure Int :=
  if -2147483648 ≤ value ∧ value ≤ 2147483647 then .ok value else .error .overflow

/-- `static_cast<int>` of a `uint64_t`. -/
def toInt (value : Nat) : Int := (value : Int).bmod (2 ^ 32)

/-- An `int` as a `uint64_t`. -/
def toUnsigned (value : Int) : Nat := (value % 2 ^ 64).toNat

/-- `VectorContainerObject[…]`. -/
def subscript (vectorContainerObject : Array PriorityQueueType) (accessLocation : Nat) :
    Except Failure PriorityQueueType :=
  if inside : accessLocation < vectorContainerObject.size then
    .ok vectorContainerObject[accessLocation]
  else
    .error (.fault "传入参数越界" "vector::operator[]")

/-- `Algorithm::Swap` of two elements. -/
def swap (vectorContainerObject : Array PriorityQueueType) (one other : Nat) :
    Except Failure (Array PriorityQueueType) :=
  if inside : one < vectorContainerObject.size ∧ other < vectorContainerObject.size then
    .ok (vectorContainerObject.swap one other inside.1 inside.2)
  else
    .error (.fault "传入参数越界" "vector::operator[]")

section Adjust

variable (functionPolicy : PriorityQueueType → PriorityQueueType → Bool)

/-- `(AdjustUpwardsChild - 1) / 2`. -/
def upwardsParent (adjustUpwardsChild : Int) : Except Failure Int := do
  let below ← int (adjustUpwardsChild - 1)
  return below.tdiv 2

/-- The loop of `PriorityQueueAdjustUpwards`. -/
def adjustUpwardsLoop : Nat → Array PriorityQueueType → Int → Int →
    Except Failure (Array PriorityQueueType)
  | 0, _, _, _ => .error .endless
  | fuel + 1, vectorContainerObject, adjustUpwardsChild, adjustUpwardsParent =>
      if 0 < adjustUpwardsChild then do
        let parent ← subscript vectorContainerObject (toUnsigned adjustUpwardsParent)
        let child ← subscript vectorContainerObject (toUnsigned adjustUpwardsChild)
        if functionPolicy parent child then
          let vectorContainerObject ← swap vectorContainerObject (toUnsigned adjustUpwardsParent)
            (toUnsigned adjustUpwardsChild)
          let next ← upwardsParent adjustUpwardsParent
          adjustUpwardsLoop fuel vectorContainerObject adjustUpwardsParent next
        else
          return vectorContainerObject
      else
        .ok vectorContainerObject

/-- `PriorityQueueAdjustUpwards`. -/
def priorityQueueAdjustUpwards (vectorContainerObject : Array PriorityQueueType)
    (adjustUpwardsChild : Int) : Except Failure (Array PriorityQueueType) := do
  let adjustUpwardsParent ← upwardsParent adjustUpwardsChild
  adjustUpwardsLoop functionPolicy (vectorContainerObject.size + 1) vectorContainerObject
    adjustUpwardsChild adjustUpwardsParent

/-- `(AdjustDownwardsParent * 2) + 1`. -/
def downwardsChild (adjustDownwardsParent : Int) : Except Failure Int := do
  let twice ← int (adjustDownwardsParent * 2)
  int (twice + 1)

/-- The larger one of the two children. -/
def largerChild (vectorContainerObject : Array PriorityQueueType) (adjustDownwardsChild : Int) :
    Except Failure Int := do
  let adjustDownwardsLeft := adjustDownwardsChild
  let adjustDownwardsRight ← int (adjustDownwardsLeft + 1)
  if adjustDownwardsRight < toInt vectorContainerObject.size then
    let left ← subscript vectorContainerObject (toUnsigned adjustDownwardsLeft)
    let right ← subscript vectorContainerObject (toUnsigned adjustDownwardsRight)
    return if functionPolicy left right then adjustDownwardsRight else adjustDownwardsChild
  else
    return adjustDownwardsChild

/-- The loop of `PriorityQueueAdjustDownwards`. -/
def adjustDownwardsLoop : Nat → Array PriorityQueueType → Int → Int →
    Except Failure (Array PriorityQueueType)
  | 0, _, _, _ => .error .endless
  | fuel + 1, vectorContainerObject, adjustDownwardsParent, adjustDownwardsChild =>
      if adjustDownwardsChild < toInt vectorContainerObject.size then do
        let adjustDownwardsChild ← largerChild functionPolicy vectorContainerObject
          adjustDownwardsChild
        let parent ← subscript vectorContainerObject (toUnsigned adjustDownwardsParent)
        let child ← subscript vectorContainerObject (toUnsigned adjustDownwardsChild)
        if functionPolicy parent child then
          let vectorContainerObject ← swap vectorContainerObject
            (toUnsigned adjustDownwardsParent) (toUnsigned adjustDownwardsChild)
          let next ← downwardsChild adjustDownwardsChild
          adjustDownwardsLoop fuel vectorContainerObject adjustDownwardsChild next
        else
          return vectorContainerObject
      else
        .ok vectorContainerObject

/-- `PriorityQueueAdjustDownwards` from the root. -/
def priorityQueueAdjustDownwards (vectorContainerObject : Array PriorityQueueType) :
    Except Failure (Array PriorityQueueType) := do
  let adjustDownwardsChild ← downwardsChild 0
  adjustDownwardsLoop functionPolicy (vectorContainerObject.size + 1) vectorContainerObject 0
    adjustDownwardsChild

/-- `Push`. -/
def push (vectorContainerObject : Array PriorityQueueType)
    (prioityQueueTypeData : PriorityQueueType) : Except Failure (Array PriorityQueueType) :=
  let vectorContainerObject := vectorContainerObject.push prioityQueueTypeData
  priorityQueueAdjustUpwards functionPolicy vectorContainerObject
    (toInt (vectorContainerObject.size - 1))

/-- `Top`. -/
def top (vectorContainerObject : Array PriorityQueueType) : Except Failure PriorityQueueType :=
  if inside : 0 < vectorContainerObject.size then
    .ok vectorContainerObject[0]
  else
    .error (.outOfRange "PriorityQueue::Top called on an empty queue")

/-- `Pop`. -/
def pop (vectorContainerObject : Array PriorityQueueType) :
    Except Failure (Array PriorityQueueType) :=
  if vectorContainerObject.isEmpty then
    .ok vectorContainerObject
  else do
    let vectorContainerObject ← swap vectorContainerObject 0 (vectorContainerObject.size - 1)
    priorityQueueAdjustDownwards functionPolicy vectorContainerObject.pop

end Adjust

section Arithmetic

theorem int_ok {value : Int} (low : -2147483648 ≤ value) (high : value ≤ 2147483647) :
    int value = .ok value := by
  rw [int, if_pos ⟨low, high⟩]

theorem toInt_eq {value : Nat} (small : value < 2 ^ 31) : toInt value = value := by
  have low : -((2 ^ 32 : Nat) / 2 : Int) ≤ value := by omega
  have high : (value : Int) < ((2 ^ 32 : Nat) + 1) / 2 := by omega
  exact Int.bmod_eq_of_le low high

@[simp] theorem toUnsigned_natCast {value : Nat} (small : value < 2 ^ 31) :
    toUnsigned value = value := by
  rw [toUnsigned]
  omega

theorem upwardsParent_eq {child : Nat} (small : child < 2 ^ 31) :
    upwardsParent child = .ok (Heap.parent child : Int) := by
  rw [upwardsParent, int_ok (by omega) (by omega)]
  cases child with
  | zero => rfl
  | succ child =>
      have below : ((child + 1 : Nat) : Int) - 1 = (child : Nat) := by omega
      rw [below, Heap.parent, Nat.add_sub_cancel]
      rfl

theorem downwardsChild_eq {parent : Nat} (small : parent < 2 ^ 30) :
    downwardsChild parent = .ok ((2 * parent + 1 : Nat) : Int) := by
  have twice : int ((parent : Int) * 2) = .ok ((2 * parent : Nat) : Int) := by
    rw [int_ok (by omega) (by omega), Int.mul_comm]
    rfl
  have next : int (((2 * parent : Nat) : Int) + 1) = .ok ((2 * parent + 1 : Nat) : Int) :=
    int_ok (by omega) (by omega)
  rw [downwardsChild, twice, ok_bind, next]

end Arithmetic

section Access

variable {values : Array PriorityQueueType} {one other : Nat}

theorem subscript_eq (inside : one < values.size) : subscript values one = .ok values[one] :=
  dif_pos inside

theorem swap_eq (inside : one < values.size) (inside' : other < values.size) :
    swap values one other = .ok (values.swap one other inside inside') := dif_pos ⟨inside, inside'⟩

end Access

section Adjusted

variable {functionPolicy : PriorityQueueType → PriorityQueueType → Bool}
variable [IsStrictWeakOrder PriorityQueueType fun first second =>
  functionPolicy first second = true]
variable {values : Array PriorityQueueType}

/-- An adjustment makes a heap of the same elements. -/
structure Adjusted (functionPolicy : PriorityQueueType → PriorityQueueType → Bool)
    (values adjusted : Array PriorityQueueType) : Prop where
  perm : adjusted.Perm values
  ordered : Heap.Ordered functionPolicy adjusted

omit [IsStrictWeakOrder PriorityQueueType fun first second =>
  functionPolicy first second = true] in
theorem Adjusted.behind {swapped adjusted : Array PriorityQueueType}
    (done : Adjusted functionPolicy swapped adjusted) (perm : swapped.Perm values) :
    Adjusted functionPolicy values adjusted := ⟨done.perm.trans perm, done.ordered⟩

/-- The climb ends with a heap. -/
theorem adjustUpwardsLoop_adjusted {fuel child : Nat} (enough : child < fuel)
    (inside : child < values.size) (small : values.size < 2 ^ 30)
    (rising : Heap.Rising functionPolicy values child) :
    ∃ adjusted, adjustUpwardsLoop functionPolicy fuel values child (Heap.parent child : Int) =
      .ok adjusted ∧ Adjusted functionPolicy values adjusted := by
  induction fuel generalizing child values with
  | zero => cases enough
  | succ fuel ih =>
      rw [adjustUpwardsLoop]
      by_cases below : 0 < child
      · have up : Heap.parent child < child := Heap.parent_lt below
        have inside' := up.trans inside
        rw [if_pos (Int.natCast_pos.mpr below), toUnsigned_natCast (by omega),
          toUnsigned_natCast (by omega), subscript_eq inside', subscript_eq inside,
          swap_eq inside' inside, upwardsParent_eq (by omega), ok_bind, ok_bind, ok_bind, ok_bind]
        by_cases beaten : functionPolicy values[Heap.parent child] values[child] = true
        · rw [if_pos beaten]
          have swapped := values.swap_perm inside' inside
          rcases ih (by omega) (by rwa [Array.size_swap]) (by rwa [Array.size_swap])
            (rising.swap below inside' inside beaten) with ⟨adjusted, run, done⟩
          exact ⟨adjusted, run, done.behind swapped⟩
        · rw [if_neg beaten]
          have settled := (Heap.inOrder_iff inside' inside).mpr (Bool.eq_false_iff.mpr beaten)
          exact ⟨values, rfl, .refl _, rising.ordered fun _ => settled⟩
      · rw [if_neg (by omega)]
        exact ⟨values, rfl, .refl _, rising.ordered fun positive => absurd positive below⟩

variable (functionPolicy) in
/-- The choice among the children. -/
theorem largerChild_largest {hole : Nat} (inside : 2 * hole + 1 < values.size)
    (small : values.size < 2 ^ 30) :
    ∃ child : Nat,
      largerChild functionPolicy values ((2 * hole + 1 : Nat) : Int) = .ok (child : Int) ∧
      child < values.size ∧ 0 < child ∧ Heap.parent child = hole ∧
      ∀ other, 0 < other → Heap.parent other = hole →
        Heap.InOrder functionPolicy values child other := by
  have right : int (((2 * hole + 1 : Nat) : Int) + 1) = .ok ((2 * hole + 2 : Nat) : Int) :=
    int_ok (by omega) (by omega)
  have parents : Heap.parent (2 * hole + 1) = hole ∧ Heap.parent (2 * hole + 2) = hole := by
    rw [Heap.parent, Heap.parent]
    omega
  rw [largerChild, right, ok_bind, toInt_eq (by omega)]
  by_cases two : 2 * hole + 2 < values.size
  · rw [if_pos (by omega), toUnsigned_natCast (by omega), toUnsigned_natCast (by omega),
      subscript_eq inside, subscript_eq two, ok_bind, ok_bind]
    by_cases larger : functionPolicy values[2 * hole + 1] values[2 * hole + 2] = true
    · refine ⟨2 * hole + 2, congrArg Except.ok (if_pos larger), two, by omega, parents.2, ?_⟩
      intro other below beside
      rcases Heap.eq_of_parent below with left | right
      · rw [left, beside, Heap.inOrder_iff two inside]
        exact Heap.less_asymm larger
      · rw [right, beside]
        exact Heap.inOrder_refl _
    · refine ⟨2 * hole + 1, congrArg Except.ok (if_neg larger), inside, by omega, parents.1, ?_⟩
      intro other below beside
      rcases Heap.eq_of_parent below with left | right
      · rw [left, beside]
        exact Heap.inOrder_refl _
      · rw [right, beside, Heap.inOrder_iff inside two]
        exact Bool.eq_false_iff.mpr larger
  · rw [if_neg (by omega)]
    refine ⟨2 * hole + 1, rfl, inside, by omega, parents.1, ?_⟩
    intro other below beside
    rcases Heap.eq_of_parent below with left | right
    · rw [left, beside]
      exact Heap.inOrder_refl _
    · exact Heap.inOrder_outside (by omega)

/-- The descent ends with a heap. -/
theorem adjustDownwardsLoop_adjusted {fuel hole : Nat} (enough : values.size < fuel + hole)
    (inside : hole < values.size ∨ hole = 0) (small : values.size < 2 ^ 30)
    (sinking : Heap.Sinking functionPolicy values hole) :
    ∃ adjusted, adjustDownwardsLoop functionPolicy fuel values hole
        ((2 * hole + 1 : Nat) : Int) = .ok adjusted ∧
      Adjusted functionPolicy values adjusted := by
  induction fuel generalizing hole values with
  | zero => omega
  | succ fuel ih =>
      rw [adjustDownwardsLoop, toInt_eq (by omega)]
      by_cases first : 2 * hole + 1 < values.size
      · rcases largerChild_largest functionPolicy first small with
          ⟨child, chosen, inside', below, under, largest⟩
        have here : hole < values.size := by omega
        have down : hole < child := under ▸ Heap.parent_lt below
        rw [if_pos (by omega), chosen, ok_bind, toUnsigned_natCast (by omega),
          toUnsigned_natCast (by omega), subscript_eq here, subscript_eq inside',
          swap_eq here inside', downwardsChild_eq (by omega), ok_bind, ok_bind, ok_bind, ok_bind]
        by_cases beaten : functionPolicy values[hole] values[child] = true
        · rw [if_pos beaten]
          have swapped := values.swap_perm here inside'
          rcases ih (by rw [Array.size_swap]; omega) (.inl (by rwa [Array.size_swap]))
            (by rwa [Array.size_swap])
            (sinking.swap below under here inside' beaten largest) with ⟨adjusted, run, done⟩
          exact ⟨adjusted, run, done.behind swapped⟩
        · rw [if_neg beaten]
          have settled := (Heap.inOrder_iff here inside').mpr (Bool.eq_false_iff.mpr beaten)
          exact ⟨values, rfl, .refl _, sinking.ordered fun other positive beside =>
            settled.trans inside' (largest other positive beside)⟩
      · rw [if_neg (by omega)]
        refine ⟨values, rfl, .refl _, sinking.ordered fun child positive beneath => ?_⟩
        have lower := Heap.eq_of_parent positive
        exact Heap.inOrder_outside (by omega)

/-- `Push` adds its element. -/
theorem push_adjusted (ordered : Heap.Ordered functionPolicy values)
    (small : values.size + 1 < 2 ^ 30) (value : PriorityQueueType) :
    ∃ pushed, push functionPolicy values value = .ok pushed ∧
      Adjusted functionPolicy (values.push value) pushed := by
  rw [push, Array.size_push, Nat.add_sub_cancel, toInt_eq (by omega), priorityQueueAdjustUpwards,
    upwardsParent_eq (by omega), ok_bind, Array.size_push]
  exact adjustUpwardsLoop_adjusted (by omega) (by rw [Array.size_push]; omega)
    (by rwa [Array.size_push]) (ordered.push value)

/-- `Top` of a queue with elements, of which it is a largest one. -/
theorem top_largest (ordered : Heap.Ordered functionPolicy values) (inside : 0 < values.size) :
    top values = .ok values[0] ∧ ∀ value ∈ values, functionPolicy values[0] value = false := by
  refine ⟨dif_pos inside, fun value member => ?_⟩
  rcases Array.mem_iff_getElem.mp member with ⟨position, bound, rfl⟩
  exact (Heap.inOrder_iff inside bound).mp (ordered.top position)

/-- `Pop` removes what `Top` returned. -/
theorem pop_adjusted (ordered : Heap.Ordered functionPolicy values) (inside : 0 < values.size)
    (small : values.size < 2 ^ 30) :
    ∃ popped, pop functionPolicy values = .ok popped ∧
      (values[0] :: popped.toList).Perm values.toList ∧
      Heap.Ordered functionPolicy popped := by
  have last : values.size - 1 < values.size := Nat.sub_lt inside Nat.one_pos
  have notEmpty : ¬values.isEmpty = true := by
    rw [Array.isEmpty_iff_size_eq_zero]
    exact inside.ne'
  rw [pop, if_neg notEmpty, swap_eq inside last, ok_bind, priorityQueueAdjustDownwards,
    show (0 : Int) = (0 : Nat) from rfl, downwardsChild_eq (by decide), ok_bind]
  have sinking := ordered.popTop inside last
  have size : (values.swap 0 (values.size - 1) inside last).pop.size = values.size - 1 := by
    rw [Array.size_pop, Array.size_swap]
  rcases adjustDownwardsLoop_adjusted (Nat.lt_succ_self _) (.inr rfl) (by omega) sinking with
    ⟨popped, run, done⟩
  refine ⟨popped, run, ?_, done.ordered⟩
  exact (done.perm.toList.cons _).trans (Heap.popTop_perm inside last)

end Adjusted

section Runs

variable (functionPolicy : PriorityQueueType → PriorityQueueType → Bool)

/-- The calls that change a queue. -/
inductive Operation (PriorityQueueType : Type) where
  | push (prioityQueueTypeData : PriorityQueueType)
  | pop

/-- A call, with the elements that were at the top when they were removed. -/
def step (state : Array PriorityQueueType × List PriorityQueueType) :
    Operation PriorityQueueType →
      Except Failure (Array PriorityQueueType × List PriorityQueueType)
  | .push prioityQueueTypeData => do
      return (← push functionPolicy state.1 prioityQueueTypeData, state.2)
  | .pop => do
      return (← pop functionPolicy state.1, (top state.1).toOption.toList ++ state.2)

/-- A run from the empty queue. -/
def run (operations : List (Operation PriorityQueueType)) :
    Except Failure (Array PriorityQueueType × List PriorityQueueType) :=
  operations.foldlM (step functionPolicy) (#[], [])

/-- `Top` and `Pop` until the queue is empty. -/
def drain : Nat → Array PriorityQueueType → Except Failure (List PriorityQueueType)
  | 0, _ => .error .endless
  | fuel + 1, queue =>
      if queue.isEmpty then
        .ok []
      else do
        let largest ← top queue
        let queue ← pop functionPolicy queue
        return largest :: (← drain fuel queue)

/-- The elements that a run pushes. -/
def pushed (operations : List (Operation PriorityQueueType)) : List PriorityQueueType :=
  operations.filterMap fun
    | .push prioityQueueTypeData => some prioityQueueTypeData
    | .pop => none

/-- The number of elements behind a call. -/
def held (count : Nat) : Operation PriorityQueueType → Nat
  | .push _ => count + 1
  | .pop => count - 1

end Runs

section Correct

variable {functionPolicy : PriorityQueueType → PriorityQueueType → Bool}
variable [IsStrictWeakOrder PriorityQueueType fun first second =>
  functionPolicy first second = true]

/-- What is left in the queue behind a run, and what was removed. -/
structure Reached (functionPolicy : PriorityQueueType → PriorityQueueType → Bool)
    (operations : List (Operation PriorityQueueType))
    (state : Array PriorityQueueType × List PriorityQueueType) : Prop where
  ordered : Heap.Ordered functionPolicy state.1
  elements : (state.1.toList ++ state.2).Perm (pushed operations)
  size : state.1.size = operations.foldl held 0

/-- A call keeps the queue correct. -/
theorem Reached.step {operations : List (Operation PriorityQueueType)}
    {state : Array PriorityQueueType × List PriorityQueueType}
    (reached : Reached functionPolicy operations state) (operation : Operation PriorityQueueType)
    (small : state.1.size < 2 ^ 30) (small' : held state.1.size operation < 2 ^ 30) :
    ∃ later, step functionPolicy state operation = .ok later ∧
      Reached functionPolicy (operations ++ [operation]) later := by
  rcases state with ⟨queue, popped⟩
  have size (later : Array PriorityQueueType) (same : later.size = held queue.size operation) :
      later.size = (operations ++ [operation]).foldl held 0 := by
    rw [List.foldl_concat, ← reached.size, same]
  cases operation with
  | push value =>
      rcases push_adjusted reached.ordered small' value with ⟨pushed', run, adjusted⟩
      have elements : (pushed operations ++ [value]).Perm (value :: (queue.toList ++ popped)) :=
        (List.perm_append_singleton ..).trans (reached.elements.symm.cons _)
      have added : pushed'.toList.Perm (value :: queue.toList) := by
        have perm := adjusted.perm.toList
        rw [Array.toList_push] at perm
        exact perm.trans (List.perm_append_singleton ..)
      refine ⟨(pushed', popped), by rw [PriorityQueue.step, run]; rfl, adjusted.ordered, ?_,
        size _ (added.length_eq.trans (List.length_cons ..))⟩
      rw [pushed, List.filterMap_append]
      exact (added.append_right popped).trans elements.symm
  | pop =>
      have same : pushed (operations ++ [.pop]) = pushed operations := by
        rw [pushed, List.filterMap_append]
        exact List.append_nil _
      by_cases inside : 0 < queue.size
      · rcases pop_adjusted reached.ordered inside small with ⟨rest, run, elements, ordered⟩
        have removed : (top queue).toOption.toList = [queue[0]] := by
          rw [(top_largest reached.ordered inside).1]
          rfl
        refine ⟨(rest, queue[0] :: popped), ?_, ordered, ?_, size rest ?_⟩
        · rw [PriorityQueue.step, run, ok_bind, removed]
          rfl
        · rw [same]
          exact (List.perm_middle.trans (elements.append_right popped)).trans reached.elements
        · have shorter : rest.size + 1 = queue.size := elements.length_eq
          rw [held]
          omega
      · have nothing : queue = #[] :=
          Array.eq_empty_of_size_eq_zero (Nat.eq_zero_of_not_pos inside)
        subst nothing
        refine ⟨(#[], popped), rfl, reached.ordered, ?_, size _ rfl⟩
        rw [same]
        exact reached.elements

variable (functionPolicy) in
/-- A run keeps the queue correct. -/
theorem run_reached (operations : List (Operation PriorityQueueType))
    (small : ∀ earlier, earlier <+: operations → earlier.foldl held 0 < 2 ^ 30) :
    ∃ state, run functionPolicy operations = .ok state ∧
      Reached functionPolicy operations state := by
  induction operations using List.reverseRecOn with
  | nil => exact ⟨(#[], []), rfl, Heap.ordered_empty, .refl _, rfl⟩
  | append_singleton operations operation ih =>
      rcases ih fun earlier within => small earlier (within.trans (List.prefix_append ..)) with
        ⟨state, ran, reached⟩
      have before := small operations (List.prefix_append ..)
      have after := small _ List.prefix_rfl
      rw [List.foldl_append] at after
      rw [← reached.size] at before after
      rw [run] at ran ⊢
      rw [List.foldlM_append, ran]
      rcases reached.step operation before after with ⟨later, taken, reached⟩
      exact ⟨later, by simpa using taken, reached⟩

/-- Draining a heap yields its elements, the largest ones first. -/
theorem drain_sorted {fuel : Nat} {queue : Array PriorityQueueType} (enough : queue.size < fuel)
    (small : queue.size < 2 ^ 30) (ordered : Heap.Ordered functionPolicy queue) :
    ∃ drained, drain functionPolicy fuel queue = .ok drained ∧ drained.Perm queue.toList ∧
      drained.Pairwise fun earlier later => functionPolicy earlier later = false := by
  induction fuel generalizing queue with
  | zero => cases enough
  | succ fuel ih =>
      rw [drain]
      by_cases empty : queue.size = 0
      · rw [if_pos (Array.isEmpty_iff_size_eq_zero.mpr empty)]
        have nothing : queue = #[] := Array.eq_empty_of_size_eq_zero empty
        exact ⟨[], rfl, by rw [nothing], .nil⟩
      · have inside : 0 < queue.size := Nat.pos_of_ne_zero empty
        rcases top_largest ordered inside with ⟨top, largest⟩
        rcases pop_adjusted ordered inside small with ⟨rest, popped, elements, ordered⟩
        have shorter : rest.size + 1 = queue.size := elements.length_eq
        rcases ih (by omega) (by omega) ordered with ⟨drained, run, perm, sorted⟩
        have whole := (perm.cons queue[0]).trans elements
        rw [if_neg (mt Array.isEmpty_iff_size_eq_zero.mp empty), top, popped, ok_bind, ok_bind, run]
        refine ⟨queue[0] :: drained, rfl, whole, .cons (fun later member => ?_) sorted⟩
        have inQueue := whole.subset (List.mem_cons_of_mem _ member)
        exact largest later (Array.mem_toList_iff.mp inQueue)

/-- Every run with fewer than 2³⁰ elements at a time stays inside of the vector and of `int` and
leaves a heap of the elements that were pushed and not popped, with a largest one at the top;
draining it yields them in order. -/
theorem priorityQueue_correct (operations : List (Operation PriorityQueueType))
    (small : ∀ earlier, earlier <+: operations → earlier.foldl held 0 < 2 ^ 30) :
    ∃ queue popped, run functionPolicy operations = .ok (queue, popped) ∧
      Heap.Ordered functionPolicy queue ∧
      (queue.toList ++ popped).Perm (pushed operations) ∧
      (∀ inside : 0 < queue.size, top queue = .ok queue[0] ∧
        ∀ value ∈ queue, functionPolicy queue[0] value = false) ∧
      ∀ fuel, queue.size < fuel → ∃ drained, drain functionPolicy fuel queue = .ok drained ∧
        drained.Perm queue.toList ∧
        drained.Pairwise fun earlier later => functionPolicy earlier later = false := by
  rcases run_reached functionPolicy operations small with
    ⟨⟨queue, popped⟩, ran, reached⟩
  have few : queue.size < 2 ^ 30 := reached.size ▸ small operations List.prefix_rfl
  exact ⟨queue, popped, ran, reached.ordered, reached.elements, top_largest reached.ordered,
    fun fuel enough => drain_sorted enough few reached.ordered⟩

end Correct

/-- Numbers that come in another order than they go. -/
theorem priorityQueue_correct_numbers :
    ∃ queue popped, run (fun first second : Nat => decide (first < second))
        [.push 3, .push 8, .push 5, .pop, .push 1] = .ok (queue, popped) ∧
      Heap.Ordered (fun first second : Nat => decide (first < second)) queue ∧
      (queue.toList ++ popped).Perm [3, 8, 5, 1] ∧
      (∀ inside : 0 < queue.size, top queue = .ok queue[0] ∧
        ∀ value ∈ queue, decide (queue[0] < value) = false) ∧
      ∀ fuel, queue.size < fuel → ∃ drained,
        drain (fun first second : Nat => decide (first < second)) fuel queue = .ok drained ∧
        drained.Perm queue.toList ∧
        drained.Pairwise fun earlier later => decide (earlier < later) = false := by
  have order : IsStrictWeakOrder Nat fun first second => decide (first < second) = true := by
    simp only [decide_eq_true_eq]
    exact { irrefl := lt_irrefl, trans := fun _ _ _ => lt_trans, incomp_trans := by omega }
  apply priorityQueue_correct
  intro earlier within
  revert earlier
  simp only [← List.mem_inits]
  decide

end Wan.Container.PriorityQueue
