import Wan.Container.RedBlackTree.Run
import Wan.Library.LinkedTree.Iteration

/-!
# The iterators of the red-black tree

The step operators of `RbTreeIterator` and `RbTreeReverseIterator` on every tree that a run
reaches.  A forward iterator is its node, null at the end position; a reverse iterator wraps a
forward one and steps the other way.
-/

namespace Wan.Container

open Wan.Library Wan.Library.LinkedTree Wan.Library.Cursor

/-- `RbTreeReverseIterator`. -/
structure RbTreeReverseIterator where
  memberIterator : Option Addr
  deriving DecidableEq, Repr

namespace RedBlackTree

variable {Key Value : Type}

section Model

variable (tree : RedBlackTree Value)

/-- `RbTreeIterator::operator--` on the node of an iterator. -/
def decrement : Option Addr → Option (Option Addr)
  | none => some none
  | some node => tree.advance .left node

/-- The postfix `RbTreeIterator::operator++`: the returned copy and the iterator. -/
def postIncrement (iterator : Option Addr) : Option (Option Addr × Option Addr) := do
  let previous := iterator
  return (previous, ← increment tree iterator)

/-- The postfix `RbTreeIterator::operator--`: the returned copy and the iterator. -/
def postDecrement (iterator : Option Addr) : Option (Option Addr × Option Addr) := do
  let previous := iterator
  return (previous, ← decrement tree iterator)

/-- `End`: the node of the returned iterator. -/
def endNode : Option Addr := none

/-- `Rbegin`. -/
def rbegin : Option RbTreeReverseIterator := do
  return ⟨← tree.endpoint .right⟩

/-- `Rend`. -/
def rend : RbTreeReverseIterator := ⟨endNode⟩

/-- A step of a forward iterator: what the operator returns and where the iterator is then. -/
def iteratorStep : Step → Option Addr → Option (Option Addr × Option Addr)
  | ⟨.increment, .pre⟩, iterator => do
      let iterator ← increment tree iterator
      return (iterator, iterator)
  | ⟨.increment, .post⟩, iterator => postIncrement tree iterator
  | ⟨.decrement, .pre⟩, iterator => do
      let iterator ← decrement tree iterator
      return (iterator, iterator)
  | ⟨.decrement, .post⟩, iterator => postDecrement tree iterator

end Model

end RedBlackTree

namespace RbTreeReverseIterator

open RedBlackTree

variable {Value : Type} (tree : RedBlackTree Value)

/-- `operator++`. -/
def increment (self : RbTreeReverseIterator) : Option RbTreeReverseIterator := do
  return ⟨← RedBlackTree.decrement tree self.memberIterator⟩

/-- The postfix `operator++`: the returned copy and the iterator. -/
def postIncrement (self : RbTreeReverseIterator) :
    Option (RbTreeReverseIterator × RbTreeReverseIterator) := do
  let previous := self
  return (previous, ⟨← RedBlackTree.decrement tree self.memberIterator⟩)

/-- `operator--`. -/
def decrement (self : RbTreeReverseIterator) : Option RbTreeReverseIterator := do
  return ⟨← RedBlackTree.increment tree self.memberIterator⟩

/-- The postfix `operator--`: the returned copy and the iterator. -/
def postDecrement (self : RbTreeReverseIterator) :
    Option (RbTreeReverseIterator × RbTreeReverseIterator) := do
  let previous := self
  return (previous, ⟨← RedBlackTree.increment tree self.memberIterator⟩)

/-- A step of a reverse iterator: what the operator returns and where the iterator is then. -/
def step : Step → RbTreeReverseIterator → Option (RbTreeReverseIterator × RbTreeReverseIterator)
  | ⟨.increment, .pre⟩, self => do
      let self ← self.increment tree
      return (self, self)
  | ⟨.increment, .post⟩, self => self.postIncrement tree
  | ⟨.decrement, .pre⟩, self => do
      let self ← self.decrement tree
      return (self, self)
  | ⟨.decrement, .post⟩, self => self.postDecrement tree

end RbTreeReverseIterator

namespace RedBlackTree

variable {Key Value : Type} {tree : RedBlackTree Value}
variable {shape : BinTree (RbNodeData Value)}

/-- A forward iterator at a position of the order, at the end position behind it. -/
def iteratorAt (nodes : List Addr) (position : Nat) : Option Addr := nodes[position]?

/-- A reverse iterator at a position of the reverse order. -/
def reverseAt (nodes : List Addr) (position : Nat) : RbTreeReverseIterator :=
  ⟨nodes.reverse[position]?⟩

/-- Every allowed step of a forward iterator does what it should. -/
theorem iteratorStep_spec (represents : Represents tree shape) (step : Step) (position : Nat)
    (allowed : step.move.Allowed (shape.order .right).length position) :
    iteratorStep tree step (iteratorAt (shape.order .right) position) =
      some (placed (iteratorAt (shape.order .right)) (step.result position)) := by
  rcases step with ⟨move, form⟩
  rcases represents.advance_move move allowed with ⟨node, here, moved⟩
  cases move with
  | increment =>
      have next : increment tree (some node) = some (shape.order .right)[position + 1]? := moved
      cases form <;>
        simp [iteratorStep, postIncrement, iteratorAt, here, next, placed, Step.result,
          Move.target]
  | decrement =>
      have next : decrement tree (some node) = some (shape.order .right)[position - 1]? := moved
      cases form <;>
        simp [iteratorStep, postDecrement, iteratorAt, here, next, placed, Step.result,
          Move.target]

/-- Every allowed step of a reverse iterator does what it should. -/
theorem reverseStep_spec (represents : Represents tree shape) (step : Step) (position : Nat)
    (allowed : step.move.Allowed (shape.order .right).length position) :
    RbTreeReverseIterator.step tree step (reverseAt (shape.order .right) position) =
      some (placed (reverseAt (shape.order .right)) (step.result position)) := by
  rcases step with ⟨move, form⟩
  have reversed : (shape.order .right).reverse = shape.order .left :=
    (BinTree.order_other .right shape).symm
  rw [← List.length_reverse, reversed] at allowed
  rcases represents.advance_move move allowed with ⟨node, here, moved⟩
  cases move with
  | increment =>
      have next : decrement tree (some node) = some (shape.order .left)[position + 1]? := moved
      cases form <;>
        simp [RbTreeReverseIterator.step, RbTreeReverseIterator.increment,
          RbTreeReverseIterator.postIncrement, reverseAt, reversed, here, next, placed,
          Step.result, Move.target]
  | decrement =>
      have next : increment tree (some node) = some (shape.order .left)[position - 1]? := moved
      cases form <;>
        simp [RbTreeReverseIterator.step, RbTreeReverseIterator.decrement,
          RbTreeReverseIterator.postDecrement, reverseAt, reversed, here, next, placed,
          Step.result, Move.target]

section Runs

variable (element : Value → Key) (functionPolicy : Key → Key → Bool) [StrictWeak functionPolicy]

/-- In every tree that a run reaches the increments from `Begin` visit every element once, with
increasing keys, and end at `End`; those from `Rbegin` visit them the other way round and end at
`Rend`; and between two elements a decrement undoes an increment and the other way round. -/
theorem redBlackTree_iterators (operations : List (Operation Key Value)) :
    ∃ tree answers nodes, run element functionPolicy .empty operations = some (tree, answers) ∧
      Enumerates element functionPolicy tree nodes ∧
      begin tree = some (iteratorAt nodes 0) ∧ iteratorAt nodes nodes.length = endNode ∧
      Sweeps (iteratorStep tree) (iteratorAt nodes) nodes.length ∧
      rbegin tree = some (reverseAt nodes 0) ∧ reverseAt nodes nodes.length = rend ∧
      Sweeps (RbTreeReverseIterator.step tree) (reverseAt nodes) nodes.length := by
  have empty : Valid (.empty : RedBlackTree Value)
      (.empty : OrderedMap element functionPolicy) := valid_empty
  rcases run_spec operations empty with ⟨tree, performed, valid⟩
  rcases valid.shaped with ⟨shape, represents, _, implements⟩
  have reversed : (shape.order .right).reverse = shape.order .left :=
    (BinTree.order_other .right shape).symm
  have last : tree.endpoint .right = some (shape.order .left)[0]? := represents.endpoint_first
  refine ⟨tree, _, shape.order .right, performed, represents.enumerates implements,
    represents.endpoint_first, ?_, sweeps_of_steps (iteratorStep_spec represents), ?_, ?_,
    sweeps_of_steps (reverseStep_spec represents)⟩
  · exact List.getElem?_eq_none (Nat.le_refl _)
  · simp [rbegin, last, reverseAt, reversed]
  · simp [reverseAt, rend, endNode]

theorem redBlackTree_iterators_example :
    ∃ tree answers nodes, run Prod.fst less .empty
        [.push (2, 20), .push (1, 10), .push (3, 30), .push (4, 40), .popKey 2, .pop (1, 0)] =
          some (tree, answers) ∧
      Enumerates Prod.fst less tree nodes ∧
      begin tree = some (iteratorAt nodes 0) ∧ iteratorAt nodes nodes.length = endNode ∧
      Sweeps (iteratorStep tree) (iteratorAt nodes) nodes.length ∧
      rbegin (tree : RedBlackTree (Nat × Nat)) = some (reverseAt nodes 0) ∧
      reverseAt nodes nodes.length = rend ∧
      Sweeps (RbTreeReverseIterator.step tree) (reverseAt nodes) nodes.length :=
  redBlackTree_iterators Prod.fst less _

end Runs

end RedBlackTree

end Wan.Container
