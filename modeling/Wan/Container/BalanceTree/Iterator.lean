import Wan.Container.BalanceTree.Run
import Wan.Library.LinkedTree.Iteration

/-!
# The reverse iterator of the AVL tree

The step operators of `AvlTreeReverseIterator` on every tree that a run reaches.  Its prefix
operators wrap the forward iterator the other way round, and its postfix operators call the
prefix operator of the opposite direction.
-/

namespace Wan.Container

open Wan.Library Wan.Library.LinkedTree Wan.Library.Cursor

/-- `AvlTreeReverseIterator`. -/
structure AvlTreeReverseIterator where
  memberIt : Option Addr
  deriving DecidableEq, Repr

namespace BalanceTree

variable {Key Value : Type} (tree : BalanceTree Key Value)

/-- `AvlTreeIterator::operator++`. There is no result at the end position, where the operator
dereferences a null pointer. -/
def iteratorIncrement : Option Addr → Option (Option Addr)
  | none => none
  | some node => increment tree node

/-- `AvlTreeIterator::operator--`. There is no result at the end position, where the operator
dereferences a null pointer. -/
def iteratorDecrement : Option Addr → Option (Option Addr)
  | none => none
  | some node => tree.advance .left node

/-- `Rbegin`. -/
def rbegin : Option AvlTreeReverseIterator := do
  return ⟨← tree.endpoint .right⟩

/-- `Rend`. -/
def rend : AvlTreeReverseIterator := ⟨none⟩

end BalanceTree

namespace AvlTreeReverseIterator

open BalanceTree

variable {Key Value : Type} (tree : BalanceTree Key Value)

/-- `operator++`. -/
def increment (self : AvlTreeReverseIterator) : Option AvlTreeReverseIterator := do
  return ⟨← iteratorDecrement tree self.memberIt⟩

/-- `operator--`. -/
def decrement (self : AvlTreeReverseIterator) : Option AvlTreeReverseIterator := do
  return ⟨← iteratorIncrement tree self.memberIt⟩

/-- The postfix `operator++`: the returned copy and the iterator, on which it calls the prefix
`operator--`. -/
def postIncrement (self : AvlTreeReverseIterator) :
    Option (AvlTreeReverseIterator × AvlTreeReverseIterator) := do
  let returnSelf := self
  return (returnSelf, ← self.decrement tree)

/-- The postfix `operator--`: the returned copy and the iterator, on which it calls the prefix
`operator++`. -/
def postDecrement (self : AvlTreeReverseIterator) :
    Option (AvlTreeReverseIterator × AvlTreeReverseIterator) := do
  let returnSelf := self
  return (returnSelf, ← self.increment tree)

/-- A step of a reverse iterator: what the operator returns and where the iterator is then. -/
def step : Step →
    AvlTreeReverseIterator → Option (AvlTreeReverseIterator × AvlTreeReverseIterator)
  | ⟨.increment, .pre⟩, self => do
      let self ← self.increment tree
      return (self, self)
  | ⟨.increment, .post⟩, self => self.postIncrement tree
  | ⟨.decrement, .pre⟩, self => do
      let self ← self.decrement tree
      return (self, self)
  | ⟨.decrement, .post⟩, self => self.postDecrement tree

end AvlTreeReverseIterator

namespace BalanceTree

variable {Key Value : Type} {tree : BalanceTree Key Value}
variable {shape : BinTree (AvlNodeData Key Value)}

/-- A reverse iterator at a position of the reverse order, at `Rend` behind it. -/
def reverseAt (nodes : List Addr) (position : Nat) : AvlTreeReverseIterator :=
  ⟨nodes.reverse[position]?⟩

theorem reverseAt_order (position : Nat) :
    reverseAt (shape.order .right) position = ⟨(shape.order .left)[position]?⟩ := by
  rw [reverseAt, ← BinTree.order_other]
  rfl

theorem reverseAt_inj {nodes : List Addr} {position other : Nat} (distinct : nodes.Nodup)
    (bound : position < nodes.length) :
    reverseAt nodes position = reverseAt nodes other ↔ position = other := by
  rw [reverseAt, reverseAt, AvlTreeReverseIterator.mk.injEq]
  exact List.getElem?_inj (by simpa using bound) (List.nodup_reverse.mpr distinct)

section Steps

variable {position : Nat}

/-- The prefix increment goes one position on. -/
theorem increment_reverseAt (represents : Represents tree shape)
    (bound : position < (shape.order .right).length) :
    (reverseAt (shape.order .right) position).increment tree =
      some (reverseAt (shape.order .right) (position + 1)) := by
  have within : position < (shape.order .left).length := by
    rwa [← Side.other_right, BinTree.order_other, List.length_reverse]
  obtain ⟨node, here, moved⟩ : ∃ node, (shape.order .left)[position]? = some node ∧
      tree.advance .left node = some (shape.order .left)[position + 1]? :=
    represents.advance_move .increment within
  simp [reverseAt_order, AvlTreeReverseIterator.increment, iteratorDecrement, here, moved]

/-- The prefix decrement goes one position back. -/
theorem decrement_reverseAt (represents : Represents tree shape) (later : 0 < position)
    (bound : position < (shape.order .right).length) :
    (reverseAt (shape.order .right) position).decrement tree =
      some (reverseAt (shape.order .right) (position - 1)) := by
  have within : position < (shape.order .left).length := by
    rwa [← Side.other_right, BinTree.order_other, List.length_reverse]
  obtain ⟨node, here, moved⟩ : ∃ node, (shape.order .left)[position]? = some node ∧
      tree.advance .right node = some (shape.order .left)[position - 1]? :=
    represents.advance_move .decrement ⟨later, within⟩
  simp [reverseAt_order, AvlTreeReverseIterator.decrement, iteratorIncrement,
    BalanceTree.increment, here, moved]

/-- The prefix decrement leaves the tree from the first position. -/
theorem decrement_first (represents : Represents tree shape)
    (nonempty : 0 < (shape.order .right).length) :
    (reverseAt (shape.order .right) 0).decrement tree =
      some (reverseAt (shape.order .right) (shape.order .right).length) := by
  have within : 0 < (shape.order .left).length := by
    rwa [← Side.other_right, BinTree.order_other, List.length_reverse]
  have here := List.getElem?_eq_getElem (l := shape.order .left) within
  have moved : tree.advance .right (shape.order .left)[0] = some none :=
    represents.advance_first here
  rw [reverseAt_order, here]
  simp [AvlTreeReverseIterator.decrement, iteratorIncrement, BalanceTree.increment, moved,
    reverseAt]

/-- What a postfix step that calls a prefix operator has to reach. -/
theorem post_iff {nodes : List Addr} {move : Move} {reached : Nat}
    {call : Option AvlTreeReverseIterator} (called : call = some (reverseAt nodes reached)) :
    (do return (reverseAt nodes position, ← call)) =
        some (placed (reverseAt nodes) ((⟨move, .post⟩ : Step).result position)) ↔
      reverseAt nodes reached = reverseAt nodes (move.target position) := by
  simp [called, placed, Step.result]

/-- An allowed step does what it should exactly if it has the prefix form or the tree has at most
one element. -/
theorem step_iff (represents : Represents tree shape) (distinct : (shape.order .right).Nodup)
    (step : Step) (position : Nat)
    (allowed : step.move.Allowed (shape.order .right).length position) :
    AvlTreeReverseIterator.step tree step (reverseAt (shape.order .right) position) =
        some (placed (reverseAt (shape.order .right)) (step.result position)) ↔
      step.form = .pre ∨ (shape.order .right).length ≤ 1 := by
  rcases step with ⟨move, form⟩
  cases form with
  | pre =>
      refine iff_of_true ?_ (Or.inl rfl)
      cases move with
      | increment => simp [AvlTreeReverseIterator.step, increment_reverseAt represents allowed,
          placed, Step.result, Move.target]
      | decrement => simp [AvlTreeReverseIterator.step,
          decrement_reverseAt represents allowed.1 allowed.2, placed, Step.result, Move.target]
  | post =>
      rw [or_iff_right (by simp)]
      -- The code reaches the position before the step, or the end from the first one.
      cases move with
      | increment =>
          have bound : position < (shape.order .right).length := allowed
          rcases Nat.eq_zero_or_pos position with rfl | later
          · refine (post_iff (decrement_first represents bound)).trans ?_
            rcases Nat.lt_or_ge 1 (shape.order .right).length with many | single
            · rw [eq_comm, Move.target, reverseAt_inj distinct many]
              omega
            · rw [show (shape.order .right).length = 1 by omega]
              exact iff_of_true rfl (Nat.le_refl 1)
          · refine (post_iff (decrement_reverseAt represents later bound)).trans ?_
            rw [Move.target, reverseAt_inj distinct (Nat.lt_of_le_of_lt (Nat.sub_le ..) bound)]
            omega
      | decrement =>
          rcases allowed with ⟨later, bound⟩
          refine (post_iff (increment_reverseAt represents bound)).trans ?_
          rw [eq_comm, Move.target,
            reverseAt_inj distinct (Nat.lt_of_le_of_lt (Nat.sub_le ..) bound)]
          omega

end Steps

/-- A reverse iterator takes some steps from `Rbegin` along the descending order. -/
def Descends (tree : BalanceTree Key Value) (nodes : List Addr) (steps : List Step) : Prop :=
  ∃ first, rbegin tree = some first ∧
    trace (AvlTreeReverseIterator.step tree) first steps =
      some ((itinerary 0 steps).map (placed (reverseAt nodes)))

/-- What a tree that implements a map has for a reverse iterator. -/
theorem Valid.reverse {functionPolicy : Key → Key → Bool} {map : PairMap Value functionPolicy}
    (valid : Valid tree map) :
    ∃ nodes, nodes.length = map.size ∧ Enumerates Prod.fst functionPolicy tree nodes ∧
      rbegin tree = some (reverseAt nodes 0) ∧ reverseAt nodes nodes.length = rend ∧
      ∀ step position, step.move.Allowed nodes.length position →
        (AvlTreeReverseIterator.step tree step (reverseAt nodes position) =
            some (placed (reverseAt nodes) (step.result position)) ↔
          step.form = .pre ∨ nodes.length ≤ 1) := by
  rcases valid.shaped with ⟨shape, represents, _, implements⟩
  have enumerates := represents.enumerates implements
  have last : tree.endpoint .right = some (shape.order .left)[0]? := represents.endpoint_first
  refine ⟨shape.order .right, ?_, enumerates, ?_, ?_,
    step_iff represents enumerates.distinct⟩
  · rw [OrderedMap.size, show map.toList = valuesOf shape.inorder from implements, valuesOf,
      List.length_map, BinTree.order, List.length_map]
    rfl
  · simp [rbegin, last, reverseAt_order]
  · simp [reverseAt, rend]

section Runs

variable (functionPolicy : Key → Key → Bool) [StrictWeak functionPolicy]

/-- In every tree that a run reaches the steps of a reverse iterator from `Rbegin` follow the
descending order exactly if all have the prefix form or the tree has at most one element. -/
theorem balanceTree_descends_iff (operations : List (Operation Key Value)) :
    ∃ tree answers nodes, run functionPolicy .empty operations = some (tree, answers) ∧
      Enumerates Prod.fst functionPolicy tree nodes ∧ reverseAt nodes nodes.length = rend ∧
      ∀ steps, Allowed nodes.length 0 steps →
        (Descends tree nodes steps ↔ (∀ step ∈ steps, step.form = .pre) ∨ nodes.length ≤ 1) := by
  have empty : Valid (.empty : BalanceTree Key Value) (.empty : PairMap Value functionPolicy) :=
    valid_empty
  rcases run_spec operations empty with ⟨tree, performed, valid⟩
  rcases valid.reverse with ⟨nodes, _, enumerates, first, last, single⟩
  refine ⟨tree, _, nodes, performed, enumerates, last, fun steps allowed => ?_⟩
  have traced := trace_eq_iff single allowed
  simp only [Descends, first, Option.some.injEq, exists_eq_left', traced]
  by_cases single : nodes.length ≤ 1 <;> simp [single]

theorem balanceTree_descends_iff_example :
    ∃ tree answers nodes, run less .empty
        [.push (2, 20), .push (1, 10), .push (3, 30), .push (4, 40), .pop 2] =
          some (tree, answers) ∧
      Enumerates Prod.fst less (tree : BalanceTree Nat Nat) nodes ∧
      reverseAt nodes nodes.length = rend ∧
      ∀ steps, Allowed nodes.length 0 steps →
        (Descends tree nodes steps ↔ (∀ step ∈ steps, step.form = .pre) ∨ nodes.length ≤ 1) :=
  balanceTree_descends_iff less _

/-- With two pairs in the tree a postfix increment at `Rbegin` goes to `Rend` and misses the
smaller key. -/
theorem not_descends_postIncrement :
    ∃ tree answers nodes, run less .empty [.push (1, 10), .push (2, 20)] =
        some ((tree : BalanceTree Nat Nat), answers) ∧
      Enumerates Prod.fst less tree nodes ∧ nodes.length = 2 ∧
      (rbegin tree).bind (·.postIncrement tree) = some (⟨some 1⟩, rend) ∧
      Allowed nodes.length 0 [⟨.increment, .post⟩] ∧
      ¬ Descends tree nodes [⟨.increment, .post⟩] := by
  have empty : Valid (.empty : BalanceTree Nat Nat) (.empty : PairMap Nat less) := valid_empty
  have evaluated : ((run less .empty [.push (1, 10), .push (2, 20)]).bind fun result =>
      (rbegin (result.1 : BalanceTree Nat Nat)).bind (·.postIncrement result.1)) =
        some (⟨some 1⟩, rend) := by decide
  rcases run_spec [.push (1, 10), .push (2, 20)] empty with ⟨tree, performed, valid⟩
  rcases valid.reverse with ⟨nodes, size, enumerates, first, _, single⟩
  have two : nodes.length = 2 := size
  have allowed : Allowed nodes.length 0 [⟨.increment, .post⟩] :=
    ⟨by rw [two]; exact Nat.zero_lt_two, trivial⟩
  refine ⟨tree, _, nodes, performed, enumerates, two, ?_, allowed, ?_⟩
  · rwa [performed] at evaluated
  · simp only [Descends, first, Option.some.injEq, exists_eq_left', trace_eq_iff single allowed]
    simp [two]

end Runs

end BalanceTree

end Wan.Container
