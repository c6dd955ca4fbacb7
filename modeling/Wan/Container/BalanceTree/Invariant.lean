import Wan.Container.BalanceTree.Run
import Wan.Library.LinkedTree.Rules

/-!
# The invariant of the AVL tree

The height and link rules stated on the cells themselves, without reference to
the represented tree, and the two theorems about whole runs.
-/

namespace Wan.Container.BalanceTree

open Wan.Library Wan.Library.LinkedTree

variable {Key Value : Type}

/-- The real height of the subtree below a link. -/
inductive RealHeight (tree : BalanceTree Key Value) : Option Addr → Int → Prop where
  | null : RealHeight tree none 0
  | node {address : Addr} {cell : Cell (AvlNodeData Key Value)} {left right : Int}
      (found : tree.cells address = some cell) (below : RealHeight tree cell.left left)
      (beside : RealHeight tree cell.right right) :
      RealHeight tree (some address) (max left right + 1)

/-- The rules that every reachable tree obeys. -/
structure Invariant (functionPolicy : Key → Key → Bool) (tree : BalanceTree Key Value) :
    Prop where
  ordered : ∃ values, tree.InOrder tree.root values ∧
    values.Pairwise fun v w => functionPolicy v.1 w.1 = true
  parents : tree.ParentLinks
  heights : ∀ address cell, tree.cells address = some cell →
    ∃ left right, RealHeight tree cell.left left ∧ RealHeight tree cell.right right ∧
      cell.info.memberHeight = max left right + 1 ∧
      cell.info.memberBalanceFactor = right - left ∧ -1 ≤ right - left ∧ right - left ≤ 1

variable {tree : BalanceTree Key Value} {shape : BinTree (AvlNodeData Key Value)}
variable {parent : Option Addr}

theorem realHeight_of_holds (holds : shape.Holds tree.cells parent) :
    RealHeight tree shape.root (heightOf shape) := by
  induction shape generalizing parent with
  | nil => exact .null
  | node address data left right leftIH rightIH =>
      rcases holds with ⟨found, leftHolds, rightHolds⟩
      exact .node found (leftIH leftHolds) (rightIH rightHolds)

/-- A valid tree obeys the rules on its cells. -/
theorem Valid.invariant {functionPolicy : Key → Key → Bool} {map : PairMap Value functionPolicy}
    (valid : Valid tree map) : Invariant functionPolicy tree := by
  rcases valid.shaped with ⟨shape, represents, avl, implements⟩
  constructor
  · refine ⟨map.toList, ?_, map.sorted⟩
    rw [represents.root, implements]
    exact represents.focus.inOrder
  · exact represents.parentLinks
  · intro address cell found
    rcases represents.exists_focus found with ⟨frames, data, left, right, whole, focus, rfl⟩
    rcases (whole ▸ avl : Avl (plug frames _)).context with ⟨nodeAvl, _⟩
    rcases nodeAvl with ⟨cached, lower, upper, _, _⟩
    refine ⟨heightOf left, heightOf right, realHeight_of_holds focus.near_frame.focus,
      realHeight_of_holds focus.far_frame.focus, ?_, ?_, lower, upper⟩
    · rw [Cell.info_of, cached, memberHeight_measured]
    · rw [Cell.info_of, cached]
      rfl

section Runs

variable (functionPolicy : Key → Key → Bool) [StrictWeak functionPolicy]

/-- Every sequence of operations from the empty tree runs to its end, and the
tree it reaches obeys the rules. -/
theorem balanceTree_run_invariant (operations : List (Operation Key Value)) :
    ∃ tree answers, run functionPolicy .empty operations = some (tree, answers) ∧
      Invariant functionPolicy tree := by
  have empty : Valid (.empty : BalanceTree Key Value) (.empty : PairMap Value functionPolicy) :=
    valid_empty
  rcases run_spec operations empty with ⟨tree, performed, valid⟩
  exact ⟨tree, _, performed, valid.invariant⟩

theorem balanceTree_run_invariant_example :
    ∃ tree answers, run less .empty
        [.push (2, 20), .push (1, 10), .push (3, 30), .push (4, 40), .pop 2, .find 3] =
          some (tree, answers) ∧
      Invariant (less : Nat → Nat → Bool) (tree : BalanceTree Nat Nat) :=
  balanceTree_run_invariant less _

/-- Every sequence of operations from the empty tree answers as the ordered map
does, and iteration then lists that map. -/
theorem balanceTree_run_refines (operations : List (Operation Key Value)) :
    ∃ tree, run functionPolicy .empty operations =
        some (tree, (specifyRun (.empty : PairMap Value functionPolicy) operations).2) ∧
      forward tree =
        some (specifyRun (.empty : PairMap Value functionPolicy) operations).1.toList := by
  have empty : Valid (.empty : BalanceTree Key Value) (.empty : PairMap Value functionPolicy) :=
    valid_empty
  rcases run_spec operations empty with ⟨tree, performed, valid⟩
  exact ⟨tree, performed, forward_spec valid⟩

theorem balanceTree_run_refines_example :
    ∃ tree, run less .empty
        [.push (2, 20), .push (1, 10), .push (2, 21), .find 2, .pop 2, .pop 7, .size] =
          some (tree, [.pushed true, .pushed true, .pushed false, .found (some (2, 20)),
            .popped, .popped, .counted 1]) ∧
      forward tree = some [((1, 10) : Nat × Nat)] :=
  balanceTree_run_refines (less : Nat → Nat → Bool)
    [.push (2, 20), .push (1, 10), .push (2, 21), .find 2, .pop 2, .pop 7, .size]

end Runs

end Wan.Container.BalanceTree
