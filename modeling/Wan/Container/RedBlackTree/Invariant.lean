import Wan.Container.RedBlackTree.Run
import Wan.Library.LinkedTree.Rules

/-!
# The invariant of the red-black tree

The colour and link rules stated on the cells themselves, without reference to
the represented tree, and the two theorems about whole runs.
-/

namespace Wan.Container.RedBlackTree

open Wan.Library Wan.Library.LinkedTree

variable {Key Value : Type}

/-- Some path from a link down to a null link meets the given number of black
nodes. -/
inductive BlackPath (tree : RedBlackTree Value) : Option Addr → Nat → Prop where
  | null : BlackPath tree none 0
  | red {address : Addr} {cell : Cell (RbNodeData Value)} {count : Nat} (side : Side)
      (found : tree.cells address = some cell) (color : cell.info.memberColor = .red)
      (below : BlackPath tree (cell.child side) count) : BlackPath tree (some address) count
  | black {address : Addr} {cell : Cell (RbNodeData Value)} {count : Nat} (side : Side)
      (found : tree.cells address = some cell) (color : cell.info.memberColor = .black)
      (below : BlackPath tree (cell.child side) count) :
      BlackPath tree (some address) (count + 1)

/-- The rules that every reachable tree obeys. -/
structure Invariant (element : Value → Key) (functionPolicy : Key → Key → Bool)
    (tree : RedBlackTree Value) : Prop where
  ordered : ∃ values, tree.InOrder tree.root values ∧
    values.Pairwise fun v w => functionPolicy (element v) (element w) = true
  parents : tree.ParentLinks
  rootBlack : ∀ address cell, tree.root = some address → tree.cells address = some cell →
    cell.info.memberColor = .black
  redChildren : ∀ address cell side child below, tree.cells address = some cell →
    cell.info.memberColor = .red → cell.child side = some child →
    tree.cells child = some below → below.info.memberColor = .black
  blackCount : ∃ count, ∀ other, BlackPath tree tree.root other → other = count

variable {tree : RedBlackTree Value} {shape : BinTree (RbNodeData Value)}
variable {frames : List (Frame (RbNodeData Value))} {parent : Option Addr} {count : Nat}

theorem blackPath_of_balanced (holds : shape.Holds tree.cells parent)
    (balanced : Balanced shape count) {other : Nat} (path : BlackPath tree shape.root other) :
    other = count := by
  induction shape generalizing parent count other with
  | nil =>
      cases path
      exact balanced.symm
  | node address info left right leftIH rightIH =>
      rcases holds with ⟨top, leftHolds, rightHolds⟩
      have whole : Balanced (.mk .left address info left right) count := balanced
      -- Whichever child the path takes, it counts what lies below that child.
      have descend : ∀ side below rest,
          BlackPath tree ((Cell.of .left info left.root right.root parent).child side) rest →
          Balanced left below → Balanced right below → rest = below := by
        intro side below rest path leftBalanced rightBalanced
        cases side with
        | left => exact leftIH leftHolds leftBalanced path
        | right => exact rightIH rightHolds rightBalanced path
      cases path with
      | red side found color rest =>
          cases top.symm.trans found
          rcases (balanced_mk_red color).mp whole with ⟨_, _, leftBalanced, rightBalanced⟩
          exact descend side count _ rest leftBalanced rightBalanced
      | black side found color rest =>
          cases top.symm.trans found
          rcases (balanced_mk_black color).mp whole with ⟨below, rfl, leftBalanced, rightBalanced⟩
          rw [descend side below _ rest leftBalanced rightBalanced]

/-- The colour of a focused root is the colour of its cell. -/
theorem color_of_root {root : Addr} {cell : Cell (RbNodeData Value)}
    (focus : Focus tree frames shape) (rootEq : shape.root = some root)
    (found : tree.cells root = some cell) : cell.info.memberColor = treeColor shape := by
  rcases BinTree.exists_mk_of_root .left rootEq with ⟨info, left, right, rfl⟩
  cases focus.cell.symm.trans found
  simp

/-- A valid tree obeys the rules on its cells. -/
theorem Valid.invariant {element : Value → Key} {functionPolicy : Key → Key → Bool}
    {map : OrderedMap element functionPolicy} (valid : Valid tree map) :
    Invariant element functionPolicy tree := by
  rcases valid.shaped with ⟨shape, represents, colored, implements⟩
  have rootEq : tree.root = shape.root := represents.root
  constructor
  · refine ⟨map.toList, ?_, map.sorted⟩
    rw [rootEq, implements]
    exact represents.focus.inOrder
  · exact represents.parentLinks
  · intro address cell root found
    rw [rootEq] at root
    exact (color_of_root represents root found).trans colored.1
  · intro address cell side child below found red link childFound
    rcases represents.exists_focus found with ⟨frames, info, left, right, whole, focus, rfl⟩
    rcases focus.exists_child link with ⟨inner, tree, childFocus, root, _, isChild⟩
    rcases (whole ▸ colored : WellColored (plug frames _)).context with ⟨count, _, balanced, _⟩
    rw [Cell.info_of] at red
    rcases (balanced_mk_red red).mp balanced with ⟨leftBlack, rightBlack, _⟩
    rw [color_of_root childFocus root childFound]
    rcases isChild with rfl | rfl
    · exact leftBlack
    · exact rightBlack
  · rcases colored with ⟨_, count, balanced⟩
    refine ⟨count, fun other path => ?_⟩
    rw [rootEq] at path
    exact blackPath_of_balanced represents.focus balanced path

section Runs

variable (element : Value → Key) (functionPolicy : Key → Key → Bool) [StrictWeak functionPolicy]

/-- Every sequence of operations from the empty tree runs to its end, and the
tree it reaches obeys the rules. -/
theorem redBlackTree_run_invariant (operations : List (Operation Key Value)) :
    ∃ tree answers, run element functionPolicy .empty operations = some (tree, answers) ∧
      Invariant element functionPolicy tree := by
  have empty : Valid (.empty : RedBlackTree Value)
      (.empty : OrderedMap element functionPolicy) := valid_empty
  rcases run_spec operations empty with ⟨tree, performed, valid⟩
  exact ⟨tree, _, performed, valid.invariant⟩

theorem redBlackTree_run_invariant_example :
    ∃ tree answers, run Prod.fst less .empty
        [.push (2, 20), .push (1, 10), .push (3, 30), .push (4, 40), .popKey 2, .pop (1, 0)] =
          some (tree, answers) ∧
      Invariant (Prod.fst : Nat × Nat → Nat) less tree :=
  redBlackTree_run_invariant Prod.fst less _

/-- Every sequence of operations from the empty tree answers as the ordered map
does, and forward iteration then lists that map. -/
theorem redBlackTree_run_refines (operations : List (Operation Key Value)) :
    ∃ tree, run element functionPolicy .empty operations =
        some (tree, (specifyRun (.empty : OrderedMap element functionPolicy) operations).2) ∧
      forward tree =
        some (specifyRun (.empty : OrderedMap element functionPolicy) operations).1.toList := by
  have empty : Valid (.empty : RedBlackTree Value)
      (.empty : OrderedMap element functionPolicy) := valid_empty
  rcases run_spec operations empty with ⟨tree, performed, valid⟩
  exact ⟨tree, performed, forward_spec valid⟩

theorem redBlackTree_run_refines_example :
    ∃ tree, run Prod.fst less .empty
        [.push (2, 20), .push (1, 10), .push (2, 21), .findKey 2, .popKey 2, .size] =
          some (tree, [.pushed (2, 20) true, .pushed (1, 10) true, .pushed (2, 20) false,
            .found (some (2, 20)), .popped true, .counted 1]) ∧
      forward tree = some [((1, 10) : Nat × Nat)] :=
  redBlackTree_run_refines (Prod.fst : Nat × Nat → Nat) less
    [.push (2, 20), .push (1, 10), .push (2, 21), .findKey 2, .popKey 2, .size]

end Runs

end Wan.Container.RedBlackTree
