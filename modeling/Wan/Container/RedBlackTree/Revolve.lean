import Wan.Container.RedBlackTree.Balance

/-!
# Rotations and recolouring of a red-black tree

The effect of the link-level steps of the fix-up loops on the represented tree.
-/

namespace Wan.Container.RedBlackTree

open Wan.Library.LinkedTree

variable {Value : Type} {tree : RedBlackTree Value}
variable {frames : List (Frame (RbNodeData Value))}

/-- A rotation turns the focused node below its child on the far side. -/
theorem revolve_spec {side : Side} {outer inner : Addr} {outerInfo innerInfo : RbNodeData Value}
    {a b c : BinTree (RbNodeData Value)}
    (focus : Focus tree frames (.mk side outer outerInfo a (.mk side inner innerInfo b c))) :
    ∃ next, revolve side tree outer = some next ∧
      Focus next frames (.mk side inner innerInfo (.mk side outer outerInfo a b) c) := by
  have apart := focus.rotationApart
  have outerCell := focus.cell
  have innerFocus := focus.far_frame
  have innerCell := innerFocus.cell
  have middleFocus := innerFocus.near_frame
  have above := focus.context
  have siblings : ∀ frame rest, frames = frame :: rest → frame.sibling.root ≠ some outer := by
    intro frame rest equal
    subst equal
    simpa using focus.frame_sibling_root (by simp)
  simp only [BinTree.root_mk] at outerCell above
  -- The middle subtree changes sides.
  have firstWrite := Store.setChild_eq side.other b.root outerCell
  rw [Cell.setChild_other_of] at firstWrite
  generalize first : tree.put outer _ = one at firstWrite
  have oneOuter : one.cells outer = some (.of side outerInfo a.root b.root (parentOf frames)) := by
    simp [← first]
  have oneCells : ∀ query, query ≠ outer → one.cells query = tree.cells query := by
    intro query different
    simp [← first, different]
  have middleLive : ∀ query, b.root = some query → one.cells query ≠ none := by
    intro query root
    have different : query ≠ outer := fun equal => apart.middleOuter (equal ▸ root)
    rw [oneCells query different]
    exact middleFocus.focus.allocated (BinTree.root_mem_addrs root)
  obtain ⟨two, adopted, twoRoot, twoNext, twoMiddle, twoCells⟩ :=
    Focus.adopt_spec b.root (some outer) middleLive
  have twoOuter := (twoCells outer apart.middleOuter).trans oneOuter
  have twoInner : two.cells inner = some (.of side innerInfo b.root c.root (some outer)) := by
    rw [twoCells inner apart.middleInner, oneCells inner apart.nodes.symm, innerCell]
    rfl
  -- The pivot takes the place of the node below its parent.
  have thirdWrite := Store.setParent_eq (parentOf frames) twoInner
  rw [Cell.setParent_of] at thirdWrite
  generalize third : two.put inner _ = three at thirdWrite
  have threeCells : ∀ query, query ≠ inner → three.cells query = two.cells query := by
    intro query different
    simp [← third, different]
  have rootEq : three.root = rootOf frames (some outer) := by
    rw [← third, Store.put_root, twoRoot, ← first, Store.put_root]
    simpa using focus.root
  have linkTop : ∀ frame rest, frames = frame :: rest →
      frame.sibling.root ≠ some outer ∧
        three.cells frame.address = some (frame.cell (some outer) (parentOf rest)) := by
    intro frame rest equal
    refine ⟨siblings frame rest equal, ?_⟩
    subst equal
    have isInner : frame.address ≠ inner := fun same => apart.aboveInner (by rw [← same]; rfl)
    have isOuter : frame.address ≠ outer := fun same => apart.aboveOuter (by rw [← same]; rfl)
    have isMiddle : b.root ≠ some frame.address := fun root => apart.middleAbove _ root rfl
    rw [threeCells _ isInner, twoCells _ isMiddle, oneCells _ isOuter]
    exact above.1
  obtain ⟨four, relinked, fourRoot, fourNext, fourLink, fourCells⟩ :=
    Focus.relink_spec side (some inner) rootEq linkTop
  -- The node becomes a child of the pivot.
  have fourInner : four.cells inner =
      some (.of side innerInfo b.root c.root (parentOf frames)) := by
    rw [fourCells inner apart.aboveInner, ← third]
    simp
  have fourOuter : four.cells outer =
      some (.of side outerInfo a.root b.root (parentOf frames)) := by
    rw [fourCells outer apart.aboveOuter, threeCells outer apart.nodes, twoOuter]
  have fifthWrite := Store.setChild_eq side (some outer) fourInner
  rw [Cell.setChild_of] at fifthWrite
  generalize fifth : four.put inner _ = five at fifthWrite
  have fiveOuter : five.cells outer =
      some (.of side outerInfo a.root b.root (parentOf frames)) := by
    simp [← fifth, apart.nodes, fourOuter]
  have sixthWrite := Store.setParent_eq (some inner) fiveOuter
  rw [Cell.setParent_of] at sixthWrite
  generalize sixth : five.put outer _ = six at sixthWrite
  have sixCells : ∀ query, query ≠ outer → query ≠ inner → six.cells query = four.cells query := by
    intro query notOuter notInner
    simp [← sixth, ← fifth, notOuter, notInner]
  refine ⟨six, ?_, ?_⟩
  · simp [revolve, Store.read_eq outerCell, Store.read_eq innerCell, firstWrite, adopted,
      Store.read_eq twoOuter, thirdWrite, relinked, fifthWrite, sixthWrite]
  · refine focus.rotate ?_ ?_ ?_ ?_ ?_ ?_ ?_
    · rw [← sixth, Store.put_root, ← fifth, Store.put_root, fourRoot]
    · simp [← sixth]
    · simp [← sixth, apart.nodes.symm, ← fifth]
    · intro query cell root found
      have isOuter : query ≠ outer := fun same => apart.middleOuter (same ▸ root)
      have isInner : query ≠ inner := fun same => apart.middleInner (same ▸ root)
      rw [sixCells query isOuter isInner, fourCells query (apart.middleAbove query root),
        threeCells query isInner]
      exact twoMiddle query cell root (by rw [oneCells query isOuter, found])
    · intro frame rest equal
      rw [sixCells, fourLink frame rest equal]
      · exact fun same => apart.aboveOuter (by rw [equal, ← same]; rfl)
      · exact fun same => apart.aboveInner (by rw [equal, ← same]; rfl)
    · intro query isOuter isInner isMiddle isAbove
      rw [sixCells query isOuter isInner, fourCells query isAbove, threeCells query isInner,
        twoCells query isMiddle, oneCells query isOuter]
    · rw [← sixth, Store.put_next, ← fifth, Store.put_next, fourNext, ← third, Store.put_next,
        twoNext, ← first, Store.put_next]

/-- Recolouring the focused node. -/
theorem setColor_spec {side : Side} {node : Addr} {info : RbNodeData Value}
    {near far : BinTree (RbNodeData Value)} (color : RbTreeColor)
    (focus : Focus tree frames (.mk side node info near far)) :
    ∃ next, setColor tree node color = some next ∧
      Focus next frames (.mk side node (info.withColor color) near far) :=
  focus.setInfo _

theorem getColor_root {shape : BinTree (RbNodeData Value)} (focus : Focus tree frames shape) :
    getColor tree shape.root = some (treeColor shape) := by
  cases shape with
  | nil => rfl
  | node node info left right =>
      have whole : Focus tree frames (.mk .left node info left right) := focus
      simp [getColor, whole.read, treeColor]

theorem redGet_root {shape : BinTree (RbNodeData Value)} (focus : Focus tree frames shape) :
    redGet tree shape.root = some (decide (treeColor shape = .red)) := by
  simp [redGet, getColor_root focus]

theorem blackGet_root {shape : BinTree (RbNodeData Value)} (focus : Focus tree frames shape) :
    blackGet tree shape.root = some (decide (treeColor shape = .black)) := by
  simp [blackGet, getColor_root focus]

/-- Painting a subtree black through a link that may be null. -/
theorem paintBlack_spec {shape : BinTree (RbNodeData Value)} (focus : Focus tree frames shape) :
    ∃ next, paintBlack tree shape.root = some next ∧ Focus next frames (blacken shape) := by
  cases shape with
  | nil => exact ⟨tree, rfl, focus⟩
  | node node info left right =>
      have whole : Focus tree frames (.mk .left node info left right) := focus
      exact setColor_spec .black whole

end Wan.Container.RedBlackTree
