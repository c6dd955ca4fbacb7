import Wan.Container.BalanceTree.Heights

/-!
# Rotations and cached heights

The effect of the link-level steps of `RebalanceFrom` on the represented tree.
-/

namespace Wan.Container.BalanceTree

open Wan.Library.LinkedTree

variable {Key Value : Type} {tree : BalanceTree Key Value}
variable {frames : List (Frame (AvlNodeData Key Value))}
variable {side : Side} {node : Addr} {data : AvlNodeData Key Value}
variable {near far shape : BinTree (AvlNodeData Key Value)}

theorem height_root (focus : Focus tree frames shape) (avl : Avl shape) :
    height tree shape.root = some (heightOf shape) := by
  rcases avl.height_eq with rfl | ⟨node, data, left, right, rfl, cached⟩
  · rfl
  · have whole : Focus tree frames (.mk .left node data left right) := focus
    simp [height, whole.read, cached]

/-- `UpdateHeightAndBalance` at a node whose subtrees are up to date. -/
theorem updateHeightAndBalance_spec (focus : Focus tree frames (.mk side node data near far))
    (nearAvl : Avl near) (farAvl : Avl far) :
    ∃ next, updateHeightAndBalance tree node = some next ∧
      Focus next frames (.mk side node (measured side data near far) near far) := by
  have nearHeight := height_root focus.near_frame nearAvl
  have farHeight := height_root focus.far_frame farAvl
  cases side with
  | left =>
      rcases focus.setInfo (·.withHeights (heightOf near) (heightOf far)) with
        ⟨next, changed, nextFocus⟩
      refine ⟨next, ?_, nextFocus⟩
      simp [updateHeightAndBalance, focus.read, nearHeight, farHeight, changed]
  | right =>
      rcases focus.setInfo (·.withHeights (heightOf far) (heightOf near)) with
        ⟨next, changed, nextFocus⟩
      refine ⟨next, ?_, nextFocus⟩
      simp [updateHeightAndBalance, focus.read, Cell.of, nearHeight, farHeight, changed]

/-- The redirected links turn the node below its child on the far side. -/
theorem turn_spec {outer inner : Addr} {outerData innerData : AvlNodeData Key Value}
    {a b c : BinTree (AvlNodeData Key Value)}
    (focus : Focus tree frames (.mk side outer outerData a (.mk side inner innerData b c))) :
    ∃ next, turn side tree outer = some (next, inner) ∧
      Focus next frames (.mk side inner innerData (.mk side outer outerData a b) c) := by
  have apart := focus.rotationApart
  have outerCell := focus.cell
  have innerFocus := focus.far_frame
  have innerCell := innerFocus.cell
  have middleFocus := innerFocus.near_frame
  have above := focus.context
  have siblings : ∀ frame rest, frames = frame :: rest → frame.sibling.root ≠ some outer := by
    intro frame rest equal
    subst equal
    simpa using focus.frame_sibling_root (by simp)
  simp only [BinTree.root_mk] at outerCell above
  -- The middle subtree changes sides.
  have firstWrite := Store.setChild_eq side.other b.root outerCell
  rw [Cell.setChild_other_of] at firstWrite
  generalize first : tree.put outer _ = one at firstWrite
  have oneOuter : one.cells outer = some (.of side outerData a.root b.root (parentOf frames)) := by
    simp [← first]
  have oneCells : ∀ query, query ≠ outer → one.cells query = tree.cells query := by
    intro query different
    simp [← first, different]
  have middleLive : ∀ query, b.root = some query → one.cells query ≠ none := by
    intro query root
    rw [oneCells query (fun equal => apart.middleOuter (equal ▸ root))]
    exact middleFocus.focus.allocated (BinTree.root_mem_addrs root)
  rcases Focus.adopt_spec b.root (some outer) middleLive with
    ⟨two, adopted, twoRoot, twoNext, twoMiddle, twoCells⟩
  have twoOuter := (twoCells outer apart.middleOuter).trans oneOuter
  have twoInner : two.cells inner = some (.of side innerData b.root c.root (some outer)) := by
    rw [twoCells inner apart.middleInner, oneCells inner apart.nodes.symm, innerCell]
    rfl
  -- The node and the pivot trade places.
  have thirdWrite := Store.setChild_eq side (some outer) twoInner
  rw [Cell.setChild_of] at thirdWrite
  generalize third : two.put inner _ = three at thirdWrite
  have threeOuter : three.cells outer =
      some (.of side outerData a.root b.root (parentOf frames)) := by
    simp [← third, apart.nodes, twoOuter]
  have fourthWrite := Store.setParent_eq (some inner) threeOuter
  rw [Cell.setParent_of] at fourthWrite
  generalize fourth : three.put outer _ = four at fourthWrite
  have fourInner : four.cells inner =
      some (.of side innerData (some outer) c.root (some outer)) := by
    simp [← fourth, apart.nodes.symm, ← third]
  have fifthWrite := Store.setParent_eq (parentOf frames) fourInner
  rw [Cell.setParent_of] at fifthWrite
  generalize fifth : four.put inner _ = five at fifthWrite
  have fiveCells : ∀ query, query ≠ outer → query ≠ inner → five.cells query = two.cells query := by
    intro query notOuter notInner
    simp [← fifth, ← fourth, ← third, notOuter, notInner]
  have rootEq : five.root = rootOf frames (some outer) := by
    rw [← fifth, Store.put_root, ← fourth, Store.put_root, ← third, Store.put_root, twoRoot,
      ← first, Store.put_root]
    simpa using focus.root
  have linkTop : ∀ frame rest, frames = frame :: rest →
      frame.sibling.root ≠ some outer ∧
        five.cells frame.address = some (frame.cell (some outer) (parentOf rest)) := by
    intro frame rest equal
    refine ⟨siblings frame rest equal, ?_⟩
    subst equal
    have isInner : frame.address ≠ inner := fun same => apart.aboveInner (by rw [← same]; rfl)
    have isOuter : frame.address ≠ outer := fun same => apart.aboveOuter (by rw [← same]; rfl)
    have isMiddle : b.root ≠ some frame.address := fun root => apart.middleAbove _ root rfl
    rw [fiveCells _ isOuter isInner, twoCells _ isMiddle, oneCells _ isOuter]
    exact above.1
  rcases Focus.relink_spec .left (some inner) rootEq linkTop with
    ⟨six, relinked, sixRoot, sixNext, sixLink, sixCells⟩
  refine ⟨six, ?_, ?_⟩
  · simp [turn, Store.read_eq outerCell, Store.read_eq innerCell, firstWrite, adopted, thirdWrite,
      fourthWrite, fifthWrite, relinked]
  · apply focus.rotate sixRoot
    · rw [sixCells outer apart.aboveOuter]
      simp [← fifth, apart.nodes, ← fourth]
    · rw [sixCells inner apart.aboveInner]
      simp [← fifth]
    · intro query cell root found
      have isOuter : query ≠ outer := fun same => apart.middleOuter (same ▸ root)
      have isInner : query ≠ inner := fun same => apart.middleInner (same ▸ root)
      rw [sixCells query (apart.middleAbove query root), fiveCells query isOuter isInner]
      exact twoMiddle query cell root (by rw [oneCells query isOuter, found])
    · exact sixLink
    · intro query isOuter isInner isMiddle isAbove
      rw [sixCells query isAbove, fiveCells query isOuter isInner, twoCells query isMiddle,
        oneCells query isOuter]
    · rw [sixNext, ← fifth, Store.put_next, ← fourth, Store.put_next, ← third, Store.put_next,
        twoNext, ← first, Store.put_next]

/-- A rotation turns the node below its child on the far side and renews both
caches. -/
theorem rotate_spec {outer inner : Addr} {outerData innerData : AvlNodeData Key Value}
    {a b c : BinTree (AvlNodeData Key Value)}
    (focus : Focus tree frames (.mk side outer outerData a (.mk side inner innerData b c)))
    (aAvl : Avl a) (bAvl : Avl b) (cAvl : Avl c)
    (lower : -1 ≤ heightOf b - heightOf a) (upper : heightOf b - heightOf a ≤ 1) :
    ∃ next, rotate side tree outer = some (next, inner) ∧
      Focus next frames (.mk side inner
        (measured side innerData (.mk side outer (measured side outerData a b) a b) c)
        (.mk side outer (measured side outerData a b) a b) c) := by
  rcases turn_spec focus with ⟨one, turned, oneFocus⟩
  rcases updateHeightAndBalance_spec oneFocus.near_frame aAvl bAvl with
    ⟨two, outerUpdated, twoFocus⟩
  have outerAvl : Avl (.mk side outer (measured side outerData a b) a b) :=
    avl_mk.mpr ⟨measured_measured.symm, lower, upper, aAvl, bAvl⟩
  rcases updateHeightAndBalance_spec twoFocus.up outerAvl cAvl with
    ⟨three, innerUpdated, threeFocus⟩
  exact ⟨three, by simp [rotate, turned, outerUpdated, innerUpdated], threeFocus⟩

end Wan.Container.BalanceTree
