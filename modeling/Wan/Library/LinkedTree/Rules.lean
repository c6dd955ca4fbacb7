import Wan.Library.LinkedTree.Entries
import Wan.Library.LinkedTree.Walk

/-!
# Rules on cells

What it means for the cells of a store to form a tree with parent links, stated
on the links themselves and proved of every store that represents a tree.
-/

namespace Wan.Library.LinkedTree

variable {α V : Type} [Payload α V]

/-- The values below a link, from left to right. -/
inductive Store.InOrder (store : Store α) : Option Addr → List V → Prop where
  | null : store.InOrder none []
  | node {address : Addr} {cell : Cell α} {smaller larger : List V}
      (found : store.cells address = some cell) (left : store.InOrder cell.left smaller)
      (right : store.InOrder cell.right larger) :
      store.InOrder (some address) (smaller ++ Payload.value cell.info :: larger)

/-- Every child names its actual parent, and the root names none. -/
structure Store.ParentLinks (store : Store α) : Prop where
  child : ∀ address cell side child, store.cells address = some cell →
    cell.child side = some child →
    ∃ below, store.cells child = some below ∧ below.parent = some address
  root : ∀ address, store.root = some address →
    ∃ cell, store.cells address = some cell ∧ cell.parent = none

variable {store : Store α} {tree : BinTree α} {frames : List (Frame α)} {parent : Option Addr}

theorem BinTree.Holds.inOrder (holds : tree.Holds store.cells parent) :
    store.InOrder tree.root (valuesOf tree.inorder) := by
  induction tree generalizing parent with
  | nil => exact .null
  | node address info left right leftIH rightIH =>
      rcases holds with ⟨found, leftHolds, rightHolds⟩
      have whole := Store.InOrder.node found (leftIH leftHolds) (rightIH rightHolds)
      simpa [BinTree.inorder] using whole

namespace Focus

/-- Following a child link of a focused node focuses the subtree there. -/
theorem exists_child {address child : Addr} {info : α} {left right : BinTree α} {side : Side}
    (focus : Focus store frames (.mk .left address info left right))
    (link : (Cell.of .left info left.root right.root (parentOf frames)).child side =
      some child) :
    ∃ inner below, Focus store inner below ∧ below.root = some child ∧
      parentOf inner = some address ∧ (below = left ∨ below = right) := by
  cases side with
  | left => exact ⟨_, left, focus.near_frame, link, rfl, Or.inl rfl⟩
  | right => exact ⟨_, right, focus.far_frame, link, rfl, Or.inr rfl⟩

/-- A store that represents a tree obeys the rules of parent links. -/
theorem parentLinks (represents : Represents store tree) : store.ParentLinks := by
  constructor
  · intro address cell side child found link
    rcases represents.exists_focus found with ⟨frames, info, left, right, _, focus, rfl⟩
    rcases focus.exists_child link with ⟨inner, below, childFocus, root, above, _⟩
    rcases childFocus.root_cell root with ⟨cell, childFound, parentEq⟩
    exact ⟨cell, childFound, parentEq.trans above⟩
  · intro address root
    exact represents.root_cell (represents.root.symm.trans root)

end Focus

end Wan.Library.LinkedTree
