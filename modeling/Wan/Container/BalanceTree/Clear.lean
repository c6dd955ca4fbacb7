import Wan.Container.BalanceTree.Copy
import Wan.Library.LinkedTree.Unravel

/-!
# Clearing the AVL tree

`Clear` rotates left children up by their child links alone; parent links, heights and balance
factors are left as they are.
-/

namespace Wan.Container.BalanceTree

open Wan.Library Wan.Library.LinkedTree

variable {Key Value : Type}

/-- `Clear`: the tree afterwards and the nodes in the order of their deletion. A node is rotated
up at most once, and deleted once. -/
def clear (tree : BalanceTree Key Value) : Option (BalanceTree Key Value × List Addr) := do
  let (tree, deleted) ← unravel Store.rewiring (2 * tree.next) tree tree.root []
  return (tree.setRoot none, deleted)

/-- Whatever tree the child links form, `Clear` deletes every node once and leaves none. -/
theorem clear_spec {α : Type} {tree : BalanceTree Key Value} {shape : BinTree α}
    (spans : Spans Store.rewiring tree tree.next tree.root shape) :
    ∃ after deleted, clear tree = some (after, deleted) ∧ deleted.Nodup ∧
      (∀ node, node ∈ deleted ↔ tree.cells node ≠ none) ∧
      after.root = none ∧ ∀ node, after.cells node = none := by
  obtain ⟨after, deleted, ran, nodup, all, gone⟩ := spans.unravel Store.rewiring_lawful
  refine ⟨after.setRoot none, deleted, ?_, nodup, ?_, rfl, ?_⟩
  · rw [clear, ran]
    rfl
  · intro node
    rw [all node]
    exact not_congr Option.map_eq_none_iff
  · intro node
    exact Option.map_eq_none_iff.1 (gone node)

/-- The nodes of every reachable tree hang together as one tree. -/
theorem Reachable.spans {functionPolicy : Key → Key → Bool} [StrictWeak functionPolicy]
    {tree : BalanceTree Key Value} (reachable : Reachable functionPolicy tree) :
    ∃ shape : BinTree (AvlNodeData Key Value),
      Spans Store.rewiring tree tree.next tree.root shape := by
  obtain ⟨map, valid⟩ := reachable.valid
  obtain ⟨shape, represents, _⟩ := valid.shaped
  exact ⟨shape, represents.spans⟩

end Wan.Container.BalanceTree
