import Wan.Container.BalanceTree.Clear
import Wan.Container.BinaryTree.Copy

/-!
# Clearing the binary search tree

`Clear` of the binary search tree is the same loop as that of the AVL tree, on nodes that have
no parent links.
-/

namespace Wan.Container

open Wan.Library Wan.Library.LinkedTree

namespace BinaryTree

variable {Value : Type}

/-- The child links of the nodes. -/
def rewiring : Rewiring (BinaryTree Value) where
  links tree node := (tree.read node).map fun content => (content.memberLeft, content.memberRight)
  setChild := setChild
  free := free

/-- `Clear`: the tree afterwards and the nodes in the order of their deletion. A node is rotated
up at most once, and deleted once. -/
def clear (tree : BinaryTree Value) : Option (BinaryTree Value × List Addr) := do
  let (tree, deleted) ← unravel rewiring (2 * tree.next) tree tree.memberRoot []
  return ({ tree with memberRoot := none }, deleted)

variable {tree : BinaryTree Value}

theorem links_put (node : Addr) (content : BinarySearchTreeTypeNode Value) :
    rewiring.links (tree.put node content) =
      (rewiring.links tree).write node (some (content.memberLeft, content.memberRight)) := by
  funext query
  by_cases same : query = node
  · simp [rewiring, read, put, Links.write, same]
  · simp [rewiring, read, put, Links.write, same]

theorem modify_eq {node : Addr} {content : BinarySearchTreeTypeNode Value}
    (change : BinarySearchTreeTypeNode Value → BinarySearchTreeTypeNode Value)
    (found : tree.read node = some content) :
    tree.modify node change = some (tree.put node (change content)) :=
  congrArg (Option.map _) found

theorem rewiring_lawful : (rewiring : Rewiring (BinaryTree Value)).Lawful where
  setLeft := by
    intro tree node left right link found
    obtain ⟨content, isContent, same⟩ := Option.map_eq_some_iff.1 found
    cases same
    exact ⟨_, modify_eq (·.setChild .left link) isContent, links_put ..⟩
  setRight := by
    intro tree node left right link found
    obtain ⟨content, isContent, same⟩ := Option.map_eq_some_iff.1 found
    cases same
    exact ⟨_, modify_eq (·.setChild .right link) isContent, links_put ..⟩
  free := by
    intro tree node children found
    obtain ⟨content, isContent, _⟩ := Option.map_eq_some_iff.1 found
    refine ⟨_, congrArg (Option.map _) isContent, ?_⟩
    funext query
    by_cases same : query = node
    · simp [rewiring, read, Links.write, same]
    · simp [rewiring, read, Links.write, same]

/-- Whatever tree the child links form, `Clear` deletes every node once and leaves none. -/
theorem clear_spec {α : Type} {shape : BinTree α}
    (spans : Spans rewiring tree tree.next tree.memberRoot shape) :
    ∃ after deleted, clear tree = some (after, deleted) ∧ deleted.Nodup ∧
      (∀ node, node ∈ deleted ↔ tree.nodes node ≠ none) ∧
      after.memberRoot = none ∧ ∀ node, after.nodes node = none := by
  obtain ⟨after, deleted, ran, nodup, all, gone⟩ := spans.unravel rewiring_lawful
  refine ⟨{ after with memberRoot := none }, deleted, ?_, nodup, ?_, rfl, ?_⟩
  · rw [clear, ran]
    rfl
  · intro node
    rw [all node]
    exact not_congr Option.map_eq_none_iff
  · intro node
    exact Option.map_eq_none_iff.1 (gone node)

/-- The nodes that a store stands for hold its tree. -/
theorem spans_erase {store : Store (TreeData Value)} {shape : BinTree (TreeData Value)}
    (represents : Represents store shape) :
    Spans rewiring (erase store) (erase store).next (erase store).memberRoot shape := by
  have links : rewiring.links (erase store) = Store.rewiring.links store := by
    funext query
    change ((store.cells query).map nodeOf).map _ = (store.cells query).map _
    rw [Option.map_map]
    rfl
  have spans := represents.spans
  exact ⟨⟨by rw [links]; exact spans.hangs, spans.nodup⟩, spans.root,
    by rw [links]; exact spans.owned, spans.bound⟩

/-- The nodes of every reachable tree hang together as one tree. -/
theorem Reachable.spans {functionPolicy : Value → Value → Bool} [StrictWeak functionPolicy]
    (reachable : Reachable functionPolicy tree) :
    ∃ shape : BinTree (TreeData Value), Spans rewiring tree tree.next tree.memberRoot shape := by
  obtain ⟨set, valid⟩ := reachable.valid
  obtain ⟨store, shape, rfl, represents, _⟩ := valid.stored
  exact ⟨shape, spans_erase represents⟩

end BinaryTree

/-- `Clear` ends on every binary search tree and every AVL tree, whatever its shape: it deletes
each node once, follows no link of a deleted one, and leaves no node. -/
theorem clear_deletes_all {Key Value α : Type} :
    (∀ (tree : BinaryTree Value) (shape : BinTree α),
      Spans BinaryTree.rewiring tree tree.next tree.memberRoot shape →
      ∃ after deleted, tree.clear = some (after, deleted) ∧ deleted.Nodup ∧
        (∀ node, node ∈ deleted ↔ tree.nodes node ≠ none) ∧
        after.memberRoot = none ∧ ∀ node, after.nodes node = none) ∧
    ∀ (tree : BalanceTree Key Value) (shape : BinTree α),
      Spans Store.rewiring tree tree.next tree.root shape →
      ∃ after deleted, BalanceTree.clear tree = some (after, deleted) ∧ deleted.Nodup ∧
        (∀ node, node ∈ deleted ↔ tree.cells node ≠ none) ∧
        after.root = none ∧ ∀ node, after.cells node = none :=
  ⟨fun _ _ => BinaryTree.clear_spec, fun _ _ => BalanceTree.clear_spec⟩

/-- A tree with two children below the root, and an AVL tree that has been rotated. -/
theorem clear_deletes_all_example :
    (∃ (tree after : BinaryTree Nat) (deleted : List Addr), tree.clear = some (after, deleted) ∧
      deleted.Nodup ∧ (∀ node, node ∈ deleted ↔ tree.nodes node ≠ none) ∧
      after.memberRoot = none ∧ ∀ node, after.nodes node = none) ∧
    ∃ (tree after : BalanceTree Nat Nat) (deleted : List Addr),
      BalanceTree.clear tree = some (after, deleted) ∧ deleted.Nodup ∧
      (∀ node, node ∈ deleted ↔ tree.cells node ≠ none) ∧
      after.root = none ∧ ∀ node, after.cells node = none := by
  constructor
  · have reachable : BinaryTree.Reachable less _ :=
      .perform (.perform (.perform .empty
            (rfl : BinaryTree.Operation.resolve _ (.push (.value 4)) = some _)
            (rfl : BinaryTree.perform less _ (.push (.value 4)) = some _))
          (rfl : BinaryTree.Operation.resolve _ (.push (.value 2)) = some _)
          (rfl : BinaryTree.perform less _ (.push (.value 2)) = some _))
        (rfl : BinaryTree.Operation.resolve _ (.push (.value 6)) = some _)
        (rfl : BinaryTree.perform less _ (.push (.value 6)) = some _)
    obtain ⟨shape, spans⟩ := reachable.spans
    exact ⟨_, (@clear_deletes_all Nat _ _).1 _ shape spans⟩
  · have reachable : BalanceTree.Reachable less _ :=
      .perform (.perform (.perform .empty
            (rfl : BalanceTree.perform less _ (.push (2, 7)) = some _))
          (rfl : BalanceTree.perform less _ (.push (4, 8)) = some _))
        (rfl : BalanceTree.perform less _ (.push (6, 9)) = some _)
    obtain ⟨shape, spans⟩ := reachable.spans
    exact ⟨_, clear_deletes_all.2 _ shape spans⟩

end Wan.Container
