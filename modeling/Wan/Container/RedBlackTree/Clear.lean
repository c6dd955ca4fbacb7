import Wan.Container.RedBlackTree.Copy
import Wan.Library.LinkedTree.Unravel

/-!
# Clearing the red-black tree

`Clear` works at the root with whole rotations, parent links included, so that what is left is a
tree of its own after every step.
-/

namespace Wan.Container.RedBlackTree

open Wan.Library Wan.Library.LinkedTree

variable {Key Value : Type}

/-- The branch of `Clear` for a root without a left child. -/
def deleteRoot (tree : RedBlackTree Value) (node : Addr) : Option (RedBlackTree Value) := do
  let right := (← tree.read node).right
  let tree ← (tree.setRoot right).adopt right none
  tree.free node

/-- The loop of `Clear`: the tree afterwards and the nodes in the order of their deletion. -/
def clearLoop : Nat → RedBlackTree Value → List Addr → Option (RedBlackTree Value × List Addr)
  | 0, tree, deleted => if tree.root = none then some (tree, deleted) else none
  | fuel + 1, tree, deleted =>
      match tree.root with
      | none => some (tree, deleted)
      | some node => do
          if (← tree.read node).left.isSome then
            clearLoop fuel (← rightRevolve tree node) deleted
          else
            clearLoop fuel (← deleteRoot tree node) (deleted ++ [node])

/-- `Clear`. A node is rotated up at most once, and deleted once. -/
def clear (tree : RedBlackTree Value) : Option (RedBlackTree Value × List Addr) :=
  clearLoop (2 * tree.next) tree []

section Clear

variable {tree : RedBlackTree Value} {right : BinTree (RbNodeData Value)}

/-- Deleting the root leaves its right subtree. -/
theorem deleteRoot_spec {node : Addr} {info : RbNodeData Value}
    (represents : Represents tree (.node node info .nil right)) :
    ∃ next, deleteRoot tree node = some next ∧ Represents next right := by
  have focus : Focus tree [] (.mk .left node info .nil right) := represents
  obtain ⟨next, moved, _, stays, rest⟩ := focus.transplant_spec
  have found := represents.focus.1
  refine ⟨next.hide node, ?_, rest⟩
  rw [Store.transplant, Store.read_eq found, Option.bind_eq_bind, Option.bind_some] at moved
  change (tree.setRoot right.root).adopt right.root none = some next at moved
  rw [deleteRoot, Store.read_eq found, Option.bind_eq_bind, Option.bind_some]
  change ((tree.setRoot right.root).adopt right.root none).bind (·.free node) = _
  rw [moved, Option.bind_some, Store.free_eq (stays.trans found)]

variable {node : Addr} {cell : Cell (RbNodeData Value)} {next : RedBlackTree Value}

theorem clearLoop_nil (root : tree.root = none) (fuel : Nat) (deleted : List Addr) :
    clearLoop fuel tree deleted = some (tree, deleted) := by
  cases fuel with
  | zero => exact if_pos root
  | succ fuel =>
      unfold clearLoop
      rw [root]

/-- The iteration at a root with a left child. -/
theorem clearLoop_rotate (root : tree.root = some node) (found : tree.cells node = some cell)
    (left : cell.left.isSome) (turned : rightRevolve tree node = some next) (fuel : Nat)
    (deleted : List Addr) :
    clearLoop (fuel + 1) tree deleted = clearLoop fuel next deleted := by
  rw [clearLoop.eq_def]
  dsimp only
  rw [root]
  simp only [Store.read_eq found, turned, left, Option.bind_eq_bind, Option.bind_some, if_true]

/-- The iteration at a root without one. -/
theorem clearLoop_delete (root : tree.root = some node) (found : tree.cells node = some cell)
    (left : cell.left = none) (removed : deleteRoot tree node = some next) (fuel : Nat)
    (deleted : List Addr) :
    clearLoop (fuel + 1) tree deleted = clearLoop fuel next (deleted ++ [node]) := by
  rw [clearLoop.eq_def]
  dsimp only
  rw [root]
  simp only [Store.read_eq found, removed, left, Option.bind_eq_bind, Option.bind_some,
    Option.isSome_none, Bool.false_eq_true, if_false]

/-- The loop ends, deletes the nodes from left to right, and leaves none. -/
theorem clearLoop_spec {fuel : Nat} {shape : BinTree (RbNodeData Value)}
    (represents : Represents tree shape) (enough : shape.effort ≤ fuel) (deleted : List Addr) :
    ∃ after, clearLoop fuel tree deleted = some (after, deleted ++ shape.inorder.map Prod.fst) ∧
      Represents after .nil := by
  -- The root of the remaining tree stays the root of the store, and each iteration saves effort.
  induction fuel generalizing tree shape deleted with
  | zero =>
      cases shape with
      | nil =>
          refine ⟨tree, ?_, represents⟩
          rw [clearLoop_nil represents.root, BinTree.inorder_nil, List.map_nil, List.append_nil]
      | node address info left right =>
          rw [BinTree.effort] at enough
          omega
  | succ fuel ih =>
      cases shape with
      | nil =>
          refine ⟨tree, ?_, represents⟩
          rw [clearLoop_nil represents.root, BinTree.inorder_nil, List.map_nil, List.append_nil]
      | node outer outerInfo left c =>
          have root : tree.root = some outer := represents.root
          have found := represents.focus.1
          cases left with
          | nil =>
              obtain ⟨next, removed, rest⟩ := deleteRoot_spec represents
              rw [BinTree.effort, BinTree.addrs_nil, List.length_nil] at enough
              obtain ⟨after, ran, empty⟩ := ih rest (by omega) (deleted ++ [outer])
              refine ⟨after, ?_, empty⟩
              rw [clearLoop_delete root found rfl removed, ran, List.append_assoc]
              rfl
          | node inner innerInfo a b =>
              have focus : Focus tree []
                  (.mk .right outer outerInfo c (.mk .right inner innerInfo b a)) := represents
              obtain ⟨next, turned, rest⟩ := revolve_spec focus
              rw [BinTree.effort_rotate] at enough
              obtain ⟨after, ran, empty⟩ := ih rest (Nat.le_of_succ_le_succ enough) deleted
              refine ⟨after, ?_, empty⟩
              have order : (BinTree.node outer outerInfo (.node inner innerInfo a b) c).inorder =
                  (BinTree.node inner innerInfo a (.node outer outerInfo b c)).inorder :=
                BinTree.inorder_rotate .left inner outer innerInfo outerInfo a b c
              rw [clearLoop_rotate root found rfl turned, order]
              exact ran

/-- `Clear` ends on every red-black tree, whatever its shape: it deletes each node once, uses no
deleted one, and leaves none. -/
theorem clear_revolving_deletes_all {tree : RedBlackTree Value}
    {shape : BinTree (RbNodeData Value)}
    (represents : Represents tree shape) :
    ∃ after deleted, clear tree = some (after, deleted) ∧ deleted.Nodup ∧
      (∀ node, node ∈ deleted ↔ tree.cells node ≠ none) ∧
      after.root = none ∧ ∀ node, after.cells node = none := by
  have spans := represents.spans
  have enough : shape.effort ≤ 2 * tree.next :=
    Nat.le_trans shape.effort_le (Nat.mul_le_mul_left 2 spans.length_le)
  obtain ⟨after, ran, empty⟩ := clearLoop_spec represents enough []
  have perm := shape.inorder_addrs_perm
  refine ⟨after, _, ran, perm.nodup_iff.2 spans.nodup, ?_, empty.root, ?_⟩
  · intro node
    rw [List.nil_append, perm.mem_iff]
    exact ⟨represents.focus.allocated, fun live => by simpa [contextAddrs] using represents.owned node live⟩
  · intro node
    by_contra live
    exact absurd (empty.owned node live) List.not_mem_nil

/-- The nodes of every reachable tree are those of one tree. -/
theorem Reachable.represents {element : Value → Key} {functionPolicy : Key → Key → Bool}
    [StrictWeak functionPolicy] (reachable : Reachable element functionPolicy tree) :
    ∃ shape, Represents tree shape := by
  obtain ⟨map, valid⟩ := reachable.valid
  obtain ⟨shape, represents, _⟩ := valid.shaped
  exact ⟨shape, represents⟩

/-- Four elements, one of them to the left of the root. -/
theorem clear_revolving_deletes_all_example :
    ∃ (tree after : RedBlackTree Nat) (deleted : List Addr), clear tree = some (after, deleted) ∧
      deleted.Nodup ∧ (∀ node, node ∈ deleted ↔ tree.cells node ≠ none) ∧
      after.root = none ∧ ∀ node, after.cells node = none := by
  have reachable : Reachable (id : Nat → Nat) less _ :=
    .perform (.perform (.perform (.perform .empty
            (rfl : perform id less _ (.push 4) = some _))
          (rfl : perform id less _ (.push 6) = some _))
        (rfl : perform id less _ (.push 2) = some _))
      (rfl : perform id less _ (.push 5) = some _)
  obtain ⟨shape, represents⟩ := reachable.represents
  exact ⟨_, clear_revolving_deletes_all represents⟩

end Clear

end Wan.Container.RedBlackTree
