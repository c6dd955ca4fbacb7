import Wan.Container.BinaryTree.Erasure

/-!
# Counting the nodes of the binary search tree

The traversal keeps a stack of nodes that are visited with their right subtrees later.
-/

namespace Wan.Container.BinaryTree

open Wan.Library.LinkedTree

variable {Value : Type} {store : Store (TreeData Value)} {parent : Option Addr}
variable {tree : BinTree (TreeData Value)} {pending : List (Addr × BinTree (TreeData Value))}

/-- The nodes on the stack are allocated and have the right subtrees that are still to come. -/
def Pending (store : Store (TreeData Value))
    (pending : List (Addr × BinTree (TreeData Value))) : Prop :=
  ∀ entry ∈ pending, (∃ cell, store.cells entry.1 = some cell ∧ cell.right = entry.2.root) ∧
    entry.2.Holds store.cells (some entry.1) ∧ entry.2.addrs.length < store.bound

/-- How many nodes the stack stands for. -/
def weight (pending : List (Addr × BinTree (TreeData Value))) : Nat :=
  (pending.map fun entry => entry.2.addrs.length + 1).sum

@[simp] theorem weight_nil : weight ([] : List (Addr × BinTree (TreeData Value))) = 0 := rfl

@[simp] theorem weight_cons (node : Addr) (right : BinTree (TreeData Value)) :
    weight ((node, right) :: pending) = right.addrs.length + 1 + weight pending := rfl

/-- The traversal goes on as long as a node is left. -/
theorem goesOn_iff (pending : List (Addr × BinTree (TreeData Value)))
    (tree : BinTree (TreeData Value)) :
    (tree.root.isSome || !(pending.map Prod.fst).isEmpty) = true ↔
      tree.addrs.length + weight pending ≠ 0 := by
  cases tree with
  | nil =>
      cases pending with
      | nil => simp
      | cons entry pending => simp [weight]
  | node address info left right => simp [BinTree.addrs]

/-- Going down the left side moves a whole subtree onto the stack. -/
theorem pushLeft_spec (fuel : Nat) (holds : tree.Holds store.cells parent)
    (small : tree.addrs.length < store.bound) (listed : Pending store pending)
    (enough : tree.addrs.length < fuel) :
    ∃ pushed, (erase store).pushLeft fuel tree.root (pending.map Prod.fst) =
        some (pushed.map Prod.fst) ∧
      Pending store pushed ∧ weight pushed = tree.addrs.length + weight pending := by
  induction tree generalizing fuel parent pending with
  | nil =>
      obtain ⟨fuel, rfl⟩ := Nat.exists_eq_succ_of_ne_zero (Nat.ne_zero_of_lt enough)
      exact ⟨pending, rfl, listed, by simp⟩
  | node address info left right leftIH _ =>
      obtain ⟨fuel, rfl⟩ := Nat.exists_eq_succ_of_ne_zero (Nat.ne_zero_of_lt enough)
      obtain ⟨found, leftHolds, rightHolds⟩ := holds
      simp only [BinTree.addrs, List.length_cons, List.length_append] at small enough
      have longer : Pending store ((address, right) :: pending) :=
        List.forall_mem_cons.mpr ⟨⟨⟨_, found, rfl⟩, rightHolds, by simp only; omega⟩, listed⟩
      obtain ⟨pushed, result, pushedListed, pushedWeight⟩ :=
        leftIH fuel leftHolds (by omega) longer (by omega)
      refine ⟨pushed, ?_, pushedListed, ?_⟩
      · simpa [pushLeft, erase_read found, nodeOf] using result
      · simp only [pushedWeight, weight_cons, BinTree.addrs, List.length_cons,
          List.length_append]
        omega

/-- The traversal counts every node once. -/
theorem countLoop_spec (fuel count : Nat) (holds : tree.Holds store.cells parent)
    (small : tree.addrs.length < store.bound) (listed : Pending store pending)
    (enough : tree.addrs.length + weight pending < fuel) :
    (erase store).countLoop fuel tree.root (pending.map Prod.fst) count =
      some (count + (tree.addrs.length + weight pending)) := by
  induction fuel generalizing tree parent pending count with
  | zero => exact absurd enough (Nat.not_lt_zero _)
  | succ fuel ih =>
      obtain ⟨pushed, result, pushedListed, pushedWeight⟩ :=
        pushLeft_spec store.bound holds small listed small
      rw [← pushedWeight] at enough ⊢
      by_cases left : weight pushed = 0
      · have empty := (goesOn_iff pending tree).not.mpr
          (not_not.mpr (pushedWeight.symm.trans left))
        rw [countLoop, if_neg empty, left, Nat.add_zero]
      · have more := (goesOn_iff pending tree).mpr (pushedWeight ▸ left)
        cases pushed with
        | nil => exact absurd rfl left
        | cons top rest =>
            obtain ⟨node, right⟩ := top
            obtain ⟨⟨⟨cell, found, link⟩, rightHolds, rightSmall⟩, restListed⟩ :=
              List.forall_mem_cons.mp pushedListed
            simp only [weight_cons] at enough ⊢
            have counted := ih (count + 1) rightHolds rightSmall restListed
              (show right.addrs.length + weight rest < fuel by omega)
            have read := erase_read found
            simp only at link read
            rw [countLoop, if_pos more]
            simp only [erase_bound, result, List.map_cons,
              Option.bind_eq_bind, Option.bind_some, read, nodeOf, link, counted]
            rw [Option.some.injEq]
            omega

/-- `Size` counts the nodes of the represented tree. -/
theorem size_eq (represents : Represents store tree) :
    (erase store).size = some tree.addrs.length := by
  have length := represents.length_le
  have small : tree.addrs.length < store.bound := by unfold Store.bound; omega
  have none : Pending store [] := by simp [Pending]
  have counted := countLoop_spec store.bound 0 represents.focus small none (by simpa using small)
  rw [size, erase_memberRoot, show store.root = tree.root from represents.root]
  simpa using counted

end Wan.Container.BinaryTree
