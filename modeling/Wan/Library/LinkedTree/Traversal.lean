import Wan.Library.LinkedTree.Entries
import Wan.Library.LinkedTree.Walk

/-!
# Traversals with an explicit stack

The two loops that visit every node of a tree with a stack of nodes instead of a recursion.  The
memory is a parameter, of which only the values and the child links of nodes are read.  What a
visit does is a parameter too, so printing and counting are instances of one loop.
-/

namespace Wan.Library.LinkedTree

/-- What a traversal reads: the value and the child links of every allocated node. -/
abbrev Nodes (V : Type) := Addr → Option (V × Option Addr × Option Addr)

section Loops

variable {V ω : Type} (nodes : Nodes V) (visit : ω → V → ω)

/-- Push a node and everything on the way down its left side. -/
def pushLeft : Nat → Option Addr → List Addr → Option (List Addr)
  | 0, _, _ => none
  | _ + 1, none, stack => some stack
  | fuel + 1, some node, stack => do
      let (_, left, _) ← nodes node
      pushLeft fuel left (node :: stack)

/-- Visit the left subtree, the node and the right subtree; `bound` is for the inner loop. -/
def middleOrder (bound : Nat) : Nat → Option Addr → List Addr → ω → Option ω
  | 0, _, _, _ => none
  | fuel + 1, node, stack, seen =>
      if node.isSome || !stack.isEmpty then do
        match ← pushLeft nodes bound node stack with
        | [] => none
        | top :: stack => do
            let (data, _, right) ← nodes top
            middleOrder bound fuel right stack (visit seen data)
      else
        some seen

/-- Visit the node, the left subtree and the right subtree: the right child is pushed first. -/
def preOrder : Nat → List Addr → ω → Option ω
  | 0, _, _ => none
  | _ + 1, [], seen => some seen
  | fuel + 1, node :: stack, seen => do
      let (data, left, right) ← nodes node
      let stack := right.toList ++ stack
      let stack := left.toList ++ stack
      preOrder fuel stack (visit seen data)

end Loops

section Shape

variable {α V : Type} [Payload α V]

/-- The values of a tree from left to right. -/
def BinTree.middleValues (tree : BinTree α) : List V := valuesOf tree.inorder

/-- The values of a tree, each before those below it. -/
def BinTree.preValues : BinTree α → List V
  | .nil => []
  | .node _ info left right => Payload.value info :: (left.preValues ++ right.preValues)

@[simp] theorem BinTree.middleValues_nil : (.nil : BinTree α).middleValues = [] := rfl

@[simp] theorem BinTree.middleValues_node (address : Addr) (info : α) (left right : BinTree α) :
    (BinTree.node address info left right).middleValues =
      left.middleValues ++ Payload.value info :: right.middleValues := by
  simp [middleValues, inorder]

@[simp] theorem BinTree.preValues_nil : (.nil : BinTree α).preValues = [] := rfl

@[simp] theorem BinTree.preValues_node (address : Addr) (info : α) (left right : BinTree α) :
    (BinTree.node address info left right).preValues =
      Payload.value info :: (left.preValues ++ right.preValues) := rfl

/-- Both orders list the same values. -/
theorem BinTree.preValues_perm (tree : BinTree α) :
    tree.preValues.Perm tree.middleValues := by
  induction tree with
  | nil => exact List.Perm.refl _
  | node address info left right leftIH rightIH =>
      rw [preValues_node, middleValues_node]
      exact ((leftIH.append rightIH).cons _).trans List.perm_middle.symm

theorem BinTree.length_middleValues (tree : BinTree α) :
    tree.middleValues.length = tree.addrs.length := by
  rw [middleValues, valuesOf, List.length_map, Focus.inorder_length]

/-- The values and child links of a tree are in place. -/
def BinTree.Seen (nodes : Nodes V) : BinTree α → Prop
  | .nil => True
  | .node address info left right =>
      nodes address = some (Payload.value info, left.root, right.root) ∧
        left.Seen nodes ∧ right.Seen nodes

end Shape

section Traversals

variable {α V ω : Type} [Payload α V] {nodes : Nodes V} (visit : ω → V → ω)
variable {tree : BinTree α} {pending : List (Addr × α × BinTree α)}

/-- The nodes on the stack, with the right subtrees that are visited after them. -/
def OnStack (nodes : Nodes V) (pending : List (Addr × α × BinTree α)) : Prop :=
  ∀ entry ∈ pending, (∃ left, nodes entry.1 =
    some (Payload.value entry.2.1, left, entry.2.2.root)) ∧ entry.2.2.Seen nodes

/-- The values that the stack still stands for. -/
def toCome (pending : List (Addr × α × BinTree α)) : List V :=
  pending.flatMap fun entry => Payload.value entry.2.1 :: entry.2.2.middleValues

@[simp] theorem toCome_nil : toCome ([] : List (Addr × α × BinTree α)) = [] := rfl

@[simp] theorem toCome_cons (address : Addr) (info : α) (right : BinTree α) :
    toCome ((address, info, right) :: pending) =
      Payload.value info :: (right.middleValues ++ toCome pending) := rfl

/-- Going down the left side moves a subtree onto the stack and keeps what is to come. -/
theorem pushLeft_spec (fuel : Nat) (seen : tree.Seen nodes) (listed : OnStack nodes pending)
    (enough : tree.addrs.length < fuel) :
    ∃ pushed : List (Addr × α × BinTree α), pushLeft nodes fuel tree.root (pending.map Prod.fst) =
        some (pushed.map Prod.fst) ∧
      OnStack nodes pushed ∧ toCome pushed = tree.middleValues ++ toCome pending := by
  induction tree generalizing fuel pending with
  | nil =>
      obtain ⟨fuel, rfl⟩ := Nat.exists_eq_succ_of_ne_zero (Nat.ne_zero_of_lt enough)
      exact ⟨pending, rfl, listed, rfl⟩
  | node address info left right leftIH _ =>
      obtain ⟨fuel, rfl⟩ := Nat.exists_eq_succ_of_ne_zero (Nat.ne_zero_of_lt enough)
      obtain ⟨found, leftSeen, rightSeen⟩ := seen
      simp only [BinTree.addrs, List.length_cons, List.length_append] at enough
      have longer : OnStack nodes ((address, info, right) :: pending) :=
        List.forall_mem_cons.mpr ⟨⟨⟨_, found⟩, rightSeen⟩, listed⟩
      obtain ⟨pushed, result, pushedListed, values⟩ := leftIH fuel leftSeen longer (by omega)
      refine ⟨pushed, ?_, pushedListed, ?_⟩
      · simpa [pushLeft, found] using result
      · rw [values, toCome_cons, BinTree.middleValues_node, List.append_assoc, List.cons_append]

/-- The loop goes on as long as a value is to come. -/
theorem goesOn_iff (pending : List (Addr × α × BinTree α)) (tree : BinTree α) :
    (tree.root.isSome || !(pending.map Prod.fst).isEmpty) = true ↔
      tree.middleValues ++ toCome pending ≠ [] := by
  cases tree with
  | nil => cases pending <;> simp [toCome, BinTree.root]
  | node address info left right => simp [BinTree.root]

/-- The loop visits what is to come, in order. -/
theorem middleOrder_spec {bound : Nat} (fuel : Nat) (start : ω) (seen : tree.Seen nodes)
    (listed : OnStack nodes pending)
    (small : (tree.middleValues ++ toCome pending).length < bound)
    (enough : (tree.middleValues ++ toCome pending).length < fuel) :
    middleOrder nodes visit bound fuel tree.root (pending.map Prod.fst) start =
      some ((tree.middleValues ++ toCome pending).foldl visit start) := by
  induction fuel generalizing tree pending start with
  | zero => exact absurd enough (Nat.not_lt_zero _)
  | succ fuel ih =>
      have room : tree.addrs.length < bound := by
        rw [← tree.length_middleValues]
        exact Nat.lt_of_le_of_lt (List.sublist_append_left ..).length_le small
      obtain ⟨pushed, result, pushedListed, values⟩ := pushLeft_spec bound seen listed room
      rw [← values] at small enough ⊢
      cases pushed with
      | nil =>
          have empty := (goesOn_iff pending tree).not.mpr (not_not.mpr values.symm)
          rw [middleOrder, if_neg empty]
          rfl
      | cons top rest =>
          obtain ⟨node, info, right⟩ := top
          obtain ⟨⟨⟨left, found⟩, rightSeen⟩, restListed⟩ := List.forall_mem_cons.mp pushedListed
          have more := (goesOn_iff pending tree).mpr (values ▸ List.cons_ne_nil _ _)
          rw [toCome_cons, List.length_cons] at small enough
          have visited := ih (visit start (Payload.value info)) rightSeen restListed
            (Nat.lt_of_succ_lt small) (Nat.lt_of_succ_lt_succ enough)
          rw [middleOrder, if_pos more, result, toCome_cons, List.foldl_cons]
          simp only [Option.bind_eq_bind, Option.bind_some, List.map_cons, found]
          exact visited

/-- The middle-order traversal visits the values from left to right. -/
theorem middleOrder_eq {bound : Nat} (start : ω) (seen : tree.Seen nodes)
    (small : tree.addrs.length < bound) :
    middleOrder nodes visit bound bound tree.root [] start =
      some (tree.middleValues.foldl visit start) := by
  have none : OnStack nodes ([] : List (Addr × α × BinTree α)) := by simp [OnStack]
  have total : (tree.middleValues ++ toCome ([] : List (Addr × α × BinTree α))).length < bound := by
    rwa [toCome_nil, List.append_nil, BinTree.length_middleValues]
  have visited := middleOrder_spec visit bound start seen none total total
  rwa [toCome_nil, List.append_nil] at visited

/-- A subtree on top of the stack is visited before what lies below it. -/
theorem preOrder_subtree (fuel : Nat) (stack : List Addr) (start : ω) (seen : tree.Seen nodes) :
    preOrder nodes visit (fuel + tree.addrs.length) (tree.root.toList ++ stack) start =
      preOrder nodes visit fuel stack (tree.preValues.foldl visit start) := by
  induction tree generalizing fuel stack start with
  | nil => rfl
  | node address info left right leftIH rightIH =>
      obtain ⟨found, leftSeen, rightSeen⟩ := seen
      have rest : fuel + (BinTree.node address info left right).addrs.length =
          fuel + right.addrs.length + left.addrs.length + 1 := by
        simp only [BinTree.addrs, List.length_cons, List.length_append]
        omega
      rw [rest, BinTree.root, Option.toList_some, List.singleton_append, preOrder, found]
      simp only [Option.bind_eq_bind, Option.bind_some]
      rw [leftIH (fuel + right.addrs.length) _ _ leftSeen, rightIH fuel _ _ rightSeen,
        BinTree.preValues_node, List.foldl_cons, List.foldl_append]

/-- The pre-order traversal visits every value before those below it. -/
theorem preOrder_eq {bound : Nat} (start : ω) (seen : tree.Seen nodes)
    (small : tree.addrs.length < bound) :
    preOrder nodes visit bound tree.root.toList start =
      some (tree.preValues.foldl visit start) := by
  obtain ⟨fuel, rfl⟩ := Nat.exists_eq_add_of_lt small
  rw [show tree.addrs.length + fuel + 1 = fuel + 1 + tree.addrs.length by omega]
  have visited := preOrder_subtree visit (fuel + 1) [] start seen
  rw [List.append_nil] at visited
  rw [visited, preOrder]

end Traversals

end Wan.Library.LinkedTree
