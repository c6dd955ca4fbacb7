import Wan.Container.BalanceTree.Run
import Wan.Library.LinkedTree.Copy

/-!
# The copy constructor of the AVL tree

The nodes of the copy are allocated in the memory that the nodes of the source are in.
-/

namespace Wan.Container.BalanceTree

open Wan.Library Wan.Library.LinkedTree

variable {Key Value : Type}

/-- The pushes of the children of a node of the source, below the node of the copy. -/
def pushChildren (firstNode : Cell (AvlNodeData Key Value)) (newStructureNode : Addr)
    (stack : List (Addr × Addr)) : List (Addr × Addr) :=
  let stack := match firstNode.right with
    | none => stack
    | some right => (right, newStructureNode) :: stack
  match firstNode.left with
  | none => stack
  | some left => (left, newStructureNode) :: stack

/-- `IsleftChild`. -/
def isLeftChild (tree : BalanceTree Key Value) (firstNode : Addr) : Option Bool := do
  match (← tree.read firstNode).parent with
  | none => return false
  | some parent => return (← tree.read parent).left = some firstNode

/-- The loop of the copy constructor. -/
def copyLoop : Nat → BalanceTree Key Value → List (Addr × Addr) → Option (BalanceTree Key Value)
  | _, tree, [] => some tree
  | 0, _, _ :: _ => none
  | fuel + 1, tree, (firstNode, secondNode) :: stack => do
      let first ← tree.read firstNode
      let (newStructureNode, tree) := tree.alloc first.info (some secondNode)
      let side := if ← isLeftChild tree firstNode then Side.left else Side.right
      let tree ← tree.setChild side secondNode (some newStructureNode)
      copyLoop fuel tree (pushChildren first newStructureNode stack)

/-- The copy constructor: the memory with the nodes of both trees, and the root of the copy. -/
def copy (avlTreeData : BalanceTree Key Value) : Option (BalanceTree Key Value) :=
  match avlTreeData.root with
  | none => some (avlTreeData.setRoot none)
  | some root => do
      let rootNode ← avlTreeData.read root
      let (memberRoot, tree) := avlTreeData.alloc rootNode.info none
      copyLoop avlTreeData.bound (tree.setRoot (some memberRoot))
        (pushChildren rootNode memberRoot [])

/-- The trees that the operations and copying reach. -/
inductive Reachable (functionPolicy : Key → Key → Bool) : BalanceTree Key Value → Prop where
  | empty : Reachable functionPolicy .empty
  | perform {tree next : BalanceTree Key Value} {operation : Operation Key Value}
      {answer : Answer Key Value} (reachable : Reachable functionPolicy tree)
      (performed : perform functionPolicy tree operation = some (next, answer)) :
      Reachable functionPolicy next
  | copy {tree memory : BalanceTree Key Value} (reachable : Reachable functionPolicy tree)
      (copied : copy tree = some memory) : Reachable functionPolicy (memory.beyond tree.next)

section Copy

variable {tree memory : BalanceTree Key Value} {shape twin : BinTree (AvlNodeData Key Value)}

/-- The place of a copy: below the second node, on the side that the source node is on. -/
def copySide (tree : BalanceTree Key Value) (firstNode : Addr) (_ : Addr) : Option Side := do
  return if ← isLeftChild tree firstNode then .left else .right

theorem finds_copySide : Finds (fun _ node => node) id (@copySide Key Value) := by
  constructor
  · intro _ _
    rfl
  · intro tree side node address source cell child found isChild leftOther below parent
    simp only [copySide, isLeftChild, Store.read_eq below, parent, Store.read_eq found,
      Option.bind_eq_bind, Option.bind_some, Option.pure_def]
    cases side with
    | left => simp [show cell.left = some source from isChild]
    | right => simp [leftOther rfl]

theorem pushChildren_eq (firstNode : Cell (AvlNodeData Key Value)) (node : Addr)
    (stack : List (Addr × Addr)) :
    pushChildren firstNode node stack =
      offer (fun _ node => node) node .left firstNode.left ++
        (offer (fun _ node => node) node .right firstNode.right ++ stack) := by
  rw [pushChildren]
  cases firstNode.left <;> cases firstNode.right <;> rfl

theorem copyLoop_eq (fuel : Nat) (tree : BalanceTree Key Value) (stack : List (Addr × Addr)) :
    copyLoop fuel tree stack =
      tree.preorderLoop (fun _ node => node) id copySide fuel stack := by
  induction fuel generalizing tree stack with
  | zero => cases stack <;> rfl
  | succ fuel ih =>
      cases stack with
      | nil => rfl
      | cons entry stack =>
          rcases entry with ⟨firstNode, secondNode⟩
          rw [copyLoop, Store.preorderLoop]
          simp only [ih, pushChildren_eq, copySide, id, Option.bind_eq_bind, Option.bind_assoc,
            Option.pure_def, Option.bind_some]

/-- The copy of a tree is a tree of its own that duplicates it. -/
theorem copy_spec (represents : Represents tree shape) :
    ∃ memory twin, copy tree = some memory ∧ Copied tree memory shape twin := by
  cases shape with
  | nil =>
      have root : tree.root = none := represents.root
      exact ⟨_, .nil, by rw [copy, root], copied_nil represents⟩
  | node address data left right =>
      have root : tree.root = some address := represents.root
      have found := represents.focus.1
      rcases preorderLoop_copied finds_copySide represents (Nat.le_succ _) with
        ⟨memory, twin, ran, copied⟩
      refine ⟨memory, twin, ?_, copied⟩
      rw [← ran, copy, root, Store.bound]
      simp only [Store.read_eq found, Option.bind_eq_bind, Option.bind_some, copyLoop_eq,
        pushChildren_eq, List.append_nil]
      rfl

/-- Trees of one shape have one height. -/
theorem heightOf_alike (alike : shape.Alike twin) : heightOf twin = heightOf shape := by
  induction alike with
  | nil => rfl
  | node _ _ leftIH rightIH => rw [heightOf, heightOf, leftIH, rightIH]

theorem Avl.alike (avl : Avl shape) (alike : shape.Alike twin) : Avl twin := by
  induction alike with
  | nil => trivial
  | node leftAlike rightAlike leftIH rightIH =>
      rcases avl with ⟨cached, lower, upper, left, right⟩
      rw [Avl, measured, heightOf_alike leftAlike, heightOf_alike rightAlike]
      exact ⟨cached, lower, upper, leftIH left, rightIH right⟩

variable {functionPolicy : Key → Key → Bool} {map : PairMap Value functionPolicy}

/-- The copy of a valid tree stands for the same map. -/
theorem Valid.copy (valid : Valid tree map) :
    ∃ memory, copy tree = some memory ∧ (∃ twin, tree.Duplicates memory twin) ∧
      Valid (memory.beyond tree.next) map := by
  rcases valid.shaped with ⟨shape, represents, avl, implements⟩
  rcases copy_spec represents with ⟨memory, twin, done, copied⟩
  refine ⟨memory, done, copied.duplicates, twin, copied.represents, avl.alike copied.alike, ?_⟩
  rw [Implements, copied.alike.values]
  exact implements

/-- Every reachable tree stands for a map. -/
theorem Reachable.valid [StrictWeak functionPolicy] (reachable : Reachable functionPolicy tree) :
    ∃ map : PairMap Value functionPolicy, Valid tree map := by
  induction reachable with
  | empty => exact ⟨.empty, valid_empty⟩
  | @perform tree next operation answer _ performed ih =>
      rcases ih with ⟨map, valid⟩
      rcases perform_spec operation valid with ⟨other, done, kept⟩
      rw [performed] at done
      cases done
      exact ⟨_, kept⟩
  | @copy tree memory _ copied ih =>
      rcases ih with ⟨map, valid⟩
      rcases valid.copy with ⟨other, done, _, kept⟩
      rw [copied] at done
      cases done
      exact ⟨map, kept⟩

end Copy

end Wan.Container.BalanceTree
