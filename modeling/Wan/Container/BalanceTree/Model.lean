import Wan.Library.LinkedTree.Entries
import Wan.Library.LinkedTree.Remove

/-!
# The AVL tree of `Container/Tree.hpp`

`TreeContainer::BalanceTree` as a program over a store of linked cells.  The
payload of a cell is `MemberData`, `MemberBalanceFactor` and `MemberHeight`; a
key-value pair is a Lean pair.  `RotateLeft` and `RotateRight` share one
definition with a side, and so do the two mirrored branches of `RebalanceFrom`.
-/

namespace Wan.Container

open Wan.Library.LinkedTree

/-- The payload of `AvlTreeTypeNode`. -/
structure AvlNodeData (Key Value : Type) where
  memberData : Key × Value
  memberBalanceFactor : Int
  memberHeight : Int
  deriving Repr

/-- The payload after the assignments of `UpdateHeightAndBalance`. -/
def AvlNodeData.withHeights {Key Value : Type} (data : AvlNodeData Key Value)
    (leftHeight rightHeight : Int) : AvlNodeData Key Value :=
  { data with
    memberHeight := max leftHeight rightHeight + 1
    memberBalanceFactor := rightHeight - leftHeight }

instance {Key Value : Type} : Payload (AvlNodeData Key Value) (Key × Value) where
  value := AvlNodeData.memberData

@[simp] theorem AvlNodeData.value_eq {Key Value : Type} (data : AvlNodeData Key Value) :
    Payload.value data = data.memberData := rfl

/-- `BalanceTree`: its nodes and its root link. -/
abbrev BalanceTree (Key Value : Type) := Store (AvlNodeData Key Value)

namespace BalanceTree

variable {Key Value : Type}

/-- `Height`: a null link has height zero. -/
def height (tree : BalanceTree Key Value) : Option Addr → Option Int
  | none => some 0
  | some node => do return (← tree.read node).info.memberHeight

/-- `UpdateHeightAndBalance`. -/
def updateHeightAndBalance (tree : BalanceTree Key Value) (node : Addr) :
    Option (BalanceTree Key Value) := do
  let cell ← tree.read node
  let leftHeight ← height tree cell.left
  let rightHeight ← height tree cell.right
  tree.setInfo node (·.withHeights leftHeight rightHeight)

/-- The links that `RotateLeft` and `RotateRight` redirect: `side` is the side
towards which the node turns. Returns the pivot. -/
def turn (side : Side) (tree : BalanceTree Key Value) (node : Addr) :
    Option (BalanceTree Key Value × Addr) := do
  let pivot ← (← tree.read node).child side.other
  let parent := (← tree.read node).parent
  let inner := (← tree.read pivot).child side
  let tree ← tree.setChild side.other node inner
  let tree ← tree.adopt inner (some node)
  let tree ← tree.setChild side pivot (some node)
  let tree ← tree.setParent node (some pivot)
  let tree ← tree.setParent pivot parent
  return (← tree.relink .left parent node (some pivot), pivot)

/-- The common body of `RotateLeft` and `RotateRight`. -/
def rotate (side : Side) (tree : BalanceTree Key Value) (node : Addr) :
    Option (BalanceTree Key Value × Addr) := do
  let (tree, pivot) ← turn side tree node
  let tree ← updateHeightAndBalance tree node
  let tree ← updateHeightAndBalance tree pivot
  return (tree, pivot)

/-- `RotateLeft`. -/
def rotateLeft (tree : BalanceTree Key Value) (node : Addr) :
    Option (BalanceTree Key Value × Addr) :=
  rotate .left tree node

/-- `RotateRight`. -/
def rotateRight (tree : BalanceTree Key Value) (node : Addr) :
    Option (BalanceTree Key Value × Addr) :=
  rotate .right tree node

/-- The test on the balance factor of the heavy child: it leans to the side
opposite to `heavy`. -/
def leansAway (heavy : Side) (balanceFactor : Int) : Bool :=
  match heavy with
  | .left => 0 < balanceFactor
  | .right => balanceFactor < 0

/-- The rotations of `RebalanceFrom` at a node that is too heavy on one side.
Returns the root of the turned subtree. -/
def rotateHeavy (heavy : Side) (tree : BalanceTree Key Value) (node : Addr) :
    Option (BalanceTree Key Value × Addr) := do
  let child ← (← tree.read node).child heavy
  if leansAway heavy (← tree.read child).info.memberBalanceFactor then do
    let (tree, _) ← rotate heavy tree child
    rotate heavy.other tree node
  else
    rotate heavy.other tree node

/-- The body of the loop of `RebalanceFrom`. Returns `SubtreeRoot`. -/
def rebalanceStep (tree : BalanceTree Key Value) (node : Addr) :
    Option (BalanceTree Key Value × Addr) := do
  let tree ← updateHeightAndBalance tree node
  let balanceFactor := (← tree.read node).info.memberBalanceFactor
  if balanceFactor < -1 then
    rotateHeavy .left tree node
  else if balanceFactor > 1 then
    rotateHeavy .right tree node
  else
    return (tree, node)

/-- The loop of `RebalanceFrom`. -/
def rebalanceLoop : Nat → BalanceTree Key Value → Option Addr →
    Option (BalanceTree Key Value)
  | 0, _, _ => none
  | _ + 1, tree, none => some tree
  | fuel + 1, tree, some node => do
      let (tree, subtreeRoot) ← rebalanceStep tree node
      rebalanceLoop fuel tree (← tree.read subtreeRoot).parent

/-- `RebalanceFrom`. -/
def rebalanceFrom (tree : BalanceTree Key Value) (node : Option Addr) :
    Option (BalanceTree Key Value) :=
  rebalanceLoop (tree.bound + 1) tree node

section Keys

variable (functionPolicy : Key → Key → Bool)

/-- The choice made at a node by the search loop of `Insert`. -/
def insertAt (key : Key) (node : AvlNodeData Key Value) : Option Side :=
  if !functionPolicy key node.memberData.1 && !functionPolicy node.memberData.1 key then
    none
  else if functionPolicy key node.memberData.1 then
    some .left
  else
    some .right

/-- The choice made at a node by the loop of `Find`. -/
def findAt (key : Key) (node : AvlNodeData Key Value) : Option Side :=
  if !functionPolicy node.memberData.1 key && !functionPolicy key node.memberData.1 then
    none
  else if functionPolicy node.memberData.1 key then
    some .right
  else
    some .left

/-- The part of `Insert` that links the new node below its parent. -/
def linkNewNode (tree : BalanceTree Key Value) (value : Key × Value) (newNode : Addr) :
    Option Addr → Option (BalanceTree Key Value)
  | none => some (tree.setRoot (some newNode))
  | some parent => do
      if functionPolicy value.1 (← tree.read parent).info.memberData.1 then
        tree.setChild .left parent (some newNode)
      else
        tree.setChild .right parent (some newNode)

/-- `Insert`: whether the pair was inserted. -/
def insert (tree : BalanceTree Key Value) (value : Key × Value) :
    Option (BalanceTree Key Value × Bool) := do
  let (parent, current) ← tree.descend (insertAt functionPolicy value.1) tree.bound none tree.root
  match current with
  | some _ => return (tree, false)
  | none =>
      let (newNode, tree) := tree.alloc ⟨value, 0, 1⟩ parent
      let tree ← linkNewNode functionPolicy tree value newNode parent
      return (← rebalanceFrom tree parent, true)

/-- `Push`. -/
def push (tree : BalanceTree Key Value) (pairTypeData : Key × Value) :
    Option (BalanceTree Key Value × Bool) :=
  insert functionPolicy tree pairTypeData

/-- `Find`. -/
def find (tree : BalanceTree Key Value) (keyData : Key) : Option (Option Addr) := do
  let (_, node) ← tree.descend (findAt functionPolicy keyData) tree.bound none tree.root
  return node

end Keys

/-- The lambda `ReplaceNode` of `Pop`. -/
def replaceNode (tree : BalanceTree Key Value) (oldNode : Addr) (newNode : Option Addr) :
    Option (BalanceTree Key Value) :=
  tree.transplant oldNode newNode

/-- The branches of `Pop` for a target with at most one child, which is
`onlyChild`. Returns the tree and `RebalanceStart`. -/
def popSimple (tree : BalanceTree Key Value) (target : Addr) (onlyChild : Option Addr) :
    Option (BalanceTree Key Value × Option Addr) := do
  let parent := (← tree.read target).parent
  let rebalanceStart := if parent.isSome then parent else onlyChild
  return (← replaceNode tree target onlyChild, rebalanceStart)

/-- The part of `Pop` that takes the successor out of its place. -/
def detachSuccessor (tree : BalanceTree Key Value) (target successor : Addr) :
    Option (BalanceTree Key Value × Option Addr) := do
  let parent := (← tree.read successor).parent
  if parent = some target then
    return (tree, some successor)
  else
    return (← tree.detach target successor, parent)

/-- The branch of `Pop` for a target with two children. -/
def popTwoChildren (tree : BalanceTree Key Value) (target rightChild : Addr) :
    Option (BalanceTree Key Value × Option Addr) := do
  let successor ← tree.extreme .left tree.bound rightChild
  let (tree, rebalanceStart) ← detachSuccessor tree target successor
  let tree ← tree.takeOver target successor
  let tree ← updateHeightAndBalance tree successor
  return (tree, rebalanceStart)

/-- The part of `Pop` before `delete Target`. -/
def unlinkTarget (tree : BalanceTree Key Value) (target : Addr) :
    Option (BalanceTree Key Value × Option Addr) := do
  match (← tree.read target).left, (← tree.read target).right with
  | none, right => popSimple tree target right
  | some left, none => popSimple tree target (some left)
  | some _, some right => popTwoChildren tree target right

/-- `Pop`. -/
def pop (functionPolicy : Key → Key → Bool) (tree : BalanceTree Key Value) (keyData : Key) :
    Option (BalanceTree Key Value) := do
  match ← find functionPolicy tree keyData with
  | none => return tree
  | some target =>
      let (tree, rebalanceStart) ← unlinkTarget tree target
      let tree ← tree.free target
      rebalanceFrom tree rebalanceStart

/-- `Size`. -/
def size (tree : BalanceTree Key Value) : Option Nat := Store.size tree

/-- `Begin`: the node of the returned iterator. -/
def begin (tree : BalanceTree Key Value) : Option (Option Addr) := tree.endpoint .left

/-- `AvlTreeIterator::operator++` on the node of an iterator. -/
def increment (tree : BalanceTree Key Value) (node : Addr) : Option (Option Addr) :=
  tree.advance .right node

end BalanceTree

end Wan.Container
