import Wan.Library.LinkedTree.Store

/-!
# The binary search tree of `Container/Tree.hpp`

`TreeContainer::BinaryTree` as a program over allocated nodes with two child links.  An argument
is a value of the caller or a reference to the `MemberData` of a node, and is read wherever the
source reads it.  A result `none` is a null or dangling access or a loop that outruns its bound.
-/

namespace Wan.Container

open Wan.Library.LinkedTree

/-- `BinarySearchTreeTypeNode`. -/
structure BinarySearchTreeTypeNode (Value : Type) where
  memberLeft : Option Addr
  memberRight : Option Addr
  memberData : Value
  deriving Repr

namespace BinarySearchTreeTypeNode

variable {Value : Type}

/-- The child link on one side. -/
def child (node : BinarySearchTreeTypeNode Value) : Side → Option Addr
  | .left => node.memberLeft
  | .right => node.memberRight

/-- The node after an assignment to `MemberLeft` or `MemberRight`. -/
def setChild (node : BinarySearchTreeTypeNode Value) :
    Side → Option Addr → BinarySearchTreeTypeNode Value
  | .left, link => { node with memberLeft := link }
  | .right, link => { node with memberRight := link }

end BinarySearchTreeTypeNode

/-- `BinaryTree`: its nodes, the first address that was never handed out, and `MemberRoot`. -/
structure BinaryTree (Value : Type) where
  nodes : Addr → Option (BinarySearchTreeTypeNode Value)
  next : Addr
  memberRoot : Option Addr

/-- What a caller passes for a `const BinarySearchTreeType &`. -/
inductive Argument (Value : Type) where
  | value (value : Value)
  | element (node : Addr)
  deriving Repr

namespace BinaryTree

variable {Value : Type}

/-- The tree after construction. -/
def empty : BinaryTree Value := ⟨fun _ => none, 0, none⟩

section Memory

variable (tree : BinaryTree Value)

/-- A bound on the iterations of a walk: no walk visits more nodes than were ever allocated. -/
def bound : Nat := tree.next + 1

/-- Read an allocated node. -/
def read (node : Addr) : Option (BinarySearchTreeTypeNode Value) := tree.nodes node

/-- Overwrite a node. -/
def put (node : Addr) (content : BinarySearchTreeTypeNode Value) : BinaryTree Value :=
  { tree with nodes := fun query => if query = node then some content else tree.nodes query }

/-- Change an allocated node. -/
def modify (node : Addr)
    (change : BinarySearchTreeTypeNode Value → BinarySearchTreeTypeNode Value) :
    Option (BinaryTree Value) :=
  (tree.nodes node).map fun content => tree.put node (change content)

/-- Assignment to `MemberLeft` or `MemberRight`. -/
def setChild (side : Side) (node : Addr) (link : Option Addr) : Option (BinaryTree Value) :=
  tree.modify node (·.setChild side link)

/-- Assignment to `MemberData`. -/
def setData (node : Addr) (data : Value) : Option (BinaryTree Value) :=
  tree.modify node ({ · with memberData := data })

/-- `new ContainerNode(Data)`. -/
def alloc (data : Value) : Addr × BinaryTree Value :=
  (tree.next, { tree.put tree.next ⟨none, none, data⟩ with next := tree.next + 1 })

/-- `delete Node`. -/
def free (node : Addr) : Option (BinaryTree Value) :=
  (tree.nodes node).map fun _ =>
    { tree with nodes := fun query => if query = node then none else tree.nodes query }

/-- Read an argument. -/
def resolve : Argument Value → Option Value
  | .value value => some value
  | .element node => (tree.read node).map (·.memberData)

end Memory

section Search

variable (functionPolicy : Value → Value → Bool)

/-- The tests of the search loops: stop at an equivalent element, else go to one side. -/
def compare (value data : Value) : Option Side :=
  if !functionPolicy value data && !functionPolicy data value then
    none
  else if functionPolicy value data then
    some .left
  else
    some .right

/-- The loop that `Push`, `Pop` and `Find` share. The result is `SubtreeNode`, the node above the
place where the search stopped, and `ReferenceNode`. -/
def searchLoop (tree : BinaryTree Value) (argument : Argument Value) :
    Nat → Option Addr → Option Addr → Option (Option Addr × Option Addr)
  | 0, _, _ => none
  | _ + 1, subtreeNode, none => some (subtreeNode, none)
  | fuel + 1, subtreeNode, some referenceNode => do
      let node ← tree.read referenceNode
      match compare functionPolicy (← tree.resolve argument) node.memberData with
      | none => some (subtreeNode, some referenceNode)
      | some side => searchLoop tree argument fuel (some referenceNode) (node.child side)

/-- The part of `Push` that links the new node below `SubtreeNode`. -/
def linkNewElement (tree : BinaryTree Value) (argument : Argument Value)
    (newElementNode subtreeNode : Addr) : Option (BinaryTree Value) := do
  if functionPolicy (← tree.resolve argument) (← tree.read subtreeNode).memberData then
    tree.setChild .left subtreeNode (some newElementNode)
  else
    tree.setChild .right subtreeNode (some newElementNode)

/-- `Push`: whether the element was inserted. -/
def push (tree : BinaryTree Value) (argument : Argument Value) :
    Option (BinaryTree Value × Bool) := do
  match tree.memberRoot with
  | none =>
      let (node, tree) := tree.alloc (← tree.resolve argument)
      return ({ tree with memberRoot := some node }, true)
  | some root =>
      let (subtreeNode, referenceNode) ←
        searchLoop functionPolicy tree argument tree.bound none (some root)
      match referenceNode with
      | some _ => return (tree, false)
      | none =>
          let (newElementNode, tree) := tree.alloc (← tree.resolve argument)
          let tree ← linkNewElement functionPolicy tree argument newElementNode (← subtreeNode)
          return (tree, true)

/-- `Find`: the returned node pointer. -/
def find (tree : BinaryTree Value) (argument : Argument Value) : Option (Option Addr) := do
  let (_, referenceNode) ←
    searchLoop functionPolicy tree argument tree.bound none tree.memberRoot
  return referenceNode

end Search

section Removal

variable (tree : BinaryTree Value)

/-- The branches of `Pop` that redirect the one link to `ReferenceNode`. -/
def replaceNode (subtreeNode : Option Addr) (referenceNode : Addr) (link : Option Addr) :
    Option (BinaryTree Value) :=
  match subtreeNode with
  | none => some { tree with memberRoot := link }
  | some subtreeNode => do
      if (← tree.read subtreeNode).memberLeft = some referenceNode then
        tree.setChild .left subtreeNode link
      else
        tree.setChild .right subtreeNode link

/-- The branches of `Pop` for a node with at most one child, which is `onlyChild`. -/
def popSimple (subtreeNode : Option Addr) (referenceNode : Addr) (onlyChild : Option Addr) :
    Option (BinaryTree Value) := do
  let tree ← tree.replaceNode subtreeNode referenceNode onlyChild
  tree.free referenceNode

/-- The loop of `Pop` that looks for the leftmost node of the right subtree. The result is
`SubtreeParentNode` and `RightSubtreeLeastNode`. -/
def leastLoop : Nat → Addr → Addr → Option (Addr × Addr)
  | 0, _, _ => none
  | fuel + 1, subtreeParentNode, rightSubtreeLeastNode => do
      match (← tree.read rightSubtreeLeastNode).memberLeft with
      | none => some (subtreeParentNode, rightSubtreeLeastNode)
      | some left => leastLoop fuel rightSubtreeLeastNode left

/-- `Swap` on the `MemberData` of two nodes. -/
def swapData (first second : Addr) : Option (BinaryTree Value) := do
  let firstData := (← tree.read first).memberData
  let secondData := (← tree.read second).memberData
  let tree ← tree.setData first secondData
  tree.setData second firstData

/-- The part of `Pop` that puts the right child of the leftmost node into its place. -/
def relinkLeast (referenceNode subtreeParentNode : Addr) (link : Option Addr) :
    Option (BinaryTree Value) :=
  if subtreeParentNode = referenceNode then
    tree.setChild .right subtreeParentNode link
  else
    tree.setChild .left subtreeParentNode link

/-- The branch of `Pop` for a node with two children. -/
def popTwoChildren (referenceNode rightChild : Addr) : Option (BinaryTree Value) := do
  let (subtreeParentNode, rightSubtreeLeastNode) ←
    tree.leastLoop tree.bound referenceNode rightChild
  let tree ← tree.swapData referenceNode rightSubtreeLeastNode
  let link := (← tree.read rightSubtreeLeastNode).memberRight
  let tree ← tree.relinkLeast referenceNode subtreeParentNode link
  tree.free rightSubtreeLeastNode

/-- The part of `Pop` behind the search that found a node. -/
def popNode (subtreeNode : Option Addr) (referenceNode : Addr) : Option (BinaryTree Value) := do
  let node ← tree.read referenceNode
  match node.memberLeft, node.memberRight with
  | none, right => tree.popSimple subtreeNode referenceNode right
  | some left, none => tree.popSimple subtreeNode referenceNode (some left)
  | some _, some right => tree.popTwoChildren referenceNode right

/-- `Pop`. -/
def pop (functionPolicy : Value → Value → Bool) (argument : Argument Value) :
    Option (BinaryTree Value) := do
  let (subtreeNode, referenceNode) ←
    searchLoop functionPolicy tree argument tree.bound none tree.memberRoot
  match referenceNode with
  | none => return tree
  | some referenceNode => tree.popNode subtreeNode referenceNode

/-- The inner loop of `InteriorMiddleOrderTraversal`, which pushes the nodes down the left side. -/
def pushLeft : Nat → Option Addr → List Addr → Option (List Addr)
  | 0, _, _ => none
  | _ + 1, none, interiorStack => some interiorStack
  | fuel + 1, some node, interiorStack => do
      pushLeft fuel (← tree.read node).memberLeft (node :: interiorStack)

/-- The outer loop of `InteriorMiddleOrderTraversal` with a counter. -/
def countLoop : Nat → Option Addr → List Addr → Nat → Option Nat
  | 0, _, _, _ => none
  | fuel + 1, rootSubtreeNode, interiorStack, nodeCounter =>
      if rootSubtreeNode.isSome || !interiorStack.isEmpty then do
        match ← tree.pushLeft tree.bound rootSubtreeNode interiorStack with
        | [] => none
        | top :: interiorStack =>
            countLoop fuel (← tree.read top).memberRight interiorStack (nodeCounter + 1)
      else
        some nodeCounter

/-- `Size`. -/
def size : Option Nat := tree.countLoop tree.bound tree.memberRoot [] 0

end Removal

end BinaryTree

end Wan.Container
