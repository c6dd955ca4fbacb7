import Wan.Library.LinkedTree.Entries
import Wan.Library.LinkedTree.Remove

/-!
# The red-black tree of `Container/Base.hpp`

`BaseContainer::RedBlackTree` as a program over a store of linked cells.  The
payload of a cell is `MemberData` and `MemberColor`, its links are `MemberLeft`,
`MemberRight` and `MemberParent`, and the root link of the store is
`MemberRoot`.  The functor `Element` is `element`, the comparator
`FunctionPolicy` is `functionPolicy`.

The two mirrored halves of every fix-up share one definition with a side; the
source spells both halves out.  A result `none` is a null or dangling access or
a loop that outruns its bound.
-/

namespace Wan.Container

open Wan.Library.LinkedTree

/-- `RbTreeColor`. -/
inductive RbTreeColor where
  | red
  | black
  deriving DecidableEq, Repr

/-- The payload of `ContainerNode`. -/
structure RbNodeData (Value : Type) where
  memberData : Value
  memberColor : RbTreeColor
  deriving Repr

/-- The payload after an assignment to `MemberColor`. -/
def RbNodeData.withColor {Value : Type} (data : RbNodeData Value) (color : RbTreeColor) :
    RbNodeData Value :=
  { data with memberColor := color }

instance {Value : Type} : Payload (RbNodeData Value) Value where
  value := RbNodeData.memberData

@[simp] theorem RbNodeData.value_eq {Value : Type} (data : RbNodeData Value) :
    Payload.value data = data.memberData := rfl

@[simp] theorem RbNodeData.memberColor_withColor {Value : Type} (data : RbNodeData Value)
    (color : RbTreeColor) : (data.withColor color).memberColor = color := rfl

@[simp] theorem RbNodeData.memberData_withColor {Value : Type} (data : RbNodeData Value)
    (color : RbTreeColor) : (data.withColor color).memberData = data.memberData := rfl

/-- `RedBlackTree`: its nodes and its root link. -/
abbrev RedBlackTree (Value : Type) := Store (RbNodeData Value)

namespace RedBlackTree

variable {Key Value : Type}

/-- `GetColor`: null links count as black. -/
def getColor (tree : RedBlackTree Value) : Option Addr → Option RbTreeColor
  | none => some .black
  | some node => do return (← tree.read node).info.memberColor

/-- `RedGet`. -/
def redGet (tree : RedBlackTree Value) (node : Option Addr) : Option Bool := do
  return (← getColor tree node) = .red

/-- `BlackGet`. -/
def blackGet (tree : RedBlackTree Value) (node : Option Addr) : Option Bool := do
  return (← getColor tree node) = .black

/-- Assignment to `MemberColor`. -/
def setColor (tree : RedBlackTree Value) (node : Addr) (color : RbTreeColor) :
    Option (RedBlackTree Value) :=
  tree.setInfo node (·.withColor color)

/-- `if (Node != nullptr) Node->MemberColor = RbTreeColor::Black`. -/
def paintBlack (tree : RedBlackTree Value) : Option Addr → Option (RedBlackTree Value)
  | none => some tree
  | some node => setColor tree node .black

/-- The common body of `LeftRevolve` and `RightRevolve`: `side` is the side
towards which the node turns. -/
def revolve (side : Side) (tree : RedBlackTree Value) (subtreeNode : Addr) :
    Option (RedBlackTree Value) := do
  let pivot ← (← tree.read subtreeNode).child side.other
  let inner := (← tree.read pivot).child side
  let tree ← tree.setChild side.other subtreeNode inner
  let tree ← tree.adopt inner (some subtreeNode)
  let parent := (← tree.read subtreeNode).parent
  let tree ← tree.setParent pivot parent
  let tree ← tree.relink side parent subtreeNode (some pivot)
  let tree ← tree.setChild side pivot (some subtreeNode)
  tree.setParent subtreeNode (some pivot)

/-- `LeftRevolve`. -/
def leftRevolve (tree : RedBlackTree Value) (subtreeNode : Addr) :
    Option (RedBlackTree Value) :=
  revolve .left tree subtreeNode

/-- `RightRevolve`. -/
def rightRevolve (tree : RedBlackTree Value) (subtreeNode : Addr) :
    Option (RedBlackTree Value) :=
  revolve .right tree subtreeNode

/-- The body of the loop of `InsertAdjust` when the parent hangs on `side` of
the grandparent. Returns the tree and the next `Node`. -/
def insertAdjustStep (side : Side) (tree : RedBlackTree Value)
    (node parent grandparent : Addr) : Option (RedBlackTree Value × Addr) := do
  let uncle := (← tree.read grandparent).child side.other
  if ← redGet tree uncle then
    let tree ← setColor tree parent .black
    let tree ← setColor tree (← uncle) .black
    let tree ← setColor tree grandparent .red
    return (tree, grandparent)
  else if (← tree.read parent).child side.other = some node then
    let node := parent
    let tree ← revolve side tree node
    let parent ← (← tree.read node).parent
    let grandparent ← (← tree.read parent).parent
    let tree ← setColor tree parent .black
    let tree ← setColor tree grandparent .red
    return (← revolve side.other tree grandparent, node)
  else
    let tree ← setColor tree parent .black
    let tree ← setColor tree grandparent .red
    return (← revolve side.other tree grandparent, node)

/-- The loop of `InsertAdjust`. -/
def insertAdjustLoop : Nat → RedBlackTree Value → Addr → Option (RedBlackTree Value)
  | 0, _, _ => none
  | fuel + 1, tree, node => do
      if some node = tree.root then
        return tree
      else match (← tree.read node).parent with
      | none => return tree
      | some parent =>
          if ← redGet tree (some parent) then
            match (← tree.read parent).parent with
            | none => return tree
            | some grandparent =>
                let side := if (← tree.read grandparent).left = some parent then
                  Side.left else Side.right
                let (tree, node) ← insertAdjustStep side tree node parent grandparent
                insertAdjustLoop fuel tree node
          else
            return tree

/-- `InsertAdjust`. -/
def insertAdjust (tree : RedBlackTree Value) (node : Addr) :
    Option (RedBlackTree Value) := do
  let tree ← insertAdjustLoop (tree.bound + 2) tree node
  paintBlack tree tree.root

section Keys

variable (element : Value → Key) (functionPolicy : Key → Key → Bool)

/-- The choice made at a node by every search loop of the tree: stop at an
equivalent key, else go right exactly when the node's key comes first. -/
def compareAt (keyValue : Key) (node : RbNodeData Value) : Option Side :=
  let nodeKey := element node.memberData
  if !functionPolicy nodeKey keyValue && !functionPolicy keyValue nodeKey then
    none
  else if functionPolicy nodeKey keyValue then
    some .right
  else
    some .left

/-- The part of `InsertValue` that links the new node below its parent. -/
def linkInserted (tree : RedBlackTree Value) (inserted : Addr) :
    Option Addr → Option (RedBlackTree Value)
  | none => some (tree.setRoot (some inserted))
  | some parent => do
      let parentKey := element (← tree.read parent).info.memberData
      let insertedKey := element (← tree.read inserted).info.memberData
      if functionPolicy parentKey insertedKey then
        tree.setChild .right parent (some inserted)
      else
        tree.setChild .left parent (some inserted)

/-- `InsertValue`: the new or existing node, and whether it was inserted. -/
def insertValue (tree : RedBlackTree Value) (valueData : Value) :
    Option (RedBlackTree Value × Addr × Bool) := do
  let (parent, node) ← tree.descend
    (compareAt element functionPolicy (element valueData)) tree.bound none tree.root
  match node with
  | some node => return (tree, node, false)
  | none =>
      let (inserted, tree) := tree.alloc ⟨valueData, .red⟩ parent
      let tree ← linkInserted element functionPolicy tree inserted parent
      return (← insertAdjust tree inserted, inserted, true)

/-- `Push`. -/
def push (tree : RedBlackTree Value) (valueData : Value) :
    Option (RedBlackTree Value × Addr × Bool) :=
  insertValue element functionPolicy tree valueData

/-- `FindNodeByKey`. -/
def findNodeByKey (tree : RedBlackTree Value) (keyValue : Key) :
    Option (Option Addr) := do
  let (_, node) ← tree.descend
    (compareAt element functionPolicy keyValue) tree.bound none tree.root
  return node

end Keys

/-- `Transplant`. -/
def transplant (tree : RedBlackTree Value) (oldNode : Addr) (newNode : Option Addr) :
    Option (RedBlackTree Value) :=
  Store.transplant tree oldNode newNode

/-- `Parent != nullptr && Parent->MemberLeft == Node`. -/
def isLeftChild (tree : RedBlackTree Value) (parent : Option Addr) (node : Addr) :
    Option Bool :=
  match parent with
  | none => some false
  | some parent => do return (← tree.read parent).left = some node

/-- The variables of the loop of `DeleteAdjust`; `stop` is its `break`. -/
structure DeleteFix (Value : Type) where
  tree : RedBlackTree Value
  currentNode : Option Addr
  parent : Option Addr
  currentIsLeft : Bool
  stop : Bool

/-- Cases 2, 3 and 4 of `DeleteAdjust`, with the current node on `side`. -/
def deleteAdjustBlackBrother (side : Side) (tree : RedBlackTree Value)
    (currentNode : Option Addr) (parent : Addr) (currentIsLeft : Bool)
    (brother : Option Addr) : Option (DeleteFix Value) := do
  let unchanged : DeleteFix Value := ⟨tree, currentNode, some parent, currentIsLeft, false⟩
  match brother with
  | none => return unchanged
  | some brother =>
      if ← blackGet tree (some brother) then
        let near := (← tree.read brother).child side
        let far := (← tree.read brother).child side.other
        if (← blackGet tree near) && (← blackGet tree far) then
          let tree ← setColor tree brother .red
          let grandparent := (← tree.read parent).parent
          let currentIsLeft ← isLeftChild tree grandparent parent
          if ← redGet tree (some parent) then
            let tree ← setColor tree parent .black
            return ⟨tree, some parent, grandparent, currentIsLeft, true⟩
          else
            return ⟨tree, some parent, grandparent, currentIsLeft, false⟩
        else if (← blackGet tree far) && (← redGet tree near) then
          let tree ← setColor tree (← near) .black
          let tree ← setColor tree brother .red
          let tree ← revolve side.other tree brother
          return ⟨tree, currentNode, some parent, currentIsLeft, false⟩
        else if ← redGet tree far then
          let parentColor ← getColor tree (some parent)
          let tree ← setColor tree brother parentColor
          let tree ← setColor tree parent .black
          let tree ← setColor tree (← far) .black
          let tree ← revolve side tree parent
          let root ← tree.root
          return ⟨tree, some root, (← tree.read root).parent, currentIsLeft, false⟩
        else
          return unchanged
      else
        return unchanged

/-- The body of the loop of `DeleteAdjust`, with the current node on `side`. -/
def deleteAdjustStep (side : Side) (tree : RedBlackTree Value)
    (currentNode : Option Addr) (parent : Addr) (currentIsLeft : Bool) :
    Option (DeleteFix Value) := do
  match (← tree.read parent).child side.other with
  | none =>
      let grandparent := (← tree.read parent).parent
      let currentIsLeft ← isLeftChild tree grandparent parent
      return ⟨tree, some parent, grandparent, currentIsLeft, false⟩
  | some brother =>
      if ← redGet tree (some brother) then
        let tree ← setColor tree brother .black
        let tree ← setColor tree parent .red
        let tree ← revolve side tree parent
        let brother := (← tree.read parent).child side.other
        deleteAdjustBlackBrother side tree currentNode parent currentIsLeft brother
      else
        deleteAdjustBlackBrother side tree currentNode parent currentIsLeft (some brother)

/-- The loop of `DeleteAdjust`. Returns the tree and the last current node. -/
def deleteAdjustLoop : Nat → RedBlackTree Value → Option Addr → Option Addr → Bool →
    Option (RedBlackTree Value × Option Addr)
  | 0, _, _, _, _ => none
  | fuel + 1, tree, currentNode, parent, currentIsLeft => do
      if currentNode = tree.root then
        return (tree, currentNode)
      else if ← blackGet tree currentNode then
        match parent with
        | none => return (tree, currentNode)
        | some parent =>
            let isLeft ← match currentNode with
              | some node => do pure (decide ((← tree.read parent).left = some node))
              | none => some currentIsLeft
            let side := if isLeft then Side.left else Side.right
            let fix ← deleteAdjustStep side tree currentNode parent currentIsLeft
            if fix.stop then
              return (fix.tree, fix.currentNode)
            else
              deleteAdjustLoop fuel fix.tree fix.currentNode fix.parent fix.currentIsLeft
      else
        return (tree, currentNode)

/-- `DeleteAdjust`. -/
def deleteAdjust (tree : RedBlackTree Value) (currentNode parent : Option Addr)
    (currentIsLeft : Bool) : Option (RedBlackTree Value) := do
  let (tree, currentNode) ←
    deleteAdjustLoop (tree.bound + 2) tree currentNode parent currentIsLeft
  paintBlack tree currentNode

/-- The place where `EraseNode` left a gap: the colour that went missing, the
node that moved up into the gap, its parent and its side. -/
structure EraseGap where
  movedColor : RbTreeColor
  fixNode : Option Addr
  fixParent : Option Addr
  fixIsLeft : Bool

/-- The branch of `EraseNode` for a node with at most one child, which is
`onlyChild`. -/
def eraseSimple (tree : RedBlackTree Value) (node : Addr) (onlyChild : Option Addr) :
    Option (RedBlackTree Value × EraseGap) := do
  let movedColor := (← tree.read node).info.memberColor
  let fixParent := (← tree.read node).parent
  let fixIsLeft ← isLeftChild tree fixParent node
  let tree ← transplant tree node onlyChild
  return (tree, ⟨movedColor, onlyChild, fixParent, fixIsLeft⟩)

/-- The part of `EraseNode` that takes `MovedNode` out of its place, with the
parent and the side of the gap it leaves. -/
def detachMovedNode (tree : RedBlackTree Value) (node movedNode : Addr) :
    Option (RedBlackTree Value × Addr × Bool) := do
  let fixNode := (← tree.read movedNode).right
  if (← tree.read movedNode).parent = some node then
    return (← tree.adopt fixNode (some movedNode), movedNode, false)
  else
    let fixParent ← (← tree.read movedNode).parent
    let fixIsLeft := decide ((← tree.read fixParent).left = some movedNode)
    return (← tree.detach node movedNode, fixParent, fixIsLeft)

/-- The branch of `EraseNode` for a node with two children: its successor takes
its place. -/
def eraseTwoChildren (tree : RedBlackTree Value) (node rightChild : Addr) :
    Option (RedBlackTree Value × EraseGap) := do
  let movedNode ← tree.extreme .left tree.bound rightChild
  let movedColor := (← tree.read movedNode).info.memberColor
  let fixNode := (← tree.read movedNode).right
  let (tree, fixParent, fixIsLeft) ← detachMovedNode tree node movedNode
  let tree ← tree.takeOver node movedNode
  let nodeColor := (← tree.read node).info.memberColor
  let tree ← setColor tree movedNode nodeColor
  return (tree, ⟨movedColor, fixNode, some fixParent, fixIsLeft⟩)

/-- The part of `EraseNode` before `delete Node`: the node is taken out of the
links. -/
def unlinkNode (tree : RedBlackTree Value) (node : Addr) :
    Option (RedBlackTree Value × EraseGap) := do
  match (← tree.read node).left, (← tree.read node).right with
  | none, right => eraseSimple tree node right
  | some left, none => eraseSimple tree node (some left)
  | some _, some right => eraseTwoChildren tree node right

/-- The part of `EraseNode` after `delete Node`. -/
def closeGap (tree : RedBlackTree Value) (gap : EraseGap) : Option (RedBlackTree Value) := do
  let tree ← if gap.movedColor = .black then
      deleteAdjust tree gap.fixNode gap.fixParent gap.fixIsLeft
    else
      some tree
  paintBlack tree tree.root

/-- `EraseNode`. -/
def eraseNode (tree : RedBlackTree Value) (node : Addr) :
    Option (RedBlackTree Value) := do
  let (tree, gap) ← unlinkNode tree node
  let tree ← tree.free node
  closeGap tree gap

section Keys

variable (element : Value → Key) (functionPolicy : Key → Key → Bool)

/-- `PopKey`: whether a node was removed. -/
def popKey (tree : RedBlackTree Value) (keyValue : Key) :
    Option (RedBlackTree Value × Bool) := do
  match ← findNodeByKey element functionPolicy tree keyValue with
  | none => return (tree, false)
  | some target => return (← eraseNode tree target, true)

/-- `Pop`. -/
def pop (tree : RedBlackTree Value) (rbTreeData : Value) :
    Option (RedBlackTree Value × Bool) := do
  match ← findNodeByKey element functionPolicy tree (element rbTreeData) with
  | none => return (tree, false)
  | some target => return (← eraseNode tree target, true)

/-- `FindKey`: the node of the returned iterator. -/
def findKey (tree : RedBlackTree Value) (keyValue : Key) : Option (Option Addr) :=
  findNodeByKey element functionPolicy tree keyValue

/-- `Find`: the node of the returned iterator. -/
def find (tree : RedBlackTree Value) (valData : Value) : Option (Option Addr) :=
  match tree.root with
  | none => some none
  | some root => do
      let (_, node) ← tree.descend
        (compareAt element functionPolicy (element valData)) tree.bound none (some root)
      return node

end Keys

/-- `InternalSize`. -/
def internalSize (tree : RedBlackTree Value) : Option Nat := tree.size

/-- `Begin`: the node of the returned iterator. -/
def begin (tree : RedBlackTree Value) : Option (Option Addr) := tree.endpoint .left

/-- `RbTreeIterator::operator++` on the node of an iterator. -/
def increment (tree : RedBlackTree Value) : Option Addr → Option (Option Addr)
  | none => some none
  | some node => tree.advance .right node

/-- The value that an iterator refers to; `none` inside for the end position. -/
def deref (tree : RedBlackTree Value) : Option Addr → Option (Option Value)
  | none => some none
  | some node => do return some (← tree.read node).info.memberData

end RedBlackTree

end Wan.Container
