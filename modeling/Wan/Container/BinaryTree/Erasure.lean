import Wan.Container.BinaryTree.Model
import Wan.Library.LinkedTree.Remove
import Wan.Library.LinkedTree.Search

/-!
# The binary search tree and parent links

The nodes of `BinaryTree` have no parent links.  A store of cells with parent links stands for a
tree once these are erased, and the primitive steps of the tree are those of such a store.  The
facts about focused stores so hold of the tree, whose own steps never see a parent link.
-/

namespace Wan.Container.BinaryTree

open Wan.Library.LinkedTree

variable {Value : Type}

/-- The payload of a cell with parent links. -/
structure TreeData (Value : Type) where
  memberData : Value

instance payload : Payload (TreeData Value) Value where
  value := TreeData.memberData

@[simp] theorem TreeData.value_eq (data : TreeData Value) :
    Payload.value data = data.memberData := rfl

/-- The node that a cell stands for. -/
def nodeOf (cell : Cell (TreeData Value)) : BinarySearchTreeTypeNode Value :=
  ⟨cell.left, cell.right, cell.info.memberData⟩

/-- The tree that a store stands for. -/
def erase (store : Store (TreeData Value)) : BinaryTree Value :=
  ⟨fun query => (store.cells query).map nodeOf, store.next, store.root⟩

section Steps

variable {store next : Store (TreeData Value)} {address : Addr} {cell : Cell (TreeData Value)}

@[simp] theorem erase_empty : erase (.empty : Store (TreeData Value)) = empty := rfl

@[simp] theorem erase_next : (erase store).next = store.next := rfl

@[simp] theorem erase_memberRoot : (erase store).memberRoot = store.root := rfl

@[simp] theorem erase_bound : (erase store).bound = store.bound := rfl

theorem erase_setRoot (link : Option Addr) :
    erase (store.setRoot link) = { erase store with memberRoot := link } := rfl

theorem child_nodeOf (cell : Cell (TreeData Value)) (side : Side) :
    (nodeOf cell).child side = cell.child side := by
  cases side <;> rfl

theorem setChild_nodeOf (cell : Cell (TreeData Value)) (side : Side) (link : Option Addr) :
    nodeOf (cell.setChild side link) = (nodeOf cell).setChild side link := by
  cases side <;> rfl

theorem erase_read (found : store.cells address = some cell) :
    (erase store).read address = some (nodeOf cell) := by
  simp [read, erase, found]

theorem erase_put : erase (store.put address cell) = (erase store).put address (nodeOf cell) := by
  simp only [erase, put, Store.put, mk.injEq, and_true]
  funext query
  split <;> rfl

/-- A change of a cell is the change of its node. -/
theorem erase_modify {change : Cell (TreeData Value) → Cell (TreeData Value)}
    {nodeChange : BinarySearchTreeTypeNode Value → BinarySearchTreeTypeNode Value}
    (agrees : ∀ cell, nodeOf (change cell) = nodeChange (nodeOf cell))
    (changed : store.modify address change = some next) :
    (erase store).modify address nodeChange = some (erase next) := by
  rcases Option.map_eq_some_iff.mp changed with ⟨cell, found, rfl⟩
  have node : (erase store).nodes address = some (nodeOf cell) := erase_read found
  rw [modify, node, Option.map_some, erase_put, agrees]

theorem erase_setChild {side : Side} {link : Option Addr}
    (changed : store.setChild side address link = some next) :
    (erase store).setChild side address link = some (erase next) :=
  erase_modify (fun cell => setChild_nodeOf cell side link) changed

theorem erase_setData {data : Value}
    (changed : store.setInfo address (fun _ => ⟨data⟩) = some next) :
    (erase store).setData address data = some (erase next) :=
  erase_modify (fun _ => rfl) changed

/-- A parent link is not seen. -/
theorem erase_adopt {child parent : Option Addr} (changed : store.adopt child parent = some next) :
    erase next = erase store := by
  cases child with
  | none =>
      cases changed
      rfl
  | some address =>
      rcases Option.map_eq_some_iff.mp changed with ⟨cell, found, rfl⟩
      have same : (erase store).nodes address = some (nodeOf cell) := erase_read found
      rw [erase_put, put]
      simp only [erase, mk.injEq, and_true]
      funext query
      split
      next equal => rw [equal, found]; rfl
      next => rfl

theorem erase_alloc (store : Store (TreeData Value)) (data : Value) (parent : Option Addr) :
    (erase store).alloc data = (store.next, erase (store.alloc ⟨data⟩ parent).2) := by
  have written : erase (store.put store.next ⟨⟨data⟩, none, none, parent⟩) =
      (erase store).put store.next ⟨none, none, data⟩ := erase_put
  exact congrArg (fun tree => (store.next, { tree with next := store.next + 1 })) written.symm

theorem erase_free (found : store.cells address = some cell) :
    (erase store).free address = some (erase (store.hide address)) := by
  have node : (erase store).nodes address = some (nodeOf cell) := erase_read found
  rw [free, node, Option.map_some, Option.some.injEq]
  simp only [erase, Store.hide, mk.injEq, and_true]
  funext query
  split <;> rfl

/-- Redirecting the link to a node compares the left link of the node above it. -/
theorem erase_relink {parent : Option Addr} {old : Addr} {link : Option Addr}
    (changed : store.relink .left parent old link = some next) :
    (erase store).replaceNode parent old link = some (erase next) := by
  cases parent with
  | none =>
      cases changed
      rfl
  | some address =>
      rcases Option.bind_eq_some_iff.mp changed with ⟨cell, found, branch⟩
      simp only [replaceNode, erase_read found, Option.bind_eq_bind, Option.bind_some]
      split at branch
      next same =>
        rw [if_pos (show (nodeOf cell).memberLeft = some old from same)]
        exact erase_setChild branch
      next different =>
        rw [if_neg (show ¬ (nodeOf cell).memberLeft = some old from different)]
        exact erase_setChild branch

theorem erase_transplant {old : Addr} {link : Option Addr} (found : store.cells old = some cell)
    (changed : store.transplant old link = some next) :
    (erase store).replaceNode cell.parent old link = some (erase next) := by
  rw [Store.transplant, Store.read_eq found, Option.bind_eq_bind, Option.bind_some] at changed
  rcases Option.bind_eq_some_iff.mp changed with ⟨middle, relinked, adopted⟩
  rw [erase_relink relinked, erase_adopt adopted]

end Steps

/-- The search loop follows the decisions of the comparator at the argument's value. -/
theorem searchLoop_eq (functionPolicy : Value → Value → Bool) {store : Store (TreeData Value)}
    {argument : Argument Value} {value : Value}
    (resolved : (erase store).resolve argument = some value) (fuel : Nat)
    (subtreeNode referenceNode : Option Addr) :
    searchLoop functionPolicy (erase store) argument fuel subtreeNode referenceNode =
      store.descend (fun info => compare functionPolicy value info.memberData) fuel subtreeNode
        referenceNode := by
  induction fuel generalizing subtreeNode referenceNode with
  | zero => rfl
  | succ fuel ih =>
      cases referenceNode with
      | none => rfl
      | some address =>
          cases found : store.cells address with
          | none => simp [searchLoop, Store.descend, read, erase, Store.read, found]
          | some cell =>
              simp only [searchLoop, Store.descend, erase_read found, Store.read_eq found,
                resolved, Option.bind_eq_bind, Option.bind_some]
              cases decision : compare functionPolicy value cell.info.memberData with
              | none => simp [nodeOf, decision]
              | some side => simp [nodeOf, decision, ih, ← child_nodeOf]

end Wan.Container.BinaryTree
