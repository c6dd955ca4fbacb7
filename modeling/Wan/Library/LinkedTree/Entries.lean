import Wan.Library.LinkedTree.Focus

/-!
# Entries of linked trees

A payload carries a value beside the bookkeeping of a balancing scheme.  The
entries of a tree, its nodes with their values in order, are what balancing must
keep: rotations and changes of the bookkeeping do.
-/

namespace Wan.Library.LinkedTree

/-- A payload that carries a value. -/
class Payload (α : Type) (V : outParam Type) where
  value : α → V

variable {α V : Type} [Payload α V]

/-- A list of nodes with their values only. -/
def entriesOf (nodes : List (Addr × α)) : List (Addr × V) :=
  nodes.map fun entry => (entry.1, Payload.value entry.2)

/-- The nodes of a tree with their values, from left to right. -/
def entries (tree : BinTree α) : List (Addr × V) :=
  entriesOf tree.inorder

/-- The values of a list of nodes. -/
def valuesOf (nodes : List (Addr × α)) : List V :=
  nodes.map fun entry => Payload.value entry.2

@[simp] theorem entriesOf_nil : entriesOf ([] : List (Addr × α)) = [] := rfl

@[simp] theorem entriesOf_cons (entry : Addr × α) (nodes : List (Addr × α)) :
    entriesOf (entry :: nodes) = (entry.1, Payload.value entry.2) :: entriesOf nodes := rfl

@[simp] theorem entriesOf_append (first second : List (Addr × α)) :
    entriesOf (first ++ second) = entriesOf first ++ entriesOf second :=
  List.map_append ..

@[simp] theorem valuesOf_nil : valuesOf ([] : List (Addr × α)) = [] := rfl

@[simp] theorem valuesOf_cons (entry : Addr × α) (nodes : List (Addr × α)) :
    valuesOf (entry :: nodes) = Payload.value entry.2 :: valuesOf nodes := rfl

@[simp] theorem valuesOf_append (first second : List (Addr × α)) :
    valuesOf (first ++ second) = valuesOf first ++ valuesOf second :=
  List.map_append ..

theorem valuesOf_eq (nodes : List (Addr × α)) :
    valuesOf nodes = (entriesOf nodes).map Prod.snd := by
  simp [valuesOf, entriesOf]

variable {side : Side} {node : Addr} {info newInfo : α}
variable {near far newNear newFar tree : BinTree α} {frames : List (Frame α)}

@[simp] theorem entries_nil : entries (.nil : BinTree α) = [] := rfl

@[simp] theorem entries_node (left right : BinTree α) :
    entries (.node node info left right) =
      entries left ++ (node, Payload.value info) :: entries right := by
  simp [entries, BinTree.inorder]

theorem entries_plug :
    entries (plug frames tree) =
      entriesOf (before frames) ++ entries tree ++ entriesOf (after frames) := by
  simp [entries, inorder_plug]

theorem entries_plug_congr (equal : entries near = entries far) :
    entries (plug frames near) = entries (plug frames far) := by
  rw [entries_plug, entries_plug, equal]

/-- Entries depend on the values of nodes only. -/
theorem entries_mk_congr (value : Payload.value newInfo = Payload.value info)
    (nearEq : entries newNear = entries near) (farEq : entries newFar = entries far) :
    entries (.mk side node newInfo newNear newFar) = entries (.mk side node info near far) := by
  cases side <;> simp [BinTree.mk, value, nearEq, farEq]

theorem entries_rotate (outer inner : Addr) (outerInfo innerInfo : α) (a b c : BinTree α) :
    entries (.mk side inner innerInfo (.mk side outer outerInfo a b) c) =
      entries (.mk side outer outerInfo a (.mk side inner innerInfo b c)) := by
  simp [entries, BinTree.inorder_rotate]

end Wan.Library.LinkedTree
