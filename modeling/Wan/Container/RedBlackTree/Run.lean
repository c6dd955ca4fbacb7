import Wan.Container.RedBlackTree.Erase
import Wan.Library.LinkedTree.Search

/-!
# Runs of the red-black tree

Sequences of the public operations from the empty tree, what holds of the links
and colours in every state they reach, and the ordered map they implement.
-/

namespace Wan.Container.RedBlackTree

open Wan.Library Wan.Library.LinkedTree

/-- The public operations. -/
inductive Operation (Key Value : Type) where
  | push (rbTreeData : Value)
  | pop (rbTreeData : Value)
  | popKey (keyValue : Key)
  | find (valData : Value)
  | findKey (keyValue : Key)
  | size

/-- What an operation returns, with iterators dereferenced. -/
inductive Answer (Value : Type) where
  | pushed (element : Value) (inserted : Bool)
  | popped (removed : Bool)
  | found (element : Option Value)
  | counted (size : Nat)
  deriving DecidableEq, Repr

variable {Key Value : Type}

section Model

variable (element : Value → Key) (functionPolicy : Key → Key → Bool)

/-- Perform one operation. -/
def perform (tree : RedBlackTree Value) :
    Operation Key Value → Option (RedBlackTree Value × Answer Value)
  | .push rbTreeData => do
      let (tree, node, inserted) ← push element functionPolicy tree rbTreeData
      return (tree, .pushed (← tree.read node).info.memberData inserted)
  | .pop rbTreeData => do
      let (tree, removed) ← pop element functionPolicy tree rbTreeData
      return (tree, .popped removed)
  | .popKey keyValue => do
      let (tree, removed) ← popKey element functionPolicy tree keyValue
      return (tree, .popped removed)
  | .find valData => do
      let node ← find element functionPolicy tree valData
      return (tree, .found (← deref tree node))
  | .findKey keyValue => do
      let node ← findKey element functionPolicy tree keyValue
      return (tree, .found (← deref tree node))
  | .size => do
      return (tree, .counted (← internalSize tree))

/-- Perform a sequence of operations and collect their answers. -/
def run (tree : RedBlackTree Value) :
    List (Operation Key Value) → Option (RedBlackTree Value × List (Answer Value))
  | [] => some (tree, [])
  | operation :: operations => do
      let (tree, answer) ← perform element functionPolicy tree operation
      let (tree, answers) ← run tree operations
      return (tree, answer :: answers)

/-- The values met by forward iteration from `Begin`. -/
def forward (tree : RedBlackTree Value) : Option (List Value) := do
  let nodes ← tree.collect tree.bound (← begin tree)
  return nodes.map (·.memberData)

end Model

section Specification

variable {element : Value → Key} {functionPolicy : Key → Key → Bool} [StrictWeak functionPolicy]

/-- The operations on the ordered map that the tree stands for. -/
def specify (map : OrderedMap element functionPolicy) :
    Operation Key Value → OrderedMap element functionPolicy × Answer Value
  | .push rbTreeData =>
      match map.find? (element rbTreeData) with
      | some present => (map, .pushed present false)
      | none => (map.insert rbTreeData, .pushed rbTreeData true)
  | .pop rbTreeData =>
      (map.erase (element rbTreeData), .popped (map.find? (element rbTreeData)).isSome)
  | .popKey keyValue => (map.erase keyValue, .popped (map.find? keyValue).isSome)
  | .find valData => (map, .found (map.find? (element valData)))
  | .findKey keyValue => (map, .found (map.find? keyValue))
  | .size => (map, .counted map.size)

/-- A sequence of operations on the ordered map. -/
def specifyRun (map : OrderedMap element functionPolicy) :
    List (Operation Key Value) → OrderedMap element functionPolicy × List (Answer Value)
  | [] => (map, [])
  | operation :: operations =>
      let (map, answer) := specify map operation
      let (map, answers) := specifyRun map operations
      (map, answer :: answers)

end Specification

/-- The tree obeys the colour rules and implements the map. -/
structure Valid {element : Value → Key} {functionPolicy : Key → Key → Bool}
    (tree : RedBlackTree Value) (map : OrderedMap element functionPolicy) : Prop where
  shaped : ∃ shape, Represents tree shape ∧ WellColored shape ∧
    Implements shape map

section Steps

variable {element : Value → Key} {functionPolicy : Key → Key → Bool}
variable {tree : RedBlackTree Value} {map : OrderedMap element functionPolicy}

theorem compareAt_decides (keyValue : Key) :
    Decides element functionPolicy keyValue
      (compareAt element functionPolicy keyValue) := by
  constructor
  · intro info decision
    simp only [compareAt] at decision
    split at decision
    · assumption
    · split at decision <;> cases decision
  · intro info decision
    simp only [compareAt] at decision
    split at decision
    · cases decision
    · split at decision
      · assumption
      · cases decision
  · intro info decision
    simp only [compareAt] at decision
    split at decision
    · cases decision
    · split at decision <;> simp_all

/-- `Find` by a value is `FindKey` by its key. -/
theorem find_eq (valData : Value) :
    find element functionPolicy tree valData =
      findKey element functionPolicy tree (element valData) := by
  cases root : tree.root with
  | none => simp [find, findKey, findNodeByKey, root, Store.bound, Store.descend]
  | some top => simp [find, findKey, findNodeByKey, root]

/-- `InternalSize` counts the values of the map. -/
theorem internalSize_spec (valid : Valid tree map) : internalSize tree = some map.size := by
  rcases valid.shaped with ⟨shape, represents, _, implements⟩
  rw [internalSize, represents.size_eq, OrderedMap.size, implements, valuesOf, List.length_map,
    Focus.inorder_length]

/-- Forward iteration lists the map. -/
theorem forward_spec (valid : Valid tree map) : forward tree = some map.toList := by
  rcases valid.shaped with ⟨shape, represents, _, implements⟩
  have length := represents.length_le
  have started : tree.endpoint .left = some (shape.inorder.head?.map Prod.fst) :=
    represents.endpoint_spec
  have listed := represents.collect_spec [] shape.inorder tree.bound rfl
    (by rw [Focus.inorder_length]; unfold Store.bound; omega)
  have order : map.toList = valuesOf shape.inorder := implements
  simp [forward, begin, started, listed, order, valuesOf]

variable [StrictWeak functionPolicy]

/-- `FindNodeByKey` finds the node of the value in the map. -/
theorem findNodeByKey_spec (keyValue : Key) (valid : Valid tree map) :
    ∃ node, findNodeByKey element functionPolicy tree keyValue = some node ∧
      deref tree node = some (map.find? keyValue) := by
  rcases valid.shaped with ⟨shape, represents, colored, implements⟩
  rcases search_spec represents implements (compareAt_decides keyValue) with
    ⟨result, searched, outcome⟩
  cases outcome with
  | missing frames focus shape sides absent =>
      exact ⟨none, by simp [findNodeByKey, searched], by simp [deref, absent]⟩
  | found frames address info left right focus shape present =>
      exact ⟨some address, by simp [findNodeByKey, searched],
        by simp [deref, focus.read, present]⟩

/-- `InsertValue` links the new node where the search ended. -/
theorem linkInserted_eq {frames : List (Frame (RbNodeData Value))} {valueData : Value}
    (color : RbTreeColor) (focus : Focus tree frames .nil)
    (sides : ∀ frame ∈ frames,
      compareAt element functionPolicy (element valueData) frame.info = some frame.side) :
    ∃ side, (∀ frame rest, frames = frame :: rest → frame.side = side) ∧
      linkInserted element functionPolicy (tree.alloc ⟨valueData, color⟩ (parentOf frames)).2
          tree.next (parentOf frames) =
        (tree.alloc ⟨valueData, color⟩ (parentOf frames)).2.hang side (parentOf frames)
          tree.next := by
  cases frames with
  | nil => exact ⟨.left, by simp, rfl⟩
  | cons frame rest =>
      refine ⟨frame.side, by simp +contextual, ?_⟩
      have apart : frame.address ≠ tree.next :=
        Nat.ne_of_lt (focus.bound _ (by simp [contextAddrs]))
      have parentCell : (tree.alloc ⟨valueData, color⟩ (some frame.address)).2.cells
          frame.address = some (frame.cell none (parentOf rest)) := by
        rw [Store.alloc_cells, if_neg apart]
        exact focus.frame_cell
      have newCell : (tree.alloc ⟨valueData, color⟩ (some frame.address)).2.cells tree.next =
          some (.of .left ⟨valueData, color⟩ none none (some frame.address)) := by
        simp [Store.alloc_cells]
      have decision := sides frame List.mem_cons_self
      have decides : Decides element functionPolicy (element valueData)
          (compareAt element functionPolicy (element valueData)) := compareAt_decides _
      simp only [parentOf_cons, linkInserted, Store.read_eq parentCell, Store.read_eq newCell,
        Option.bind_eq_bind, Option.bind_some, Frame.cell, Cell.info_of, Store.hang]
      cases side : frame.side with
      | right =>
          have before : functionPolicy (element frame.info.memberData) (element valueData) = true :=
            decides.right frame.info (side ▸ decision)
          simp [before]
      | left =>
          have before : functionPolicy (element frame.info.memberData) (element valueData) =
              false :=
            lt_asymm (decides.left frame.info (side ▸ decision))
          simp [before]

/-- `InsertValue` inserts a value under a new key and finds the one stored under
an old key. -/
theorem insertValue_spec (valueData : Value) (valid : Valid tree map) :
    ∃ next node inserted, insertValue element functionPolicy tree valueData =
        some (next, node, inserted) ∧
      Valid next (specify map (.push valueData)).1 ∧
      ∃ cell, next.read node = some cell ∧
        (specify map (.push valueData)).2 = .pushed cell.info.memberData inserted := by
  rcases valid.shaped with ⟨shape, represents, colored, implements⟩
  rcases search_spec represents implements (compareAt_decides (element valueData)) with
    ⟨result, searched, outcome⟩
  cases outcome with
  | found frames address info left right focus _ present =>
      refine ⟨tree, address, false, by simp [insertValue, searched], ?_, _, focus.read, ?_⟩
      · simpa [specify, present] using valid
      · simp [specify, present]
  | missing frames focus whole sides absent below above =>
      subst whole
      rcases colored.context with ⟨count, context, balanced, _⟩
      rw [balanced_nil] at balanced
      subst balanced
      rcases linkInserted_eq .red focus sides with ⟨side, sideEq, linked⟩
      rcases focus.hang_spec ⟨valueData, .red⟩ sideEq with ⟨one, hung, oneFocus⟩
      rw [hung] at linked
      generalize freshEq : (tree.alloc _ (parentOf frames)).2 = fresh at linked
      have allocated : tree.alloc ⟨valueData, .red⟩ (parentOf frames) = (tree.next, fresh) := by
        rw [← freshEq]
        rfl
      have leaf : Balanced (.mk .left tree.next ⟨valueData, .red⟩ .nil .nil) 0 :=
        (balanced_mk_red rfl).mpr ⟨rfl, rfl, rfl, rfl⟩
      rcases insertAdjust_spec oneFocus (BinTree.root_mk ..) treeColor_mk leaf context with
        ⟨next, final, adjusted, finalRepresents, finalColored, same⟩
      have listed : (tree.next, valueData) ∈ entries final := by
        rw [same, entries_plug]
        simp [entries, entriesOf, BinTree.mk, BinTree.inorder]
      rcases List.mem_map.mp listed with ⟨⟨node, info⟩, member, equal⟩
      rcases finalRepresents.read_of_mem member with ⟨cell, found, cellInfo⟩
      simp only [Prod.mk.injEq, RbNodeData.value_eq] at equal
      rw [equal.1] at found
      refine
        ⟨next, tree.next, true, ?_, ⟨final, finalRepresents, finalColored, ?_⟩, cell, found, ?_⟩
      · simp [insertValue, searched, allocated, linked, adjusted]
      · have split : map.toList = valuesOf (before frames) ++
            valuesOf (after frames) := by
          rw [implements, inorder_plug]
          simp
        simp only [specify, absent, Implements]
        rw [OrderedMap.insert_between split below above, valuesOf_eq final.inorder,
          show entriesOf final.inorder = _ from same, entries_plug]
        simp [valuesOf_eq, BinTree.mk]
      · simp [specify, absent, cellInfo, equal.2]

/-- Erasing the node found under a key. -/
theorem eraseFound_spec (keyValue : Key) (valid : Valid tree map) :
    ∃ node, findNodeByKey element functionPolicy tree keyValue = some node ∧
      node.isSome = (map.find? keyValue).isSome ∧
      match node with
      | none => Valid tree (map.erase keyValue)
      | some target => ∃ next, eraseNode tree target = some next ∧
          Valid next (map.erase keyValue) := by
  rcases valid.shaped with ⟨shape, represents, colored, implements⟩
  rcases search_spec represents implements (compareAt_decides keyValue) with
    ⟨result, searched, outcome⟩
  cases outcome with
  | missing frames focus _ sides absent =>
      refine ⟨none, by simp [findNodeByKey, searched], by simp [absent], ?_⟩
      rwa [OrderedMap.erase_of_none absent]
  | found frames address info left right focus whole present erased =>
      refine ⟨some address, by simp [findNodeByKey, searched], by simp [present], ?_⟩
      rcases eraseNode_spec focus (whole ▸ colored) with
        ⟨next, final, released, finalRepresents, finalColored, same⟩
      refine ⟨next, released, final, finalRepresents, finalColored, ?_⟩
      rw [Implements, erased, valuesOf_eq final.inorder, show entriesOf final.inorder = _ from same]
      simp [valuesOf_eq, entries]

/-- Every operation succeeds, answers as the map does and keeps the tree valid. -/
theorem perform_spec (operation : Operation Key Value) (valid : Valid tree map) :
    ∃ next, perform element functionPolicy tree operation =
        some (next, (specify map operation).2) ∧
      Valid next (specify map operation).1 := by
  cases operation with
  | push rbTreeData =>
      rcases insertValue_spec rbTreeData valid with
        ⟨next, node, inserted, pushed, kept, cell, found, answer⟩
      refine ⟨next, ?_, kept⟩
      simp [perform, push, pushed, found, answer]
  | pop rbTreeData =>
      rcases eraseFound_spec (element rbTreeData) valid with ⟨node, found, present, erased⟩
      cases node with
      | none => exact ⟨tree, by simp [perform, pop, found, specify, ← present], erased⟩
      | some target =>
          rcases erased with ⟨next, released, kept⟩
          exact ⟨next, by simp [perform, pop, found, released, specify, ← present], kept⟩
  | popKey keyValue =>
      rcases eraseFound_spec keyValue valid with ⟨node, found, present, erased⟩
      cases node with
      | none => exact ⟨tree, by simp [perform, popKey, found, specify, ← present], erased⟩
      | some target =>
          rcases erased with ⟨next, released, kept⟩
          exact ⟨next, by simp [perform, popKey, found, released, specify, ← present], kept⟩
  | find valData =>
      rcases findNodeByKey_spec (element valData) valid with ⟨node, found, answer⟩
      exact ⟨tree, by simp [perform, find_eq, findKey, found, answer, specify], valid⟩
  | findKey keyValue =>
      rcases findNodeByKey_spec keyValue valid with ⟨node, found, answer⟩
      exact ⟨tree, by simp [perform, findKey, found, answer, specify], valid⟩
  | size => exact ⟨tree, by simp [perform, internalSize_spec valid, specify], valid⟩

/-- A run succeeds, answers as the map does and keeps the tree valid. -/
theorem run_spec (operations : List (Operation Key Value)) (valid : Valid tree map) :
    ∃ next, run element functionPolicy tree operations =
        some (next, (specifyRun map operations).2) ∧
      Valid next (specifyRun map operations).1 := by
  induction operations generalizing tree map with
  | nil => exact ⟨tree, rfl, valid⟩
  | cons operation operations ih =>
      rcases perform_spec operation valid with ⟨one, performed, oneValid⟩
      rcases ih oneValid with ⟨next, rest, kept⟩
      exact ⟨next, by simp [run, performed, rest, specifyRun], kept⟩

end Steps

/-- The empty tree is valid. -/
theorem valid_empty {element : Value → Key} {functionPolicy : Key → Key → Bool} :
    Valid (.empty : RedBlackTree Value)
      (OrderedMap.empty : OrderedMap element functionPolicy) :=
  ⟨.nil, Focus.represents_empty, ⟨rfl, 0, rfl⟩, rfl⟩

end Wan.Container.RedBlackTree
