import Wan.Container.BalanceTree.Pop
import Wan.Library.LinkedTree.Search

/-!
# Runs of the AVL tree

Sequences of the public operations from the empty tree and the ordered map they
implement.
-/

namespace Wan.Container.BalanceTree

open Wan.Library Wan.Library.LinkedTree

/-- The public operations. -/
inductive Operation (Key Value : Type) where
  | push (pairTypeData : Key × Value)
  | pop (keyData : Key)
  | find (keyData : Key)
  | size

/-- What an operation returns, with node pointers dereferenced. -/
inductive Answer (Key Value : Type) where
  | pushed (inserted : Bool)
  | popped
  | found (element : Option (Key × Value))
  | counted (size : Nat)
  deriving DecidableEq, Repr

variable {Key Value : Type}

section Model

variable (functionPolicy : Key → Key → Bool)

/-- The pair behind a node pointer; `none` inside for a null pointer. -/
def deref (tree : BalanceTree Key Value) : Option Addr → Option (Option (Key × Value))
  | none => some none
  | some node => do return some (← tree.read node).info.memberData

/-- Perform one operation. -/
def perform (tree : BalanceTree Key Value) :
    Operation Key Value → Option (BalanceTree Key Value × Answer Key Value)
  | .push pairTypeData => do
      let (tree, inserted) ← push functionPolicy tree pairTypeData
      return (tree, .pushed inserted)
  | .pop keyData => do
      return (← pop functionPolicy tree keyData, .popped)
  | .find keyData => do
      let node ← find functionPolicy tree keyData
      return (tree, .found (← deref tree node))
  | .size => do
      return (tree, .counted (← size tree))

/-- Perform a sequence of operations and collect their answers. -/
def run (tree : BalanceTree Key Value) :
    List (Operation Key Value) → Option (BalanceTree Key Value × List (Answer Key Value))
  | [] => some (tree, [])
  | operation :: operations => do
      let (tree, answer) ← perform functionPolicy tree operation
      let (tree, answers) ← run tree operations
      return (tree, answer :: answers)

/-- The pairs met by pre-increment iteration from `Begin` to `End`. -/
def forward (tree : BalanceTree Key Value) : Option (List (Key × Value)) := do
  let nodes ← tree.collect tree.bound (← begin tree)
  return nodes.map (·.memberData)

end Model

section Specification

variable {functionPolicy : Key → Key → Bool} [StrictWeak functionPolicy]

/-- The ordered map of pairs under their keys. -/
abbrev PairMap (Value : Type) (functionPolicy : Key → Key → Bool) :=
  OrderedMap (Prod.fst : Key × Value → Key) functionPolicy

/-- The operations on the ordered map that the tree stands for. -/
def specify (map : PairMap Value functionPolicy) :
    Operation Key Value → PairMap Value functionPolicy × Answer Key Value
  | .push pairTypeData =>
      (map.insert pairTypeData, .pushed (map.find? pairTypeData.1).isNone)
  | .pop keyData => (map.erase keyData, .popped)
  | .find keyData => (map, .found (map.find? keyData))
  | .size => (map, .counted map.size)

/-- A sequence of operations on the ordered map. -/
def specifyRun (map : PairMap Value functionPolicy) :
    List (Operation Key Value) → PairMap Value functionPolicy × List (Answer Key Value)
  | [] => (map, [])
  | operation :: operations =>
      let (map, answer) := specify map operation
      let (map, answers) := specifyRun map operations
      (map, answer :: answers)

end Specification

/-- The tree obeys the height rules and implements the map. -/
structure Valid {functionPolicy : Key → Key → Bool} (tree : BalanceTree Key Value)
    (map : PairMap Value functionPolicy) : Prop where
  shaped : ∃ shape, Represents tree shape ∧ Avl shape ∧ Implements shape map

section Steps

variable {functionPolicy : Key → Key → Bool} {tree : BalanceTree Key Value}
variable {map : PairMap Value functionPolicy}

theorem findAt_decides (keyData : Key) :
    Decides (Prod.fst : Key × Value → Key) functionPolicy keyData
      (findAt functionPolicy keyData) := by
  constructor
  · intro data decision
    unfold findAt at decision
    split at decision
    · assumption
    · split at decision <;> cases decision
  · intro data decision
    unfold findAt at decision
    split at decision
    · cases decision
    · split at decision
      · assumption
      · cases decision
  · intro data decision
    unfold findAt at decision
    split at decision
    · cases decision
    · split at decision <;> simp_all

theorem insertAt_decides (key : Key) :
    Decides (Prod.fst : Key × Value → Key) functionPolicy key
      (insertAt functionPolicy key) := by
  constructor
  · intro data decision
    unfold insertAt at decision
    split at decision
    · rw [equivalent_comm]
      assumption
    · split at decision <;> cases decision
  · intro data decision
    unfold insertAt at decision
    split at decision
    · cases decision
    · split at decision <;> simp_all
  · intro data decision
    unfold insertAt at decision
    split at decision
    · cases decision
    · split at decision
      · assumption
      · cases decision

/-- `Size` counts the pairs of the map. -/
theorem size_spec (valid : Valid tree map) : size tree = some map.size := by
  rcases valid.shaped with ⟨shape, represents, _, implements⟩
  rw [size, represents.size_eq, OrderedMap.size, implements, valuesOf, List.length_map,
    Focus.inorder_length]

/-- Iteration lists the map. -/
theorem forward_spec (valid : Valid tree map) : forward tree = some map.toList := by
  rcases valid.shaped with ⟨shape, represents, _, implements⟩
  have length := represents.length_le
  have started : tree.endpoint .left = some (shape.inorder.head?.map Prod.fst) :=
    represents.endpoint_spec
  have listed := represents.collect_spec [] shape.inorder tree.bound rfl
    (by rw [Focus.inorder_length]; unfold Store.bound; omega)
  have order : map.toList = valuesOf shape.inorder := implements
  simp [forward, begin, started, listed, order, valuesOf]

variable [StrictWeak functionPolicy]

/-- `Find` yields the pair of the map. -/
theorem find_spec (keyData : Key) (valid : Valid tree map) :
    ∃ node, find functionPolicy tree keyData = some node ∧
      deref tree node = some (map.find? keyData) := by
  rcases valid.shaped with ⟨shape, represents, avl, implements⟩
  rcases search_spec represents implements (findAt_decides keyData) with ⟨result, searched, outcome⟩
  cases outcome with
  | missing frames focus shape sides absent =>
      exact ⟨none, by simp [find, searched], by simp [deref, absent]⟩
  | found frames address data left right focus shape present =>
      exact ⟨some address, by simp [find, searched], by simp [deref, focus.read, present]⟩

/-- `Pop` removes the pair of the map. -/
theorem pop_spec (keyData : Key) (valid : Valid tree map) :
    ∃ next, pop functionPolicy tree keyData = some next ∧ Valid next (map.erase keyData) := by
  rcases valid.shaped with ⟨shape, represents, avl, implements⟩
  rcases search_spec represents implements (findAt_decides keyData) with ⟨result, searched, outcome⟩
  cases outcome with
  | missing frames focus _ sides absent =>
      refine ⟨tree, by simp [pop, find, searched], ?_⟩
      rwa [OrderedMap.erase_of_none absent]
  | found frames target data left right focus whole present erased =>
      rcases unlinkTarget_spec focus (whole ▸ avl) with
        ⟨one, start, outer, shape, unlinked, live, opened, same⟩
      rcases Option.ne_none_iff_exists'.mp live with ⟨cell, cellFound⟩
      rcases opened.close with ⟨next, final, rebalanced, finalRepresents, finalAvl, kept⟩
      have released := Store.free_eq cellFound
      refine ⟨next, ?_, final, finalRepresents, finalAvl, ?_⟩
      · simp [pop, find, searched, unlinked, released, rebalanced]
      · rw [Implements, erased, valuesOf_eq final.inorder,
          show entriesOf final.inorder = _ from kept.trans same]
        simp [valuesOf_eq, entries]

/-- `Insert` links the new node where the search ended. -/
theorem linkNewNode_eq {frames : List (Frame (AvlNodeData Key Value))}
    (data : AvlNodeData Key Value)
    (focus : Focus tree frames .nil)
    (sides : ∀ frame ∈ frames,
      insertAt functionPolicy data.memberData.1 frame.info = some frame.side) :
    ∃ side, (∀ frame rest, frames = frame :: rest → frame.side = side) ∧
      linkNewNode functionPolicy (tree.alloc data (parentOf frames)).2 data.memberData tree.next
          (parentOf frames) =
        (tree.alloc data (parentOf frames)).2.hang side (parentOf frames) tree.next := by
  cases frames with
  | nil => exact ⟨.left, by simp, rfl⟩
  | cons frame rest =>
      refine ⟨frame.side, by simp +contextual, ?_⟩
      have apart : frame.address ≠ tree.next :=
        Nat.ne_of_lt (focus.bound _ (by simp [contextAddrs]))
      have parentCell : (tree.alloc data (some frame.address)).2.cells frame.address =
          some (frame.cell none (parentOf rest)) := by
        rw [Store.alloc_cells, if_neg apart]
        exact focus.frame_cell
      have decision := sides frame List.mem_cons_self
      have decides : Decides (Prod.fst : Key × Value → Key) functionPolicy data.memberData.1
          (insertAt functionPolicy data.memberData.1) := insertAt_decides _
      simp only [parentOf_cons, linkNewNode, Store.read_eq parentCell, Option.bind_eq_bind,
        Option.bind_some, Frame.cell, Cell.info_of, Store.hang]
      cases side : frame.side with
      | left =>
          have before : functionPolicy data.memberData.1 frame.info.memberData.1 = true :=
            decides.left frame.info (side ▸ decision)
          simp [before]
      | right =>
          have before : functionPolicy data.memberData.1 frame.info.memberData.1 = false :=
            lt_asymm (decides.right frame.info (side ▸ decision))
          simp [before]

/-- `Insert` inserts a pair exactly when its key is new. -/
theorem insert_spec (value : Key × Value) (valid : Valid tree map) :
    ∃ next, insert functionPolicy tree value = some (next, (map.find? value.1).isNone) ∧
      Valid next (map.insert value) := by
  rcases valid.shaped with ⟨shape, represents, avl, implements⟩
  rcases search_spec represents implements (insertAt_decides value.1) with
    ⟨result, searched, outcome⟩
  cases outcome with
  | found frames address data left right focus _ present =>
      refine ⟨tree, by simp [insert, searched, present], ?_⟩
      rwa [OrderedMap.insert_of_some present]
  | missing frames focus whole sides absent below above =>
      subst whole
      rcases avl.context with ⟨_, context⟩
      rw [heightOf_nil] at context
      rcases linkNewNode_eq ⟨value, 0, 1⟩ focus sides with ⟨side, sideEq, linked⟩
      rcases focus.hang_spec ⟨value, 0, 1⟩ sideEq with ⟨one, hung, oneFocus⟩
      rw [hung] at linked
      generalize freshEq : (tree.alloc _ (parentOf frames)).2 = fresh at linked
      have allocated : tree.alloc ⟨value, 0, 1⟩ (parentOf frames) = (tree.next, fresh) := by
        rw [← freshEq]
        rfl
      have leaf : Avl (.mk .left tree.next (⟨value, 0, 1⟩ : AvlNodeData Key Value) .nil .nil) :=
        avl_mk.mpr ⟨rfl, by simp, by simp, trivial, trivial⟩
      rcases rebalanceFrom_spec oneFocus leaf context (by simp) (by simp) with
        ⟨next, final, rebalanced, finalRepresents, finalAvl, same⟩
      refine ⟨next, ?_, final, finalRepresents, finalAvl, ?_⟩
      · simp [insert, searched, allocated, linked, rebalanced, absent]
      · have split : map.toList = valuesOf (before frames) ++ valuesOf (after frames) := by
          rw [implements, inorder_plug]
          simp
        rw [Implements, OrderedMap.insert_between split below above, valuesOf_eq final.inorder,
          show entriesOf final.inorder = _ from same, entries_plug]
        simp [valuesOf_eq, BinTree.mk]

/-- Every operation succeeds, answers as the map does and keeps the tree valid. -/
theorem perform_spec (operation : Operation Key Value) (valid : Valid tree map) :
    ∃ next, perform functionPolicy tree operation = some (next, (specify map operation).2) ∧
      Valid next (specify map operation).1 := by
  cases operation with
  | push pairTypeData =>
      rcases insert_spec pairTypeData valid with ⟨next, pushed, kept⟩
      exact ⟨next, by simp [perform, push, pushed, specify], kept⟩
  | pop keyData =>
      rcases pop_spec keyData valid with ⟨next, popped, kept⟩
      exact ⟨next, by simp [perform, popped, specify], kept⟩
  | find keyData =>
      rcases find_spec keyData valid with ⟨node, found, answer⟩
      exact ⟨tree, by simp [perform, found, answer, specify], valid⟩
  | size => exact ⟨tree, by simp [perform, size_spec valid, specify], valid⟩

/-- A run succeeds, answers as the map does and keeps the tree valid. -/
theorem run_spec (operations : List (Operation Key Value)) (valid : Valid tree map) :
    ∃ next, run functionPolicy tree operations = some (next, (specifyRun map operations).2) ∧
      Valid next (specifyRun map operations).1 := by
  induction operations generalizing tree map with
  | nil => exact ⟨tree, rfl, valid⟩
  | cons operation operations ih =>
      rcases perform_spec operation valid with ⟨one, performed, oneValid⟩
      rcases ih oneValid with ⟨next, rest, kept⟩
      exact ⟨next, by simp [run, performed, rest, specifyRun], kept⟩

end Steps

/-- The empty tree is valid. -/
theorem valid_empty {functionPolicy : Key → Key → Bool} :
    Valid (.empty : BalanceTree Key Value) (.empty : PairMap Value functionPolicy) :=
  ⟨.nil, Focus.represents_empty, trivial, rfl⟩

end Wan.Container.BalanceTree
