import Wan.Container.BinaryTree.Count
import Wan.Container.BinaryTree.Pop
import Wan.Library.Machine

/-!
# Runs of the binary search tree

Sequences of the public operations from the empty tree and the ordered set they implement.  An
argument may refer to an element of the tree; the set gets the value that it refers to.
-/

namespace Wan.Container.BinaryTree

open Wan.Library Wan.Library.LinkedTree

/-- The public operations on arguments of some kind. -/
inductive Operation (α : Type) where
  | push (binarySearchTreeTypeData : α)
  | pop (binarySearchTreeTypeData : α)
  | find (findNode : α)
  | size

/-- What an operation returns, with node pointers dereferenced. -/
inductive Answer (Value : Type) where
  | pushed (inserted : Bool)
  | popped
  | found (element : Option Value)
  | counted (size : Nat)
  deriving DecidableEq, Repr

variable {Value : Type}

/-- The operation on the values that its arguments refer to. -/
def Operation.resolve (tree : BinaryTree Value) :
    Operation (Argument Value) → Option (Operation Value)
  | .push argument => (tree.resolve argument).map .push
  | .pop argument => (tree.resolve argument).map .pop
  | .find argument => (tree.resolve argument).map .find
  | .size => some .size

section Model

variable (functionPolicy : Value → Value → Bool)

/-- The element behind a node pointer; `none` inside for a null pointer. -/
def deref (tree : BinaryTree Value) : Option Addr → Option (Option Value)
  | none => some none
  | some node => do return some (← tree.read node).memberData

/-- Perform one operation. -/
def perform (tree : BinaryTree Value) :
    Operation (Argument Value) → Option (BinaryTree Value × Answer Value)
  | .push argument => do
      let (tree, inserted) ← push functionPolicy tree argument
      return (tree, .pushed inserted)
  | .pop argument => do
      return (← pop tree functionPolicy argument, .popped)
  | .find argument => do
      let node ← find functionPolicy tree argument
      return (tree, .found (← tree.deref node))
  | .size => do
      return (tree, .counted (← tree.size))

end Model

/-- The ordered set of elements. -/
abbrev ElementSet (functionPolicy : Value → Value → Bool) :=
  OrderedMap (id : Value → Value) functionPolicy

section Specification

variable {functionPolicy : Value → Value → Bool} [StrictWeak functionPolicy]

/-- The operations on the ordered set that the tree stands for. -/
def specify (set : ElementSet functionPolicy) :
    Operation Value → ElementSet functionPolicy × Answer Value
  | .push data => (set.insert data, .pushed (set.find? data).isNone)
  | .pop data => (set.erase data, .popped)
  | .find data => (set, .found (set.find? data))
  | .size => (set, .counted set.size)

/-- One operation on a tree and on the set that it stands for. -/
def turn (state : BinaryTree Value × ElementSet functionPolicy)
    (operation : Operation (Argument Value)) :
    Option (BinaryTree Value × ElementSet functionPolicy) := do
  let resolved ← operation.resolve state.1
  let (next, _) ← perform functionPolicy state.1 operation
  return (next, (specify state.2 resolved).1)

/-- A sequence of operations from the empty tree and the empty set leads to a tree and a set. -/
abbrev Reached (tree : BinaryTree Value) (set : ElementSet functionPolicy) : Prop :=
  Machine.Reaches turn (fun _ _ => True) (empty, OrderedMap.empty) (tree, set)

end Specification

/-- The tree is what a well-linked store that implements the set is without parent links. -/
structure Valid {functionPolicy : Value → Value → Bool} (tree : BinaryTree Value)
    (set : ElementSet functionPolicy) : Prop where
  stored : ∃ store shape, tree = erase store ∧ Represents store shape ∧ Implements shape set

/-- The values below a link, from left to right. -/
inductive InOrder (tree : BinaryTree Value) : Option Addr → List Value → Prop where
  | null : InOrder tree none []
  | node {address : Addr} {node : BinarySearchTreeTypeNode Value} {smaller larger : List Value}
      (found : tree.read address = some node) (left : InOrder tree node.memberLeft smaller)
      (right : InOrder tree node.memberRight larger) :
      InOrder tree (some address) (smaller ++ node.memberData :: larger)

section Steps

variable {functionPolicy : Value → Value → Bool} {tree : BinaryTree Value}
variable {set : ElementSet functionPolicy} {argument : Argument Value} {value : Value}

theorem inOrder_of_holds {store : Store (TreeData Value)} {shape : BinTree (TreeData Value)}
    {parent : Option Addr} (holds : shape.Holds store.cells parent) :
    InOrder (erase store) shape.root (valuesOf shape.inorder) := by
  induction shape generalizing parent with
  | nil => exact .null
  | node address info left right leftIH rightIH =>
      rcases holds with ⟨found, leftHolds, rightHolds⟩
      have whole := InOrder.node (erase_read found) (leftIH leftHolds) (rightIH rightHolds)
      simpa [BinTree.inorder, nodeOf] using whole

/-- The elements of a valid tree in order are those of the set. -/
theorem Valid.inOrder (valid : Valid tree set) : InOrder tree tree.memberRoot set.toList := by
  rcases valid.stored with ⟨store, shape, rfl, represents, implements⟩
  rw [erase_memberRoot, show store.root = shape.root from represents.root, implements]
  exact inOrder_of_holds represents.focus

theorem compare_decides (value : Value) :
    Decides (id : Value → Value) functionPolicy value
      (fun info : TreeData Value => compare functionPolicy value info.memberData) := by
  constructor
  · intro info decision
    unfold compare at decision
    split at decision
    · rw [equivalent_comm]
      assumption
    · split at decision <;> cases decision
  · intro info decision
    unfold compare at decision
    split at decision
    · cases decision
    · split at decision <;> simp_all
  · intro info decision
    unfold compare at decision
    split at decision
    · cases decision
    · split at decision
      · assumption
      · cases decision

/-- `Size` counts the elements of the set. -/
theorem size_spec (valid : Valid tree set) : tree.size = some set.size := by
  rcases valid.stored with ⟨store, shape, rfl, represents, implements⟩
  rw [size_eq represents, OrderedMap.size, implements, valuesOf, List.length_map,
    Focus.inorder_length]

variable [StrictWeak functionPolicy]

/-- A search in a valid tree ends where the value of the argument is or belongs. -/
theorem searched_spec (valid : Valid tree set) (resolved : tree.resolve argument = some value) :
    ∃ store shape result, tree = erase store ∧ Implements shape set ∧
      searchLoop functionPolicy tree argument store.bound none store.root = some result ∧
      Outcome store shape set value
        (fun info => compare functionPolicy value info.memberData) result := by
  rcases valid.stored with ⟨store, shape, rfl, represents, implements⟩
  rcases search_spec represents implements (compare_decides value) with
    ⟨result, searched, outcome⟩
  exact ⟨store, shape, result, rfl, implements,
    (searchLoop_eq functionPolicy resolved store.bound none store.root).trans searched, outcome⟩

/-- `Find` yields the equivalent element of the set. -/
theorem find_spec (valid : Valid tree set) (resolved : tree.resolve argument = some value) :
    ∃ node, find functionPolicy tree argument = some node ∧
      tree.deref node = some (set.find? value) := by
  rcases searched_spec valid resolved with ⟨store, shape, result, rfl, _, searched, outcome⟩
  cases outcome with
  | missing frames focus shape sides absent =>
      exact ⟨none, by simp [find, searched], by simp [deref, absent]⟩
  | found frames address data left right focus shape present =>
      exact ⟨some address, by simp [find, searched],
        by simp [deref, erase_read focus.cell, present, nodeOf]⟩

/-- `Pop` removes the equivalent element of the set. -/
theorem pop_spec (valid : Valid tree set) (resolved : tree.resolve argument = some value) :
    ∃ next, tree.pop functionPolicy argument = some next ∧ Valid next (set.erase value) := by
  rcases searched_spec valid resolved with ⟨store, shape, result, rfl, _, searched, outcome⟩
  cases outcome with
  | missing frames focus _ sides absent =>
      refine ⟨erase store, by simp [pop, searched], ?_⟩
      rwa [OrderedMap.erase_of_none absent]
  | found frames address data left right focus whole present erased =>
      rcases popNode_spec focus with ⟨next, final, popped, nextFocus, values⟩
      refine ⟨erase next, by simp [pop, searched, popped], next, plug frames final, rfl,
        nextFocus.represents, ?_⟩
      rw [Implements, erased, inorder_plug, valuesOf_append, valuesOf_append, values]

omit [StrictWeak functionPolicy] in
/-- An allocation changes no value that an argument refers to. -/
theorem resolve_alloc {store : Store (TreeData Value)} {frames : List (Frame (TreeData Value))}
    {shape : BinTree (TreeData Value)} (focus : Focus store frames shape)
    (resolved : (erase store).resolve argument = some value) (data : Value)
    (parent : Option Addr) :
    (erase (store.alloc ⟨data⟩ parent).2).resolve argument = some value := by
  cases argument with
  | value _ => exact resolved
  | element node =>
      have live : store.cells node ≠ none := by
        intro freed
        simp [resolve, read, erase, freed] at resolved
      have apart : node ≠ store.next := Nat.ne_of_lt (focus.bound node (focus.owned node live))
      rcases Option.ne_none_iff_exists'.mp live with ⟨cell, found⟩
      have kept : (store.alloc ⟨data⟩ parent).2.cells node = some cell := by
        rw [Store.alloc_cells, if_neg apart, found]
      rw [← resolved, resolve, resolve, erase_read kept, erase_read found]

/-- `Push` links the new node where the search ended. -/
theorem linkNewElement_eq {store : Store (TreeData Value)} {frame : Frame (TreeData Value)}
    {frames : List (Frame (TreeData Value))} (focus : Focus store (frame :: frames) .nil)
    (side : compare functionPolicy value frame.info.memberData = some frame.side)
    (resolved : (erase store).resolve argument = some value) :
    linkNewElement functionPolicy (erase (store.alloc ⟨value⟩ (some frame.address)).2) argument
        store.next frame.address =
      (erase (store.alloc ⟨value⟩ (some frame.address)).2).setChild frame.side frame.address
        (some store.next) := by
  have apart : frame.address ≠ store.next :=
    Nat.ne_of_lt (focus.bound _ (by simp [contextAddrs]))
  have found : (store.alloc ⟨value⟩ (some frame.address)).2.cells frame.address =
      some (frame.cell none (parentOf frames)) := by
    rw [Store.alloc_cells, if_neg apart]
    exact focus.frame_cell
  have decides : Decides (id : Value → Value) functionPolicy value
      (fun info : TreeData Value => compare functionPolicy value info.memberData) :=
    compare_decides value
  simp only [linkNewElement, resolve_alloc focus resolved, erase_read found, nodeOf, Frame.cell,
    Cell.info_of, Option.bind_eq_bind, Option.bind_some]
  cases direction : frame.side with
  | left =>
      have before : functionPolicy value frame.info.memberData = true :=
        decides.left frame.info (side.trans (congrArg some direction))
      rw [if_pos before]
  | right =>
      have before : functionPolicy value frame.info.memberData = false :=
        lt_asymm (decides.right frame.info (side.trans (congrArg some direction)))
      rw [if_neg (by simp [before])]

/-- `Push` inserts a value exactly when no equivalent element is present. -/
theorem push_spec (valid : Valid tree set) (resolved : tree.resolve argument = some value) :
    ∃ next, push functionPolicy tree argument = some (next, (set.find? value).isNone) ∧
      Valid next (set.insert value) := by
  rcases searched_spec valid resolved with
    ⟨store, shape, result, rfl, implements, searched, outcome⟩
  cases outcome with
  | found frames address data left right focus whole present =>
      refine ⟨erase store, ?_, ?_⟩
      · cases root : store.root with
        | none => simp [root, searchLoop, Store.bound] at searched
        | some top =>
            rw [root] at searched
            simp [push, root, searched, present]
      · rwa [OrderedMap.insert_of_some present]
  | missing frames focus whole sides absent below above =>
      subst whole
      have split : set.toList = valuesOf (before frames) ++ valuesOf (after frames) := by
        rw [implements, inorder_plug]
        simp
      have inserted : ∃ next, push functionPolicy (erase store) argument =
          some (erase next, true) ∧
          Focus next frames (.mk .left store.next ⟨value⟩ .nil .nil) := by
        cases frames with
        | nil =>
            have onTop : ∀ (frame : Frame (TreeData Value)) rest, [] = frame :: rest →
                frame.side = .left := by simp
            rcases focus.hang_spec ⟨value⟩ onTop with ⟨next, hung, nextFocus⟩
            cases hung
            have root : store.root = none := focus.root
            have allocated := erase_alloc store value none
            exact ⟨_, by simp [push, root, resolved, allocated, erase_setRoot], nextFocus⟩
        | cons frame rest =>
            have onSide : ∀ (first : Frame (TreeData Value)) others,
                frame :: rest = first :: others → first.side = frame.side := by
              rintro first others ⟨rfl, rfl⟩
              rfl
            rcases focus.hang_spec ⟨value⟩ onSide with ⟨next, hung, nextFocus⟩
            obtain ⟨top, _, root⟩ := rootOf_mem frame rest none
            have above : store.root = some top := focus.root.trans root
            have allocated := erase_alloc store value (some frame.address)
            have linked := (linkNewElement_eq focus (sides frame List.mem_cons_self)
              resolved).trans (erase_setChild hung)
            rw [above] at searched
            refine ⟨next, ?_, nextFocus⟩
            simp [push, above, searched, resolved, allocated, linked]
      rcases inserted with ⟨next, pushed, nextFocus⟩
      refine ⟨erase next, by rw [pushed, absent]; rfl, next, plug frames _, rfl,
        nextFocus.represents, ?_⟩
      rw [Implements, OrderedMap.insert_between split below above, inorder_plug]
      simp [BinTree.mk, BinTree.inorder]

/-- Every operation on live arguments succeeds, answers as the set does and keeps the tree
valid. -/
theorem perform_spec (operation : Operation (Argument Value)) {resolved : Operation Value}
    (valid : Valid tree set) (live : operation.resolve tree = some resolved) :
    ∃ next, perform functionPolicy tree operation = some (next, (specify set resolved).2) ∧
      Valid next (specify set resolved).1 := by
  cases operation with
  | push argument =>
      rcases Option.map_eq_some_iff.mp live with ⟨data, read, rfl⟩
      rcases push_spec valid read with ⟨next, pushed, kept⟩
      exact ⟨next, by simp [perform, pushed, specify], kept⟩
  | pop argument =>
      rcases Option.map_eq_some_iff.mp live with ⟨data, read, rfl⟩
      rcases pop_spec valid read with ⟨next, popped, kept⟩
      exact ⟨next, by simp [perform, popped, specify], kept⟩
  | find argument =>
      rcases Option.map_eq_some_iff.mp live with ⟨data, read, rfl⟩
      rcases find_spec valid read with ⟨node, found, answer⟩
      exact ⟨tree, by simp [perform, found, answer, specify], valid⟩
  | size =>
      cases live
      exact ⟨tree, by simp [perform, size_spec valid, specify], valid⟩

omit [StrictWeak functionPolicy] in
/-- The empty tree is valid. -/
theorem valid_empty : Valid empty (OrderedMap.empty : ElementSet functionPolicy) :=
  ⟨.empty, .nil, erase_empty.symm, Focus.represents_empty, rfl⟩

/-- The tree of a state stands for its set. -/
def Coupled (state : BinaryTree Value × ElementSet functionPolicy) : Prop :=
  Valid state.1 state.2

/-- Every tree that is reached stands for the set of its run. -/
theorem coupled_of_reaches {state : BinaryTree Value × ElementSet functionPolicy}
    (reaches : Machine.Reaches turn (fun _ _ => True) (empty, OrderedMap.empty) state) :
    Coupled state := by
  apply reaches.invariant
  · exact valid_empty
  · intro state later operation _ taken coupled
    rcases Option.bind_eq_some_iff.mp taken with ⟨resolved, live, performed⟩
    rcases perform_spec operation coupled live with ⟨next, done, kept⟩
    rw [done] at performed
    cases performed
    exact kept

end Steps

section Runs

variable {functionPolicy : Value → Value → Bool} [StrictWeak functionPolicy]
variable {tree : BinaryTree Value} {set : ElementSet functionPolicy}

/-- In every run the tree is a search tree of the elements of the set, and every operation whose
arguments are values or refer to elements succeeds, answers as the set does and continues the
run. -/
theorem binaryTree_refines (reached : Reached tree set) :
    InOrder tree tree.memberRoot set.toList ∧
      (set.toList.Pairwise fun v w => functionPolicy v w = true) ∧
      ∀ operation resolved, Operation.resolve tree operation = some resolved →
        ∃ next, perform functionPolicy tree operation = some (next, (specify set resolved).2) ∧
          Reached next (specify set resolved).1 := by
  have valid : Valid tree set := coupled_of_reaches reached
  refine ⟨valid.inOrder, set.sorted, fun operation resolved live => ?_⟩
  rcases perform_spec operation valid live with ⟨next, performed, _⟩
  have taken : turn (tree, set) operation = some (next, (specify set resolved).1) := by
    simp [turn, live, performed]
  exact ⟨next, performed, reached.step trivial taken⟩

theorem binaryTree_refines_example :
    ∃ tree set, Reached (tree : BinaryTree Nat) (set : ElementSet less) ∧
      InOrder tree tree.memberRoot set.toList ∧
      (set.toList.Pairwise fun v w => less v w = true) ∧
      ∀ operation resolved, Operation.resolve tree operation = some resolved →
        ∃ next, perform less tree operation = some (next, (specify set resolved).2) ∧
          Reached next (specify set resolved).1 := by
  let operations : List (Operation (Argument Nat)) :=
    [.push (.value 4), .push (.value 2), .push (.value 6), .push (.element 1), .push (.value 5),
      .pop (.element 0), .find (.value 6), .size]
  have ran : (operations.foldlM (Machine.meetingStep turn fun _ _ => True)
      ((empty, OrderedMap.empty) : BinaryTree Nat × ElementSet less)).isSome := by decide
  rcases Option.isSome_iff_exists.mp ran with ⟨⟨tree, set⟩, run⟩
  have reached : Reached tree set := Machine.reaches_of_meeting operations run
  exact ⟨tree, set, reached, binaryTree_refines reached⟩

end Runs

end Wan.Container.BinaryTree
