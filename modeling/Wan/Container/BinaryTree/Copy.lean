import Wan.Container.BalanceTree.Copy
import Wan.Container.BinaryTree.Run
import Wan.Container.RedBlackTree.Copy

/-!
# The copy constructor of the binary search tree

The nodes of the copy are allocated in the memory that the nodes of the source are in, and linked
to the place that is on the stack: the root link of the copy or a child link of one of its nodes.
-/

namespace Wan.Container

open Wan.Library Wan.Library.LinkedTree

namespace BinaryTree

variable {Value : Type}

/-- The pushes of the children of a node of the source, with the links of the node of the copy. -/
def pushChildren (first : BinarySearchTreeTypeNode Value) (second : Addr)
    (interiorStack : List (Addr × Option (Side × Addr))) : List (Addr × Option (Side × Addr)) :=
  let interiorStack := match first.memberRight with
    | none => interiorStack
    | some right => (right, some (.right, second)) :: interiorStack
  match first.memberLeft with
  | none => interiorStack
  | some left => (left, some (.left, second)) :: interiorStack

/-- Assignment to `*(PairNode.Second)`; no place in a node is `MemberRoot`. -/
def setLink (tree : BinaryTree Value) (link : Option Addr) :
    Option (Side × Addr) → Option (BinaryTree Value)
  | none => some { tree with memberRoot := link }
  | some (side, node) => tree.setChild side node link

/-- The loop of the copy constructor. -/
def copyLoop : Nat → BinaryTree Value → List (Addr × Option (Side × Addr)) →
    Option (BinaryTree Value)
  | _, tree, [] => some tree
  | 0, _, _ :: _ => none
  | fuel + 1, tree, (first, second) :: interiorStack => do
      let firstNode ← tree.read first
      let (node, tree) := tree.alloc firstNode.memberData
      let tree ← tree.setLink (some node) second
      copyLoop fuel tree (pushChildren firstNode node interiorStack)

/-- The copy constructor: the memory with the nodes of both trees, and the root of the copy. -/
def copy (other : BinaryTree Value) : Option (BinaryTree Value) :=
  let tree := { other with memberRoot := none }
  match other.memberRoot with
  | none => some tree
  | some referenceNode => copyLoop other.bound tree [(referenceNode, none)]

/-- What was allocated later than some address. -/
def beyond (tree : BinaryTree Value) (base : Addr) : BinaryTree Value :=
  { tree with nodes := fun query => if query < base then none else tree.nodes query }

/-- The trees that the operations on live arguments and copying reach. -/
inductive Reachable (functionPolicy : Value → Value → Bool) : BinaryTree Value → Prop where
  | empty : Reachable functionPolicy empty
  | perform {tree next : BinaryTree Value} {operation : Operation (Argument Value)}
      {resolved : Operation Value} {answer : Answer Value}
      (reachable : Reachable functionPolicy tree) (live : operation.resolve tree = some resolved)
      (performed : perform functionPolicy tree operation = some (next, answer)) :
      Reachable functionPolicy next
  | copy {tree memory : BinaryTree Value} (reachable : Reachable functionPolicy tree)
      (copied : copy tree = some memory) : Reachable functionPolicy (memory.beyond tree.next)


/-- Beside the nodes of one tree a memory holds a copy of it. -/
structure Duplicates (source memory : BinaryTree Value) (twin : Addr → Addr) : Prop where
  root : memory.memberRoot = source.memberRoot.map twin
  copied : ∀ address node, source.nodes address = some node → memory.nodes (twin address) =
    some ⟨node.memberLeft.map twin, node.memberRight.map twin, node.memberData⟩
  apart : ∀ address, source.nodes address ≠ none → source.nodes (twin address) = none
  injective : ∀ one other, source.nodes one ≠ none → source.nodes other ≠ none →
    twin one = twin other → one = other
  unchanged : ∀ address, source.nodes address ≠ none →
    memory.nodes address = source.nodes address
  only : ∀ address, memory.nodes address ≠ none → source.nodes address ≠ none ∨
    ∃ origin, source.nodes origin ≠ none ∧ address = twin origin

section Copy

variable {store memory : Store (TreeData Value)} {shape twinShape : BinTree (TreeData Value)}
variable {tree : BinaryTree Value}

theorem erase_beyond (base : Addr) : erase (store.beyond base) = (erase store).beyond base := by
  simp only [erase, beyond, Store.beyond, mk.injEq, and_true]
  funext query
  split <;> rfl

theorem erase_live (address : Addr) :
    (erase store).nodes address ≠ none ↔ store.cells address ≠ none := by
  show (store.cells address).map nodeOf ≠ none ↔ _
  rw [ne_eq, ne_eq, Option.map_eq_none_iff]

/-- Duplicates stay duplicates without their parent links. -/
theorem duplicates_erase {twin : Addr → Addr} (duplicates : store.Duplicates memory twin) :
    (erase store).Duplicates (erase memory) twin := by
  constructor
  · exact duplicates.root
  · intro address node found
    rcases Option.map_eq_some_iff.mp found with ⟨cell, isCell, rfl⟩
    show (memory.cells (twin address)).map nodeOf = _
    rw [duplicates.copied address cell isCell]
    rfl
  · intro address live
    show (store.cells (twin address)).map nodeOf = none
    rw [duplicates.apart address ((erase_live address).mp live)]
    rfl
  · intro one other oneLive otherLive
    exact duplicates.injective one other ((erase_live one).mp oneLive)
      ((erase_live other).mp otherLive)
  · intro address live
    exact congrArg (Option.map nodeOf) (duplicates.unchanged address ((erase_live address).mp live))
  · intro address live
    rcases duplicates.only address ((erase_live address).mp live) with old | ⟨origin, old, same⟩
    · exact Or.inl ((erase_live address).mpr old)
    · exact Or.inr ⟨origin, (erase_live origin).mpr old, same⟩

/-- An entry of the stack of a store with parent links. -/
def entryOf (entry : Addr × Side × Addr) : Addr × Option (Side × Addr) := (entry.1, some entry.2)

theorem pushChildren_eq (cell : Cell (TreeData Value)) (node : Addr)
    (stack : List (Addr × Side × Addr)) :
    pushChildren (nodeOf cell) node (stack.map entryOf) =
      (offer Prod.mk node .left cell.left ++
        (offer Prod.mk node .right cell.right ++ stack)).map entryOf := by
  rw [pushChildren, nodeOf]
  cases cell.left <;> cases cell.right <;> rfl

/-- The loop runs on the nodes as on the cells. -/
theorem copyLoop_erase (fuel : Nat) (store : Store (TreeData Value))
    (stack : List (Addr × Side × Addr))
    (ran : store.preorderLoop Prod.mk Prod.snd (fun _ _ entry => some entry.1) fuel stack =
      some memory) :
    copyLoop fuel (erase store) (stack.map entryOf) = some (erase memory) := by
  induction fuel generalizing store stack with
  | zero =>
      cases stack with
      | nil =>
          cases ran
          rfl
      | cons entry stack => cases ran
  | succ fuel ih =>
      cases stack with
      | nil =>
          cases ran
          rfl
      | cons entry stack =>
          rcases entry with ⟨first, side, parent⟩
          rcases Option.bind_eq_some_iff.mp ran with ⟨cell, found, ran⟩
          rcases Option.bind_eq_some_iff.mp ran with ⟨_, isSide, ran⟩
          cases isSide
          rcases Option.bind_eq_some_iff.mp ran with ⟨next, linked, ran⟩
          have rest := ih next _ ran
          rw [← pushChildren_eq] at rest
          have put : ((erase store).alloc cell.info.memberData).2.setLink (some store.next)
              (some (side, parent)) = some (erase next) := by
            rw [erase_alloc store cell.info.memberData (some parent)]
            exact erase_setChild linked
          rw [List.map_cons, entryOf, copyLoop, erase_read found, Option.bind_eq_bind,
            Option.bind_some, ← rest]
          show Option.bind (((erase store).alloc cell.info.memberData).2.setLink
            (some store.next) (some (side, parent))) _ = _
          rw [put]
          rfl

/-- The copy of a tree is a tree of its own that duplicates it. -/
theorem copy_spec (represents : Represents store shape) :
    ∃ memory twinShape, copy (erase store) = some (erase memory) ∧
      Copied store memory shape twinShape := by
  cases shape with
  | nil =>
      have root : (erase store).memberRoot = none := represents.root
      exact ⟨store.setRoot none, .nil, by rw [copy, root]; rfl, copied_nil represents⟩
  | node address data left right =>
      have root : (erase store).memberRoot = some address := represents.root
      have finds : Finds Prod.mk Prod.snd
          fun (_ : Store (TreeData Value)) _ (entry : Side × Addr) => some entry.1 :=
        ⟨fun _ _ => rfl, fun _ _ _ _ _ _ _ _ _ _ _ _ => rfl⟩
      rcases preorderLoop_copied finds represents (Nat.le_refl _) with
        ⟨memory, twinShape, ran, copied⟩
      refine ⟨memory, twinShape, ?_, copied⟩
      have rest := copyLoop_erase store.next (store.sowRoot data) _ ran
      have pushed := pushChildren_eq (Cell.of .left data left.root right.root none) store.next []
      rw [List.append_nil] at pushed
      have found : read { erase store with memberRoot := none } address = some _ :=
        erase_read represents.focus.1
      have sown : { ((erase store).alloc data.memberData).2 with memberRoot := some store.next } =
          erase (store.sowRoot data) := by
        rw [erase_alloc store data.memberData none]
        rfl
      rw [copy, root]
      show copyLoop (store.next + 1) _ [(address, none)] = _
      rw [copyLoop, found, Option.bind_eq_bind, Option.bind_some, ← rest, ← sown]
      exact congrArg (copyLoop store.next _) pushed

/-- Every operation keeps what a tree stands for, and so does copying. -/
theorem Valid.copy {functionPolicy : Value → Value → Bool} {set : ElementSet functionPolicy}
    (valid : Valid tree set) :
    ∃ memory, copy tree = some memory ∧ (∃ twin, tree.Duplicates memory twin) ∧
      Valid (memory.beyond tree.next) set := by
  rcases valid.stored with ⟨store, shape, rfl, represents, implements⟩
  rcases copy_spec represents with ⟨memory, twinShape, done, copied⟩
  rcases copied.duplicates with ⟨twin, duplicates⟩
  refine ⟨erase memory, done, ⟨twin, duplicates_erase duplicates⟩, memory.beyond store.next,
    twinShape, (erase_beyond _).symm, copied.represents, ?_⟩
  rw [Implements, copied.alike.values]
  exact implements

/-- Every reachable tree stands for a set. -/
theorem Reachable.valid {functionPolicy : Value → Value → Bool} [StrictWeak functionPolicy]
    (reachable : Reachable functionPolicy tree) :
    ∃ set : ElementSet functionPolicy, Valid tree set := by
  induction reachable with
  | empty => exact ⟨.empty, valid_empty⟩
  | @perform tree next operation resolved answer _ live performed ih =>
      rcases ih with ⟨set, valid⟩
      rcases perform_spec operation valid live with ⟨other, done, kept⟩
      rw [performed] at done
      cases done
      exact ⟨_, kept⟩
  | @copy tree memory _ copied ih =>
      rcases ih with ⟨set, valid⟩
      rcases valid.copy with ⟨other, done, _, kept⟩
      rw [copied] at done
      cases done
      exact ⟨set, kept⟩

end Copy

end BinaryTree

/-- A copy of a reachable tree has its shape, its values and its colours, or heights and balance
factors, and links between its own nodes, and the tree is left as it is. -/
theorem copies_exact :
    (∀ {Key Value : Type} (element : Value → Key) (functionPolicy : Key → Key → Bool)
      [StrictWeak functionPolicy] (tree : RedBlackTree Value),
      RedBlackTree.Reachable element functionPolicy tree →
        ∃ memory twin, RedBlackTree.copy tree = some memory ∧ tree.Duplicates memory twin) ∧
    (∀ {Key Value : Type} (functionPolicy : Key → Key → Bool) [StrictWeak functionPolicy]
      (tree : BalanceTree Key Value), BalanceTree.Reachable functionPolicy tree →
        ∃ memory twin, BalanceTree.copy tree = some memory ∧ tree.Duplicates memory twin) ∧
    ∀ {Value : Type} (functionPolicy : Value → Value → Bool) [StrictWeak functionPolicy]
      (tree : BinaryTree Value), BinaryTree.Reachable functionPolicy tree →
        ∃ memory twin, BinaryTree.copy tree = some memory ∧ tree.Duplicates memory twin := by
  refine ⟨?_, ?_, ?_⟩
  · intro Key Value element functionPolicy _ tree reachable
    rcases reachable.valid with ⟨map, valid⟩
    rcases valid.copy with ⟨memory, copied, ⟨twin, duplicates⟩, _⟩
    exact ⟨memory, twin, copied, duplicates⟩
  · intro Key Value functionPolicy _ tree reachable
    rcases reachable.valid with ⟨map, valid⟩
    rcases valid.copy with ⟨memory, copied, ⟨twin, duplicates⟩, _⟩
    exact ⟨memory, twin, copied, duplicates⟩
  · intro Value functionPolicy _ tree reachable
    rcases reachable.valid with ⟨set, valid⟩
    rcases valid.copy with ⟨memory, copied, ⟨twin, duplicates⟩, _⟩
    exact ⟨memory, twin, copied, duplicates⟩

/-- Three trees of two elements. -/
theorem copies_exact_example :
    ∃ (colored : RedBlackTree Nat) (balanced : BalanceTree Nat Nat) (plain : BinaryTree Nat),
      (∃ memory twin, RedBlackTree.copy colored = some memory ∧
        colored.Duplicates memory twin) ∧
      (∃ memory twin, BalanceTree.copy balanced = some memory ∧
        balanced.Duplicates memory twin) ∧
      ∃ memory twin, BinaryTree.copy plain = some memory ∧ plain.Duplicates memory twin :=
  ⟨_, _, _,
    copies_exact.1 (id : Nat → Nat) less _
      (.perform (.perform .empty (rfl : RedBlackTree.perform id less _ (.push 4) = some _))
        (rfl : RedBlackTree.perform id less _ (.push 6) = some _)),
    copies_exact.2.1 less _
      (.perform (.perform .empty (rfl : BalanceTree.perform less _ (.push (4, 7)) = some _))
        (rfl : BalanceTree.perform less _ (.push (6, 8)) = some _)),
    copies_exact.2.2 less _
      (.perform (.perform .empty (rfl : BinaryTree.Operation.resolve _ (.push (.value 4)) = some _)
          (rfl : BinaryTree.perform less _ (.push (.value 4)) = some _))
        (rfl : BinaryTree.Operation.resolve _ (.push (.value 6)) = some _)
        (rfl : BinaryTree.perform less _ (.push (.value 6)) = some _))⟩

end Wan.Container
