import Wan.Container.RedBlackTree.Run
import Wan.Library.LinkedTree.Copy

/-!
# The copy constructor of the red-black tree

The nodes of the copy are allocated in the memory that the nodes of the source are in.
-/

namespace Wan.Container.RedBlackTree

open Wan.Library Wan.Library.LinkedTree

variable {Key Value : Type}

/-- The part of the loop that copies the child on one side. -/
def copyChild (side : Side) (source destination : Addr) (tree : RedBlackTree Value)
    (pending : List (Addr × Addr)) : Option (RedBlackTree Value × List (Addr × Addr)) := do
  match (← tree.read source).child side with
  | none => return (tree, pending)
  | some sourceChild =>
      let (childNode, tree) := tree.alloc (← tree.read sourceChild).info (some destination)
      let tree ← tree.setChild side destination (some childNode)
      return (tree, (sourceChild, childNode) :: pending)

/-- The loop of the copy constructor. -/
def copyLoop : Nat → RedBlackTree Value → List (Addr × Addr) → Option (RedBlackTree Value)
  | _, tree, [] => some tree
  | 0, _, _ :: _ => none
  | fuel + 1, tree, (source, destination) :: pending => do
      let (tree, pending) ← copyChild .left source destination tree pending
      let (tree, pending) ← copyChild .right source destination tree pending
      copyLoop fuel tree pending

/-- The copy constructor: the memory with the nodes of both trees, and the root of the copy. -/
def copy (other : RedBlackTree Value) : Option (RedBlackTree Value) :=
  match other.root with
  | none => some (other.setRoot none)
  | some root => do
      let (memberRoot, tree) := other.alloc (← other.read root).info none
      copyLoop other.bound (tree.setRoot (some memberRoot)) [(root, memberRoot)]

/-- The trees that the operations and copying reach. -/
inductive Reachable (element : Value → Key) (functionPolicy : Key → Key → Bool) :
    RedBlackTree Value → Prop where
  | empty : Reachable element functionPolicy .empty
  | perform {tree next : RedBlackTree Value} {operation : Operation Key Value}
      {answer : Answer Value} (reachable : Reachable element functionPolicy tree)
      (performed : perform element functionPolicy tree operation = some (next, answer)) :
      Reachable element functionPolicy next
  | copy {tree memory : RedBlackTree Value} (reachable : Reachable element functionPolicy tree)
      (copied : copy tree = some memory) :
      Reachable element functionPolicy (memory.beyond tree.next)

section Loop

variable {tree next after : RedBlackTree Value} {side : Side} {source leaf : Addr}
variable {link parent above : Option Addr} {cell origin : Cell (RbNodeData Value)}
variable {shape child : BinTree (RbNodeData Value)}

/-- The pending copy of a tree whose root has a leaf. -/
def pendingOf (shape : BinTree (RbNodeData Value)) (link : Option Addr) : List (Addr × Addr) :=
  (shape.root.bind fun source => link.map fun destination => (source, destination)).toList

/-- The leaf of a child is put below the copy of its parent. -/
theorem copyChild_spec (side : Side) (isSource : tree.cells source = some origin)
    (isChild : origin.child side = child.root) (holds : child.Holds tree.cells (some source))
    (found : tree.cells leaf = some cell) (free : cell.child side = none)
    (inside : leaf < tree.next) (pending : List (Addr × Addr)) :
    ∃ next link,
      copyChild side source leaf tree pending = some (next, pendingOf child link ++ pending) ∧
      SownBelow tree next side leaf child link := by
  cases child with
  | nil =>
      refine ⟨tree, none, ?_, sownBelow_nil found free⟩
      simp only [copyChild, Store.read_eq isSource, isChild, BinTree.root_nil,
        Option.bind_eq_bind, Option.bind_some]
      rfl
  | node address data left right =>
      rcases sownBelow_node side address data left right found inside with ⟨next, linked, sown⟩
      refine ⟨next, some tree.next, ?_, sown⟩
      simp only [copyChild, Store.read_eq isSource, isChild, BinTree.root_node,
        Option.bind_eq_bind, Option.bind_some, Store.read_eq holds.1, Cell.info_of]
      show Option.bind (Store.setChild (tree.alloc data (some leaf)).2 side leaf
        (some tree.next)) _ = _
      rw [linked]
      rfl

/-- The loop makes a copy of a tree from the leaf that was put for its root. -/
theorem copyLoop_spec (shape : BinTree (RbNodeData Value)) (tree : RedBlackTree Value)
    (link parent above : Option Addr) (fuel : Nat) (pending : List (Addr × Addr))
    (sown : Sown tree link parent shape) (holds : shape.Holds tree.cells above)
    (nodup : shape.addrs.Nodup)
    (old : ∀ query ∈ shape.addrs, query < tree.next ∧ some query ≠ link) :
    ∃ after twin,
      copyLoop (shape.addrs.length + fuel) tree (pendingOf shape link ++ pending) =
        copyLoop fuel after pending ∧
      Filled tree after link parent shape twin := by
  induction shape generalizing tree link parent above fuel pending with
  | nil =>
      cases sown
      exact ⟨tree, .nil, by rw [BinTree.addrs_nil, List.length_nil, Nat.zero_add]; rfl, filled_nil⟩
  | node source data left right leftIH rightIH =>
      rcases sown with ⟨leaf, rfl, inside, found⟩
      rcases holds with ⟨isSource, leftHolds, rightHolds⟩
      have parts := nodup
      rw [BinTree.addrs, List.nodup_cons, List.nodup_append] at parts
      rcases parts with ⟨top, leftNodup, rightNodup, apart⟩
      rcases copyChild_spec .left isSource rfl leftHolds found rfl inside pending with
        ⟨one, leftLink, leftPut, leftSown⟩
      have unequal : ∀ query ∈ BinTree.addrs (.node source data left right), query ≠ leaf := by
        intro query member same
        exact (old query member).2 (congrArg some same)
      have oneKept : ∀ query ∈ BinTree.addrs (.node source data left right),
          one.cells query = tree.cells query := fun query member =>
        leftSown.kept query (old query member).1 (unequal query member)
      have isTop := @List.mem_cons_self _ source (left.addrs ++ right.addrs)
      have isLeft : ∀ query ∈ left.addrs, query ∈ BinTree.addrs (.node source data left right) :=
        fun query member => List.mem_cons_of_mem _ (List.mem_append_left _ member)
      have isRight : ∀ query ∈ right.addrs,
          query ∈ BinTree.addrs (.node source data left right) :=
        fun query member => List.mem_cons_of_mem _ (List.mem_append_right _ member)
      rcases copyChild_spec .right ((oneKept source isTop).trans isSource) rfl
        (rightHolds.congr fun query member => oneKept query (isRight query member))
        (leftSown.cell _ found rfl) rfl (Nat.lt_of_lt_of_le inside leftSown.later)
        (pendingOf left leftLink ++ pending) with ⟨two, rightLink, rightPut, rightSown⟩
      have twoOld : ∀ query ∈ BinTree.addrs (.node source data left right),
          query < one.next := fun query member =>
        Nat.lt_of_lt_of_le (old query member).1 leftSown.later
      have twoKept : ∀ query ∈ BinTree.addrs (.node source data left right),
          two.cells query = tree.cells query := by
        intro query member
        rw [rightSown.kept query (twoOld query member) (unequal query member),
          oneKept query member]
      have notRight : ∀ query, query < one.next → some query ≠ rightLink := by
        intro query within same
        exact Nat.not_lt_of_le ((rightSown.range query).mp same).1 within
      rcases rightIH two rightLink (some leaf) (some source) (left.addrs.length + fuel)
        (pendingOf left leftLink ++ pending) rightSown.sown
        (rightHolds.congr fun query member => twoKept query (isRight query member)) rightNodup
        (fun query member => ⟨Nat.lt_of_lt_of_le (twoOld query (isRight query member))
          rightSown.later, notRight query (twoOld query (isRight query member))⟩) with
        ⟨three, rightTwin, rightRan, rightFilled⟩
      have threeKept : ∀ query, query < one.next → query ≠ leaf →
          three.cells query = one.cells query := by
        intro query within other
        rw [rightFilled.kept query (Nat.lt_of_lt_of_le within rightSown.later)
          (notRight query within), rightSown.kept query within other]
      have later : one.next ≤ three.next := Nat.le_trans rightSown.later rightFilled.later
      have leftStill : Sown three leftLink (some leaf) left := by
        apply leftSown.sown.congr later
        intro query isLink within
        apply threeKept query within
        rintro rfl
        exact Nat.not_lt_of_le ((leftSown.range query).mp isLink).1 inside
      rcases leftIH three leftLink (some leaf) (some source) fuel pending leftStill
        (leftHolds.congr fun query member => (threeKept query (twoOld query (isLeft query member))
          (unequal query (isLeft query member))).trans (oneKept query (isLeft query member)))
        leftNodup (fun query member => ⟨Nat.lt_of_lt_of_le (twoOld query (isLeft query member))
          later, fun same => Nat.not_lt_of_le ((leftSown.range query).mp same).1
            (old query (isLeft query member)).1⟩) with
        ⟨after, leftTwin, leftRan, leftFilled⟩
      refine ⟨after, .node leaf data leftTwin rightTwin, ?_,
        filled_of_sown leftSown rightSown rightFilled leftFilled inside found⟩
      have count : (BinTree.node source data left right).addrs.length + fuel =
          right.addrs.length + (left.addrs.length + fuel) + 1 := by
        simp only [BinTree.addrs, List.length_cons, List.length_append]
        omega
      rw [← leftRan, ← rightRan, count]
      show copyLoop _ tree ((source, leaf) :: pending) = _
      simp only [copyLoop, leftPut, rightPut, Option.bind_eq_bind, Option.bind_some]

end Loop

section Copy

variable {tree memory : RedBlackTree Value} {shape twin : BinTree (RbNodeData Value)}

/-- The copy of a tree is a tree of its own that duplicates it. -/
theorem copy_spec (represents : Represents tree shape) :
    ∃ memory twin, copy tree = some memory ∧ Copied tree memory shape twin := by
  cases shape with
  | nil =>
      have root : tree.root = none := represents.root
      exact ⟨_, .nil, by rw [copy, root], copied_nil represents⟩
  | node address data left right =>
      have root : tree.root = some address := represents.root
      rcases represents.sowRoot with ⟨sown, holds, old⟩
      have length := represents.length_le
      have enough : (BinTree.node address data left right).addrs.length ≤ tree.bound :=
        Nat.le_trans (Nat.le_trans (Nat.le_add_right ..) length) (Nat.le_succ _)
      rcases copyLoop_spec (.node address data left right) (tree.sowRoot data) (some tree.next) none
        none (tree.bound - (BinTree.node address data left right).addrs.length) [] sown holds
        represents.focus_nodup old with ⟨memory, twin, ran, filled⟩
      refine ⟨memory, twin, ?_, copied_of_filled represents filled⟩
      rw [Nat.add_sub_cancel' enough, List.append_nil] at ran
      have started : copy tree = copyLoop tree.bound (tree.sowRoot data)
          (pendingOf (.node address data left right) (some tree.next)) := by
        simp only [copy, root, Store.read_eq represents.focus.1, Option.bind_eq_bind,
          Option.bind_some]
        rfl
      rw [started, ran]
      cases tree.bound - (BinTree.node address data left right).addrs.length <;> rfl

theorem treeColor_alike (alike : shape.Alike twin) : treeColor twin = treeColor shape := by
  cases alike <;> rfl

theorem Balanced.alike {count : Nat} (balanced : Balanced shape count)
    (alike : shape.Alike twin) : Balanced twin count := by
  induction alike generalizing count with
  | nil => exact balanced
  | @node address other info left right _ _ leftAlike rightAlike leftIH rightIH =>
      rw [Balanced] at balanced ⊢
      cases color : info.memberColor with
      | red =>
          rw [color] at balanced
          rcases balanced with ⟨leftBlack, rightBlack, leftBalanced, rightBalanced⟩
          exact ⟨(treeColor_alike leftAlike).trans leftBlack,
            (treeColor_alike rightAlike).trans rightBlack, leftIH leftBalanced,
            rightIH rightBalanced⟩
      | black =>
          rw [color] at balanced
          rcases balanced with ⟨below, one, leftBalanced, rightBalanced⟩
          exact ⟨below, one, leftIH leftBalanced, rightIH rightBalanced⟩

variable {element : Value → Key} {functionPolicy : Key → Key → Bool}
variable {map : OrderedMap element functionPolicy}

/-- The copy of a valid tree stands for the same map. -/
theorem Valid.copy (valid : Valid tree map) :
    ∃ memory, copy tree = some memory ∧ (∃ twin, tree.Duplicates memory twin) ∧
      Valid (memory.beyond tree.next) map := by
  rcases valid.shaped with ⟨shape, represents, ⟨black, count, balanced⟩, implements⟩
  rcases copy_spec represents with ⟨memory, twin, done, copied⟩
  refine ⟨memory, done, copied.duplicates, twin, copied.represents,
    ⟨(treeColor_alike copied.alike).trans black, count, balanced.alike copied.alike⟩, ?_⟩
  rw [Implements, copied.alike.values]
  exact implements

/-- Every reachable tree stands for a map. -/
theorem Reachable.valid [StrictWeak functionPolicy]
    (reachable : Reachable element functionPolicy tree) :
    ∃ map : OrderedMap element functionPolicy, Valid tree map := by
  induction reachable with
  | empty => exact ⟨.empty, valid_empty⟩
  | @perform tree next operation answer _ performed ih =>
      rcases ih with ⟨map, valid⟩
      rcases perform_spec operation valid with ⟨other, done, kept⟩
      rw [performed] at done
      cases done
      exact ⟨_, kept⟩
  | @copy tree memory _ copied ih =>
      rcases ih with ⟨map, valid⟩
      rcases valid.copy with ⟨other, done, _, kept⟩
      rw [copied] at done
      cases done
      exact ⟨map, kept⟩

end Copy

end Wan.Container.RedBlackTree
