import Wan.Container.BalanceTree.Run
import Wan.Container.BinaryTree.Run
import Wan.Container.RedBlackTree.Run
import Wan.Library.LinkedTree.Traversal

/-!
# Printing the trees

`MiddleOrderTraversal` and `PreOrderTraversal` of the three trees.  The bodies are the same in the
source: two loops over a `Stack` of nodes that write `MemberData` and a blank to the standard
output.  The text that the stream operator writes for an element is a parameter.
-/

namespace Wan.Container

open Wan.Library Wan.Library.LinkedTree

/-- `std::cout << MemberData << " "` after what is printed already. -/
def output {V : Type} (write : V → List Char) (printed : List Char) (memberData : V) : List Char :=
  printed ++ (write memberData ++ [' '])

/-- The common body of the three `InteriorMiddleOrderTraversal`. -/
def printMiddleOrder {V : Type} (nodes : Nodes V) (write : V → List Char) (bound : Nat)
    (rootSubtreeNode : Option Addr) : Option (List Char) :=
  middleOrder nodes (output write) bound bound rootSubtreeNode [] []

/-- The common body of the three `InteriorPreOrderTraversal`. -/
def printPreOrder {V : Type} (nodes : Nodes V) (write : V → List Char) (bound : Nat)
    (rootSubtreeNode : Option Addr) : Option (List Char) :=
  match rootSubtreeNode with
  | none => some []
  | some referenceNode => preOrder nodes (output write) bound [referenceNode] []

namespace BinaryTree

variable {Value : Type} (write : Value → List Char) (tree : BinaryTree Value)

/-- `MemberData`, `MemberLeft` and `MemberRight` of a node. -/
def fields : Nodes Value := fun node => do
  let node ← tree.read node
  return (node.memberData, node.memberLeft, node.memberRight)

/-- `BinaryTree::MiddleOrderTraversal`. -/
def middleOrderTraversal : Option (List Char) :=
  printMiddleOrder tree.fields write tree.bound tree.memberRoot

/-- `BinaryTree::PreOrderTraversal`. -/
def preOrderTraversal : Option (List Char) :=
  printPreOrder tree.fields write tree.bound tree.memberRoot

end BinaryTree

namespace BalanceTree

variable {Key Value : Type} (write : Key × Value → List Char) (tree : BalanceTree Key Value)

/-- `MemberData`, `MemberLeft` and `MemberRight` of a node. -/
def fields : Nodes (Key × Value) := fun node => do
  let cell ← tree.read node
  return (cell.info.memberData, cell.left, cell.right)

/-- `BalanceTree::MiddleOrderTraversal`. -/
def middleOrderTraversal : Option (List Char) :=
  printMiddleOrder (fields tree) write tree.bound tree.root

/-- `BalanceTree::PreOrderTraversal`. -/
def preOrderTraversal : Option (List Char) :=
  printPreOrder (fields tree) write tree.bound tree.root

end BalanceTree

namespace RedBlackTree

variable {Value : Type} (write : Value → List Char) (tree : RedBlackTree Value)

/-- `MemberData`, `MemberLeft` and `MemberRight` of a node. -/
def fields : Nodes Value := fun node => do
  let cell ← tree.read node
  return (cell.info.memberData, cell.left, cell.right)

/-- `RedBlackTree::MiddleOrderTraversal`. -/
def middleOrderTraversal : Option (List Char) :=
  printMiddleOrder (fields tree) write tree.bound tree.root

/-- `RedBlackTree::PreOrderTraversal`. -/
def preOrderTraversal : Option (List Char) :=
  printPreOrder (fields tree) write tree.bound tree.root

end RedBlackTree

section Orders

variable {V : Type}

/-- The values below a link, from left to right. -/
inductive MiddleOrder (nodes : Nodes V) : Option Addr → List V → Prop where
  | null : MiddleOrder nodes none []
  | node {address : Addr} {data : V} {left right : Option Addr} {smaller larger : List V}
      (found : nodes address = some (data, left, right))
      (leftOrder : MiddleOrder nodes left smaller) (rightOrder : MiddleOrder nodes right larger) :
      MiddleOrder nodes (some address) (smaller ++ data :: larger)

/-- The values below a link, each before those of its subtrees. -/
inductive PreOrder (nodes : Nodes V) : Option Addr → List V → Prop where
  | null : PreOrder nodes none []
  | node {address : Addr} {data : V} {left right : Option Addr} {smaller larger : List V}
      (found : nodes address = some (data, left, right))
      (leftOrder : PreOrder nodes left smaller) (rightOrder : PreOrder nodes right larger) :
      PreOrder nodes (some address) (data :: (smaller ++ larger))

/-- The text for a list of values: a blank after each of them. -/
def textOf (write : V → List Char) (values : List V) : List Char :=
  values.flatMap fun data => write data ++ [' ']

theorem foldl_output (write : V → List Char) (values : List V) (printed : List Char) :
    values.foldl (output write) printed = printed ++ textOf write values := by
  induction values generalizing printed with
  | nil => exact (List.append_nil _).symm
  | cons data values ih =>
      rw [List.foldl_cons, ih, output, textOf, textOf, List.flatMap_cons, List.append_assoc]

variable {α : Type} [Payload α V] {nodes : Nodes V} {tree : BinTree α}

theorem middleOrder_of_seen (seen : tree.Seen nodes) :
    MiddleOrder nodes tree.root tree.middleValues := by
  induction tree with
  | nil => exact .null
  | node address info left right leftIH rightIH =>
      obtain ⟨found, leftSeen, rightSeen⟩ := seen
      rw [BinTree.middleValues_node]
      exact .node found (leftIH leftSeen) (rightIH rightSeen)

theorem preOrder_of_seen (seen : tree.Seen nodes) :
    PreOrder nodes tree.root tree.preValues := by
  induction tree with
  | nil => exact .null
  | node address info left right leftIH rightIH =>
      obtain ⟨found, leftSeen, rightSeen⟩ := seen
      rw [BinTree.preValues_node]
      exact .node found (leftIH leftSeen) (rightIH rightSeen)

end Orders

/-- What the two traversals print when the tree below a link holds some values in order. -/
structure Prints {V : Type} (nodes : Nodes V) (root : Option Addr) (write : V → List Char)
    (values : List V) (middle pre : Option (List Char)) : Prop where
  ordered : MiddleOrder nodes root values
  middle : middle = some (textOf write values)
  pre : ∃ order, PreOrder nodes root order ∧ order.Perm values ∧ pre = some (textOf write order)

/-- Both traversals of a tree whose nodes are in place print what they should. -/
theorem prints_of_seen {α V : Type} [Payload α V] {nodes : Nodes V} {tree : BinTree α}
    {bound : Nat} (write : V → List Char) (seen : tree.Seen nodes)
    (small : tree.addrs.length < bound) :
    Prints nodes tree.root write tree.middleValues (printMiddleOrder nodes write bound tree.root)
      (printPreOrder nodes write bound tree.root) := by
  refine ⟨middleOrder_of_seen seen, ?_, tree.preValues, preOrder_of_seen seen,
    tree.preValues_perm, ?_⟩
  · rw [printMiddleOrder, middleOrder_eq (output write) [] seen small, foldl_output,
      List.nil_append]
  · have visited := preOrder_eq (output write) [] seen small
    rw [foldl_output, List.nil_append] at visited
    cases tree with
    | nil => rfl
    | node address info left right => exact visited

/-- The cells of a store are nodes of the traversal. -/
theorem seen_of_holds {α V : Type} [Payload α V] {cells : Addr → Option (Cell α)}
    {nodes : Nodes V} {tree : BinTree α} {parent : Option Addr}
    (agree : ∀ {address : Addr} {cell : Cell α}, cells address = some cell →
      nodes address = some (Payload.value cell.info, cell.left, cell.right))
    (holds : tree.Holds cells parent) : tree.Seen nodes := by
  induction tree generalizing parent with
  | nil => trivial
  | node address info left right leftIH rightIH =>
      obtain ⟨found, leftHolds, rightHolds⟩ := holds
      exact ⟨agree found, leftIH leftHolds, rightIH rightHolds⟩

/-- A represented tree fits into the bound of its loops. -/
theorem bound_of_represents {α : Type} {store : Store α} {tree : BinTree α}
    (represents : Represents store tree) : tree.addrs.length < store.bound := by
  have length := represents.length_le
  unfold Store.bound
  omega

theorem BinaryTree.prints {Value : Type} {functionPolicy : Value → Value → Bool}
    {tree : BinaryTree Value} {set : ElementSet functionPolicy} (write : Value → List Char)
    (valid : Valid tree set) :
    Prints tree.fields tree.memberRoot write set.toList (tree.middleOrderTraversal write)
      (tree.preOrderTraversal write) := by
  obtain ⟨store, shape, rfl, represents, implements⟩ := valid.stored
  have seen : shape.Seen (erase store).fields := by
    refine seen_of_holds (fun {address cell} found => ?_) represents.focus
    rw [fields, erase_read found]
    rfl
  have root : (erase store).memberRoot = shape.root := represents.root
  rw [middleOrderTraversal, preOrderTraversal, root, implements]
  exact prints_of_seen write seen (bound_of_represents represents)

theorem BalanceTree.prints {Key Value : Type} {functionPolicy : Key → Key → Bool}
    {tree : BalanceTree Key Value} {map : PairMap Value functionPolicy}
    (write : Key × Value → List Char) (valid : Valid tree map) :
    Prints (fields tree) tree.root write map.toList (middleOrderTraversal write tree)
      (preOrderTraversal write tree) := by
  obtain ⟨shape, represents, _, implements⟩ := valid.shaped
  have seen : shape.Seen (fields tree) := by
    refine seen_of_holds (fun {address cell} found => ?_) represents.focus
    rw [fields, Store.read_eq found]
    rfl
  have root : tree.root = shape.root := represents.root
  rw [middleOrderTraversal, preOrderTraversal, root, implements]
  exact prints_of_seen write seen (bound_of_represents represents)

theorem RedBlackTree.prints {Key Value : Type} {element : Value → Key}
    {functionPolicy : Key → Key → Bool} {tree : RedBlackTree Value}
    {map : OrderedMap element functionPolicy} (write : Value → List Char)
    (valid : Valid tree map) :
    Prints (fields tree) tree.root write map.toList (middleOrderTraversal write tree)
      (preOrderTraversal write tree) := by
  obtain ⟨shape, represents, _, implements⟩ := valid.shaped
  have seen : shape.Seen (fields tree) := by
    refine seen_of_holds (fun {address cell} found => ?_) represents.focus
    rw [fields, Store.read_eq found]
    rfl
  have root : tree.root = shape.root := represents.root
  rw [middleOrderTraversal, preOrderTraversal, root, implements]
  exact prints_of_seen write seen (bound_of_represents represents)

section Runs

variable {Key Value : Type} (element : Value → Key) (functionPolicy : Key → Key → Bool)
variable [StrictWeak functionPolicy]

/-- After any sequence of operations each of the three trees prints its elements in order of the
comparator, once each, and in pre-order the same elements in the order of its links; the AVL and
the red-black tree print in order what an iteration from `Begin` to `End` meets. -/
theorem traversals_print_elements (writePair : Key × Value → List Char)
    (writeKey : Key → List Char) (writeValue : Value → List Char) :
    (∀ (tree : BinaryTree Key) (set : BinaryTree.ElementSet functionPolicy),
      BinaryTree.Reached tree set →
      (set.toList.Pairwise fun v w => functionPolicy v w = true) ∧
      Prints tree.fields tree.memberRoot writeKey set.toList (tree.middleOrderTraversal writeKey)
        (tree.preOrderTraversal writeKey)) ∧
    (∀ operations : List (BalanceTree.Operation Key Value), ∃ tree answers values,
      BalanceTree.run functionPolicy .empty operations = some (tree, answers) ∧
      BalanceTree.forward tree = some values ∧
      (values.Pairwise fun v w => functionPolicy v.1 w.1 = true) ∧
      Prints (BalanceTree.fields tree) tree.root writePair values
        (BalanceTree.middleOrderTraversal writePair tree)
        (BalanceTree.preOrderTraversal writePair tree)) ∧
    (∀ operations : List (RedBlackTree.Operation Key Value), ∃ tree answers values,
      RedBlackTree.run element functionPolicy .empty operations = some (tree, answers) ∧
      RedBlackTree.forward tree = some values ∧
      (values.Pairwise fun v w => functionPolicy (element v) (element w) = true) ∧
      Prints (RedBlackTree.fields tree) tree.root writeValue values
        (RedBlackTree.middleOrderTraversal writeValue tree)
        (RedBlackTree.preOrderTraversal writeValue tree)) := by
  refine ⟨fun tree set reached => ?_, fun operations => ?_, fun operations => ?_⟩
  · exact ⟨set.sorted, BinaryTree.prints writeKey (BinaryTree.coupled_of_reaches reached)⟩
  · have empty : BalanceTree.Valid (.empty : BalanceTree Key Value)
        (.empty : BalanceTree.PairMap Value functionPolicy) := BalanceTree.valid_empty
    obtain ⟨tree, performed, valid⟩ := BalanceTree.run_spec operations empty
    exact ⟨tree, _, _, performed, BalanceTree.forward_spec valid, OrderedMap.sorted _,
      BalanceTree.prints writePair valid⟩
  · have empty : RedBlackTree.Valid (.empty : RedBlackTree Value)
        (.empty : OrderedMap element functionPolicy) := RedBlackTree.valid_empty
    obtain ⟨tree, performed, valid⟩ := RedBlackTree.run_spec operations empty
    exact ⟨tree, _, _, performed, RedBlackTree.forward_spec valid, OrderedMap.sorted _,
      RedBlackTree.prints writeValue valid⟩

end Runs

/-- Numbers are pushed into each of the trees, and one is taken out again. -/
theorem traversals_print_elements_nat :
    let print := Nat.toDigits 10
    let printPair := fun pair : Nat × Nat => print pair.1 ++ ':' :: print pair.2
    (∃ (tree : BinaryTree Nat) (set : BinaryTree.ElementSet less), BinaryTree.Reached tree set ∧
      (set.toList.Pairwise fun v w => less v w = true) ∧
      Prints tree.fields tree.memberRoot print set.toList (tree.middleOrderTraversal print)
        (tree.preOrderTraversal print)) ∧
    (∃ (tree : BalanceTree Nat Nat) (values : List (Nat × Nat)),
      BalanceTree.forward tree = some values ∧ values = [(2, 0), (5, 1), (16, 3)] ∧
      Prints (BalanceTree.fields tree) tree.root printPair values
        (BalanceTree.middleOrderTraversal printPair tree)
        (BalanceTree.preOrderTraversal printPair tree)) ∧
    ∃ (tree : RedBlackTree Nat) (values : List Nat),
      RedBlackTree.forward tree = some values ∧ values = [2, 5, 16] ∧
      Prints (RedBlackTree.fields tree) tree.root print values
        (RedBlackTree.middleOrderTraversal print tree)
        (RedBlackTree.preOrderTraversal print tree) := by
  intro print printPair
  have printed := @traversals_print_elements Nat Nat id less _ printPair print print
  refine ⟨?_, ?_, ?_⟩
  · let operations : List (BinaryTree.Operation (Argument Nat)) :=
      [.push (.value 4), .push (.value 2), .push (.value 16), .push (.value 5), .pop (.element 0)]
    have ran : (operations.foldlM (Machine.meetingStep BinaryTree.turn fun _ _ => True)
        ((BinaryTree.empty, OrderedMap.empty) :
          BinaryTree Nat × BinaryTree.ElementSet less)).isSome := by decide
    obtain ⟨⟨tree, set⟩, run⟩ := Option.isSome_iff_exists.mp ran
    have reached : BinaryTree.Reached tree set := Machine.reaches_of_meeting operations run
    exact ⟨tree, set, reached, printed.1 tree set reached⟩
  · let operations : List (BalanceTree.Operation Nat Nat) :=
      [.push (4, 2), .push (2, 0), .push (16, 3), .push (5, 1), .pop 4]
    obtain ⟨tree, answers, values, run, met, -, prints⟩ := printed.2.1 operations
    have left : ((BalanceTree.run less .empty operations).bind fun ended =>
        BalanceTree.forward ended.1) = some [(2, 0), (5, 1), (16, 3)] := by decide +kernel
    rw [run, Option.bind_some, met] at left
    exact ⟨tree, values, met, Option.some.inj left, prints⟩
  · let operations : List (RedBlackTree.Operation Nat Nat) :=
      [.push 4, .push 2, .push 16, .push 5, .popKey 4]
    obtain ⟨tree, answers, values, run, met, -, prints⟩ := printed.2.2 operations
    have left : ((RedBlackTree.run id less .empty operations).bind fun ended =>
        RedBlackTree.forward ended.1) = some [2, 5, 16] := by decide +kernel
    rw [run, Option.bind_some, met] at left
    exact ⟨tree, values, met, Option.some.inj left, prints⟩

end Wan.Container
