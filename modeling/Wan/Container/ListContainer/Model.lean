import Wan.Library.Program
import Wan.Library.Ring

/-!
# The list of `Container/List.hpp`

`List` as programs over nodes in memory and the fields of one list.  Each `new` yields a
dead 64-bit address, which may have been in use before, or raises, because the memory is
exhausted or the copy of an element throws.  Moving and destroying elements does not
throw.  Null or dangling accesses have no behaviour, nor has the element of a sentinel.
-/

namespace Wan.Container

open Wan.Library Wan.Library.LinkedList

/-- The fields of a `List`. -/
structure ListContainer where
  memberHead : Option Addr
  memberSize : UInt64
  deriving DecidableEq, Repr

namespace ListContainer

/-- `ListContainerNode`; a `ListNodeBase` has no element. -/
structure ListContainerNode (V : Type) where
  memberPrev : Option Addr
  memberNext : Option Addr
  memberData : Option V
  deriving DecidableEq, Repr

/-- `ListIterator`. -/
structure ListIterator where
  memberNode : Option Addr
  memberOwner : Option Addr
  deriving DecidableEq, Repr

/-- The live nodes. -/
abbrev Nodes (V : Type) := Addr → Option (ListContainerNode V)

/-- What lists depend on. -/
structure Environment (V : Type) where
  /-- What is left of an element when it was moved. -/
  moved : V → V
  /-- Where a `new` puts its node, if it does not raise. The requests are counted. -/
  place : Nat → Nodes V → Option Addr
  dead : ∀ {requests nodes address}, place requests nodes = some address → nodes address = none
  bounded : ∀ {requests nodes address}, place requests nodes = some address → address < 2 ^ 64

/-- What a call may raise. -/
inductive Fault where
  /-- `std::invalid_argument`. -/
  | invalidArgument (what : String)
  /-- Raised by a `new` expression. -/
  | raised
  deriving DecidableEq, Repr

/-- What a member function works on: the nodes, the number of requests for memory and the
fields of `*this`. -/
structure State (V : Type) where
  nodes : Nodes V
  requests : Nat
  self : ListContainer

/-- A member function. -/
abbrev Method (V α : Type) := Program (State V) Fault α

/-- What a reference parameter refers to: an object outside of all lists, or the element of
a node. -/
inductive Reference (V : Type) where
  | outside (value : V)
  | element (node : Addr)
  deriving DecidableEq, Repr

/-- The overload that takes an element: `const ListType &` or `ListType &&`. -/
inductive Passing where
  | copy
  | move
  deriving DecidableEq, Repr

variable {V : Type} (environment : Environment V)

/-- What is left of an element that was taken. -/
def Passing.remains : Passing → V → V
  | .copy => id
  | .move => environment.moved

section Primitives

/-- Assign to fields of `*this`. -/
def modifySelf (change : ListContainer → ListContainer) : Method V Unit :=
  modify fun state => { state with self := change state.self }

/-- Let an address hold a node, or none. -/
def put (address : Addr) (node : Option (ListContainerNode V)) : Method V Unit :=
  modify fun state => { state with nodes := Function.update state.nodes address node }

/-- Follow a pointer. -/
def follow : Option Addr → Method V Addr
  | some address => pure address
  | none => Program.stuck

/-- Read a node. -/
def read (pointer : Option Addr) : Method V (ListContainerNode V) := do
  let address ← follow pointer
  match (← get).nodes address with
  | some node => pure node
  | none => Program.stuck

/-- Assign to fields of a node. -/
def write (pointer : Option Addr) (change : ListContainerNode V → ListContainerNode V) :
    Method V Unit := do
  let address ← follow pointer
  let node ← read pointer
  put address (some (change node))

/-- `delete`. -/
def delete (pointer : Option Addr) : Method V Unit := do
  let address ← follow pointer
  let _ ← read pointer
  put address none

/-- The address of a `new`. -/
def allocate : Method V Addr := do
  let state ← get
  set { state with requests := state.requests + 1 }
  Program.require .raised (environment.place state.requests state.nodes)

/-- `*` of an iterator. -/
def element (node : Addr) : Method V V := do
  match (← read (some node)).memberData with
  | some value => pure value
  | none => Program.stuck

/-- Initialize an element from a reference. -/
def Reference.take : Passing → Reference V → Method V V
  | _, .outside value => pure value
  | .copy, .element node => ListContainer.element node
  | .move, .element node => do
      let value ← ListContainer.element node
      write (some node) fun cell => { cell with memberData := some (environment.moved value) }
      return value

/-- `new ContainerNode`. -/
def newContainerNode (passing : Passing) (value : Reference V) : Method V Addr := do
  let node ← allocate environment
  let value ← value.take environment passing
  put node (some ⟨none, none, some value⟩)
  return node

/-- `new ListNodeBase`, linked to itself. -/
def newHead : Method V Addr := do
  let head ← allocate environment
  put head (some ⟨none, none, none⟩)
  write (some head) fun node => { node with memberPrev := some head }
  write (some head) fun node => { node with memberNext := some head }
  return head

end Primitives

section Iterators

/-- `Begin` and `Cbegin`. -/
def beginIterator : Method V ListIterator := do
  let state ← get
  let head ← read state.self.memberHead
  return ⟨head.memberNext, state.self.memberHead⟩

/-- `End` and `Cend`. -/
def endIterator : Method V ListIterator := do
  let state ← get
  return ⟨state.self.memberHead, state.self.memberHead⟩

/-- Follow a link of the current node, if there is one. -/
def ListIterator.follow (link : ListContainerNode V → Option Addr) (iterator : ListIterator) :
    Method V ListIterator :=
  match iterator.memberNode with
  | some _ => do
      let node ← read iterator.memberNode
      return { iterator with memberNode := link node }
  | none => return iterator

/-- `++` of an iterator. -/
def ListIterator.increment : ListIterator → Method V ListIterator :=
  ListIterator.follow (·.memberNext)

/-- `--` of an iterator. -/
def ListIterator.decrement : ListIterator → Method V ListIterator :=
  ListIterator.follow (·.memberPrev)

end Iterators

section Elements

/-- `Empty`. -/
def empty : Method V Bool := do
  let state ← get
  let head ← read state.self.memberHead
  return head.memberNext == state.self.memberHead

/-- `Front`. -/
def front : Method V V := do
  let state ← get
  let head ← read state.self.memberHead
  element (← follow head.memberNext)

/-- `Back`. -/
def back : Method V V := do
  let state ← get
  let head ← read state.self.memberHead
  element (← follow head.memberPrev)

/-- `Insert`, of which the overloads differ in how the new node takes the element only. -/
def insert (iteratorPosition : ListIterator) (passing : Passing) (value : Reference V) :
    Method V ListIterator := do
  let state ← get
  Program.refuse
    (iteratorPosition.memberNode = none ∨ iteratorPosition.memberOwner ≠ state.self.memberHead)
    (.invalidArgument "list insertion iterator does not belong to this list")
  let newNode ← newContainerNode environment passing value
  let currentNode := iteratorPosition.memberNode
  let current ← read currentNode
  write (some newNode) fun node => { node with memberPrev := current.memberPrev }
  write (some newNode) fun node => { node with memberNext := currentNode }
  let linked ← read (some newNode)
  write linked.memberPrev fun node => { node with memberNext := some newNode }
  write currentNode fun node => { node with memberPrev := some newNode }
  modifySelf fun self => { self with memberSize := self.memberSize + 1 }
  return ⟨some newNode, state.self.memberHead⟩

/-- `PushBack`. -/
def pushBack (passing : Passing) (value : Reference V) : Method V Unit := do
  let position ← endIterator
  let _ ← insert environment position passing value

/-- `PushFront`. -/
def pushFront (passing : Passing) (value : Reference V) : Method V Unit := do
  let position ← beginIterator
  let _ ← insert environment position passing value

/-- `Erase`. -/
def erase (iteratorPosition : ListIterator) : Method V ListIterator := do
  let state ← get
  Program.refuse
    (iteratorPosition.memberOwner ≠ state.self.memberHead ∨ iteratorPosition.memberNode = none)
    (.invalidArgument "list erase iterator does not belong to this list")
  if iteratorPosition.memberNode = state.self.memberHead then
    endIterator
  else
    let deleteNode := iteratorPosition.memberNode
    let node ← read deleteNode
    let nextElementNode := node.memberNext
    write node.memberPrev fun previous => { previous with memberNext := nextElementNode }
    let node ← read deleteNode
    write node.memberNext fun next => { next with memberPrev := node.memberPrev }
    delete deleteNode
    modifySelf fun self => { self with memberSize := self.memberSize - 1 }
    return ⟨nextElementNode, state.self.memberHead⟩

/-- `PopBack`. -/
def popBack : Method V Unit := do
  if ← empty then
    return ()
  else
    let last ← endIterator
    let last ← last.decrement
    let _ ← erase last

/-- `PopFront`. -/
def popFront : Method V ListIterator := do
  if ← empty then
    endIterator
  else
    let state ← get
    let head ← read state.self.memberHead
    let deleteNode := head.memberNext
    let node ← read deleteNode
    let nextNode := node.memberNext
    write state.self.memberHead fun head => { head with memberNext := nextNode }
    write nextNode fun next => { next with memberPrev := state.self.memberHead }
    modifySelf fun self => { self with memberSize := self.memberSize - 1 }
    delete deleteNode
    return ⟨nextNode, state.self.memberHead⟩

/-- Do something a number of times. -/
def repeatedly (body : Method V Unit) : Nat → Method V Unit
  | 0 => return ()
  | count + 1 => do
      body
      repeatedly body count

/-- `Resize`: its loops count between the two sizes. -/
def resize (newContainerSize : UInt64) (value : Reference V) : Method V Unit := do
  let state ← get
  let containerSize := state.self.memberSize
  if newContainerSize ≤ containerSize then
    repeatedly popBack (containerSize.toNat - newContainerSize.toNat)
  else
    repeatedly (pushBack environment .copy value) (newContainerSize.toNat - containerSize.toNat)

/-- More than the nodes of any list. -/
def addressSpace : Nat := 2 ^ 64

/-- The loop of `Clear`. -/
def clearFrom (head : Option Addr) : Nat → Option Addr → Method V Unit
  | 0, _ => Program.stuck
  | fuel + 1, currentNode =>
      if currentNode = head then
        return ()
      else do
        let current ← read currentNode
        write head fun node => { node with memberNext := current.memberNext }
        delete currentNode
        let node ← read head
        clearFrom head fuel node.memberNext

/-- `Clear`. -/
def clear : Method V Unit := do
  let state ← get
  match state.self.memberHead with
  | none => return ()
  | some address => do
      let head ← read (some address)
      clearFrom (some address) addressSpace head.memberNext
      write (some address) fun node => { node with memberPrev := some address }
      write (some address) fun node => { node with memberNext := some address }
      modifySelf fun self => { self with memberSize := 0 }

end Elements

section Lists

/-- The loops over a range that push back every element. -/
def appendRange : Nat → ListIterator → ListIterator → Method V Unit
  | 0, _, _ => Program.stuck
  | fuel + 1, first, last =>
      if first = last then
        return ()
      else do
        let node ← follow first.memberNode
        pushBack environment .copy (.element node)
        let next ← first.increment
        appendRange fuel next last

/-- The loops over an initializer list. -/
def pushValues : List V → Method V Unit
  | [] => return ()
  | value :: values => do
      pushBack environment .copy (.outside value)
      pushValues values

/-- Run a member function on another list. -/
def onList {α : Type} (list : ListContainer) (method : Method V α) :
    Method V (α × ListContainer) := do
  let self := (← get).self
  modifySelf fun _ => list
  let result ← Program.guarded method (modifySelf fun _ => self)
  let list := (← get).self
  modifySelf fun _ => self
  return (result, list)

/-- `Cbegin` of another list. -/
def beginOf (list : ListContainer) : Method V ListIterator := do
  let head ← read list.memberHead
  return ⟨head.memberNext, list.memberHead⟩

/-- `Cend` of another list. -/
def endOf (list : ListContainer) : ListIterator := ⟨list.memberHead, list.memberHead⟩

/-- The default constructor, with `CreateHead`. -/
def construct : Method V Unit := do
  let head ← newHead environment
  modifySelf fun _ => ⟨some head, 0⟩

/-- The destructor, and `CleanupFailedConstruction`. -/
def destruct : Method V Unit := do
  let state ← get
  match state.self.memberHead with
  | none => return ()
  | some head => do
      clear
      delete (some head)
      modifySelf fun self => { self with memberHead := none }

/-- The copy constructor. -/
def copyConstruct (list : ListContainer) : Method V Unit := do
  construct environment
  Program.guarded
    (do
      let first ← beginOf list
      appendRange environment addressSpace first (endOf list))
    destruct

/-- The constructor from an initializer list. -/
def constructValues (values : List V) : Method V Unit := do
  construct environment
  Program.guarded (pushValues environment values) destruct

/-- The move constructor, which yields what it leaves behind. -/
def moveConstruct (list : ListContainer) : Method V ListContainer := do
  let replacementHead ← newHead environment
  modifySelf fun _ => list
  return ⟨some replacementHead, 0⟩

/-- Copy assignment of another list: swap with a copy, and destroy what was there before. -/
def copyAssign (list : ListContainer) : Method V Unit := do
  let (_, copy) ← onList ⟨none, 0⟩ (copyConstruct environment list)
  let old := (← get).self
  modifySelf fun _ => copy
  let _ ← onList old destruct

/-- Assignment of an initializer list, whose elements cannot be moved. -/
def assignValues (values : List V) : Method V Unit := do
  clear
  pushValues environment values

/-- Move assignment of another list, which yields what it leaves behind. -/
def moveAssign (list : ListContainer) : Method V ListContainer := do
  let replacementHead ← newHead environment
  clear
  delete (← get).self.memberHead
  modifySelf fun _ => list
  return ⟨some replacementHead, 0⟩

/-- `operator+=` with another list. -/
def append (list : ListContainer) : Method V Unit := do
  let first ← beginOf list
  appendRange environment addressSpace first (endOf list)

/-- `operator+=` with the list itself: append a copy and destroy it. -/
def appendSelf : Method V Unit := do
  let self := (← get).self
  let (_, copy) ← onList ⟨none, 0⟩ (copyConstruct environment self)
  Program.guarded (append environment copy) (do let _ ← onList copy destruct)
  let _ ← onList copy destruct

end Lists

end ListContainer

end Wan.Container
