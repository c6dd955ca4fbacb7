import Mathlib.Logic.Equiv.Basic
import Wan.Container.ListContainer.Model

/-!
# What lists are for

Lists as named sequences of values, and iterators as cursors into them.  There are no
nodes: an iterator stays with its element when elements around it come and go and when the
whole sequence gets another name, and it dangles when its element is dropped.
-/

namespace Wan.Container.ListContainer

variable {V : Type}

/-- Where an iterator stands: nowhere, or in front of an element of a list, or at its end. -/
inductive Cursor where
  | unbound
  | within (name position : Nat)
  deriving DecidableEq, Repr

/-- Named sequences, and the iterators that do not dangle. -/
structure Sequences (V : Type) where
  contents : Nat → Option (List V)
  cursors : Nat → Option Cursor

/-- An element that is passed by reference: an object, or what an iterator points to. -/
inductive Argument (V : Type) where
  | object (value : V)
  | target (iterator : Nat)
  deriving DecidableEq, Repr

/-- What a call yields besides iterators. -/
inductive Observation (V : Type) where
  | nothing
  | size (size : UInt64)
  | truth (truth : Bool)
  | value (value : V)
  deriving DecidableEq, Repr

namespace Cursor

/-- A part of a list is replaced; the iterators into the part dangle. -/
def splice (name start removed added : Nat) : Cursor → Option Cursor
  | .unbound => some .unbound
  | .within other position =>
      if other ≠ name ∨ position < start then some (.within other position)
      else if position < start + removed then none
      else some (.within other (position - removed + added))

/-- A list is gone. -/
def drop (name : Nat) : Cursor → Option Cursor
  | .unbound => some .unbound
  | .within other position => if other = name then none else some (.within other position)

/-- Two lists exchange their names. -/
def exchange (name other : Nat) : Cursor → Cursor
  | .unbound => .unbound
  | .within owner position => .within (Equiv.swap name other owner) position

end Cursor

namespace Sequences

/-- Neither lists nor bound iterators. -/
def empty : Sequences V := ⟨fun _ => none, fun _ => some .unbound⟩

/-- Replace a part of a sequence. -/
def splice (sequences : Sequences V) (name start removed : Nat) (added : List V) :
    Sequences V where
  contents := Function.update sequences.contents name
    ((sequences.contents name).map fun values =>
      values.take start ++ added ++ values.drop (start + removed))
  cursors iterator :=
    (sequences.cursors iterator).bind (Cursor.splice name start removed added.length)

/-- Change a value. -/
def alter (sequences : Sequences V) (name position : Nat) (change : V → V) : Sequences V where
  contents := Function.update sequences.contents name
    ((sequences.contents name).map fun values => values.modify position change)
  cursors := sequences.cursors

/-- A new sequence. -/
def create (sequences : Sequences V) (name : Nat) (values : List V) : Sequences V where
  contents := Function.update sequences.contents name (some values)
  cursors := sequences.cursors

def drop (sequences : Sequences V) (name : Nat) : Sequences V where
  contents := Function.update sequences.contents name none
  cursors iterator := (sequences.cursors iterator).bind (Cursor.drop name)

def exchange (sequences : Sequences V) (name other : Nat) : Sequences V where
  contents owner := sequences.contents (Equiv.swap name other owner)
  cursors iterator := (sequences.cursors iterator).map (Cursor.exchange name other)

/-- Assign to an iterator. -/
def steer (sequences : Sequences V) (iterator : Nat) (cursor : Option Cursor) : Sequences V where
  contents := sequences.contents
  cursors := Function.update sequences.cursors iterator cursor

/-- The value that is passed, if there is one. -/
def argument (sequences : Sequences V) : Argument V → Option V
  | .object value => some value
  | .target iterator => do
      match ← sequences.cursors iterator with
      | .unbound => none
      | .within name position => (← sequences.contents name)[position]?

/-- The sequences after an argument was taken. -/
def depart (sequences : Sequences V) (remains : V → V) : Argument V → Sequences V
  | .object _ => sequences
  | .target iterator =>
      match sequences.cursors iterator with
      | some (.within name position) => sequences.alter name position remains
      | _ => sequences

/-- A name that has no list. -/
def vacant (sequences : Sequences V) (name : Nat) : Option Unit :=
  match sequences.contents name with
  | none => some ()
  | some _ => none

/-- A call that yields nothing. -/
def finished (sequences : Sequences V) : Option (Except Fault (Observation V) × Sequences V) :=
  some (.ok .nothing, sequences)

/-- A call that yields something and changes nothing. -/
def observed (sequences : Sequences V) (observation : Observation V) :
    Option (Except Fault (Observation V) × Sequences V) :=
  some (.ok observation, sequences)

/-- A call that is rejected. -/
def rejected (sequences : Sequences V) (what : String) :
    Option (Except Fault (Observation V) × Sequences V) :=
  some (.error (.invalidArgument what), sequences)

end Sequences

/-- The calls of member functions on named lists and of operators on named iterators. -/
inductive Command (V : Type) where
  | construct (name : Nat)
  | constructValues (name : Nat) (values : List V)
  | copyConstruct (name source : Nat)
  | moveConstruct (name source : Nat)
  | destruct (name : Nat)
  | copyAssign (name source : Nat)
  | moveAssign (name source : Nat)
  | assignValues (name : Nat) (values : List V)
  | swap (name other : Nat)
  | pushBack (name : Nat) (passing : Passing) (argument : Argument V)
  | pushFront (name : Nat) (passing : Passing) (argument : Argument V)
  | popBack (name : Nat)
  | popFront (name target : Nat)
  | insert (name position : Nat) (passing : Passing) (argument : Argument V) (target : Nat)
  | erase (name position target : Nat)
  | resize (name : Nat) (newContainerSize : UInt64) (argument : Argument V)
  | clear (name : Nat)
  | append (name source : Nat)
  | size (name : Nat)
  | empty (name : Nat)
  | front (name : Nat)
  | back (name : Nat)
  | beginIterator (name target : Nat)
  | endIterator (name target : Nat)
  | assignIterator (iterator target : Nat)
  | increment (iterator : Nat)
  | decrement (iterator : Nat)
  | same (iterator other : Nat)
  | element (iterator : Nat)
  deriving Repr

namespace Command

/-- What a command does unless a `new` raises.  There is nothing when the caller breaks a
precondition: a list that is not there or there already, a dangling iterator, or an iterator at
no element where an element is needed. -/
@[grind =] def effect (environment : Environment V) (sequences : Sequences V) :
    Command V → Option (Except Fault (Observation V) × Sequences V)
  | .construct name => do
      sequences.vacant name
      (sequences.create name []).finished
  | .constructValues name values => do
      sequences.vacant name
      (sequences.create name values).finished
  | .copyConstruct name source => do
      sequences.vacant name
      (sequences.create name (← sequences.contents source)).finished
  | .moveConstruct name source => do
      sequences.vacant name
      let _ ← sequences.contents source
      ((sequences.exchange name source).create source []).finished
  | .destruct name => do
      let _ ← sequences.contents name
      (sequences.drop name).finished
  | .copyAssign name source => do
      let _ ← sequences.contents name
      let values ← sequences.contents source
      if name = source then sequences.finished else ((sequences.drop name).create name values).finished
  | .moveAssign name source => do
      let _ ← sequences.contents name
      let _ ← sequences.contents source
      if name = source then
        sequences.finished
      else
        (((sequences.drop name).exchange name source).create source []).finished
  | .assignValues name values => do
      let old ← sequences.contents name
      (sequences.splice name 0 old.length values).finished
  | .swap name other => do
      let _ ← sequences.contents name
      let _ ← sequences.contents other
      (sequences.exchange name other).finished
  | .pushBack name passing argument => do
      let values ← sequences.contents name
      let value ← sequences.argument argument
      ((sequences.depart (passing.remains environment) argument).splice name values.length 0
        [value]).finished
  | .pushFront name passing argument => do
      let _ ← sequences.contents name
      let value ← sequences.argument argument
      ((sequences.depart (passing.remains environment) argument).splice name 0 0 [value]).finished
  | .popBack name => do
      let values ← sequences.contents name
      (sequences.splice name (values.length - 1) (min 1 values.length) []).finished
  | .popFront name target => do
      let values ← sequences.contents name
      ((sequences.splice name 0 (min 1 values.length) []).steer target
        (some (.within name 0))).finished
  | .insert name position passing argument target => do
      let _ ← sequences.contents name
      let value ← sequences.argument argument
      match ← sequences.cursors position with
      | .unbound => sequences.rejected "list insertion iterator does not belong to this list"
      | .within owner place =>
          if owner = name then
            (((sequences.depart (passing.remains environment) argument).splice name place 0
              [value]).steer target (some (.within name place))).finished
          else
            sequences.rejected "list insertion iterator does not belong to this list"
  | .erase name position target => do
      let values ← sequences.contents name
      match ← sequences.cursors position with
      | .unbound => sequences.rejected "list erase iterator does not belong to this list"
      | .within owner place =>
          if owner ≠ name then
            sequences.rejected "list erase iterator does not belong to this list"
          else if place = values.length then
            (sequences.steer target (some (.within name place))).finished
          else
            ((sequences.splice name place 1 []).steer target (some (.within name place))).finished
  | .resize name newContainerSize argument => do
      let values ← sequences.contents name
      let value ← sequences.argument argument
      let size := newContainerSize.toNat
      (sequences.splice name (min size values.length) (values.length - size)
        (List.replicate (size - values.length) value)).finished
  | .clear name => do
      let values ← sequences.contents name
      (sequences.splice name 0 values.length []).finished
  | .append name source => do
      let values ← sequences.contents name
      let added ← sequences.contents source
      (sequences.splice name values.length 0 added).finished
  | .size name => do
      let values ← sequences.contents name
      sequences.observed (.size (UInt64.ofNat values.length))
  | .empty name => do
      let values ← sequences.contents name
      sequences.observed (.truth values.isEmpty)
  | .front name => do
      let values ← sequences.contents name
      sequences.observed (.value (← values.head?))
  | .back name => do
      let values ← sequences.contents name
      sequences.observed (.value (← values.getLast?))
  | .beginIterator name target => do
      let _ ← sequences.contents name
      (sequences.steer target (some (.within name 0))).finished
  | .endIterator name target => do
      let values ← sequences.contents name
      (sequences.steer target (some (.within name values.length))).finished
  | .assignIterator iterator target =>
      (sequences.steer target (sequences.cursors iterator)).finished
  | .increment iterator => do
      match ← sequences.cursors iterator with
      | .unbound => sequences.finished
      | .within name position =>
          let values ← sequences.contents name
          -- The sentinel is followed by the first element.
          let next := if position < values.length then position + 1 else 0
          (sequences.steer iterator (some (.within name next))).finished
  | .decrement iterator => do
      match ← sequences.cursors iterator with
      | .unbound => sequences.finished
      | .within name position =>
          let values ← sequences.contents name
          let previous := if position = 0 then values.length else position - 1
          (sequences.steer iterator (some (.within name previous))).finished
  | .same iterator other => do
      sequences.observed
        (.truth ((← sequences.cursors iterator) = (← sequences.cursors other)))
  | .element iterator => do
      sequences.observed (.value (← sequences.argument (.target iterator)))

/-- The sequences after a `new` has raised, when some elements had been added before. -/
def interrupted (sequences : Sequences V) (count : Nat) : Command V → Option (Sequences V)
  | .construct _ | .constructValues _ _ | .copyConstruct _ _ | .moveConstruct _ _
  | .pushBack _ _ _ | .pushFront _ _ _ | .insert _ _ _ _ _ => some sequences
  | .copyAssign name source | .moveAssign name source =>
      if name = source then none else some sequences
  | .assignValues name values => do
      let old ← sequences.contents name
      if count < values.length then
        sequences.splice name 0 old.length (values.take count)
      else
        none
  | .resize name newContainerSize argument => do
      let values ← sequences.contents name
      let value ← sequences.argument argument
      let added := List.replicate (newContainerSize.toNat - values.length) value
      if count < added.length then
        sequences.splice name values.length 0 (added.take count)
      else
        none
  | .append name source => do
      let values ← sequences.contents name
      let added ← sequences.contents source
      -- A list that is appended to itself is copied first.
      if count < added.length ∨ name = source ∧ count = 0 then
        sequences.splice name values.length 0 (added.take count)
      else
        none
  | _ => none

/-- The most nodes that a command deletes again when a `new` has raised. -/
def spare (sequences : Sequences V) : Command V → Nat
  | .constructValues _ values => values.length
  | .copyConstruct _ source | .copyAssign _ source =>
      ((sequences.contents source).map List.length).getD 0
  -- A list that is appended to itself is copied first, with a sentinel.
  | .append name source =>
      if name = source then ((sequences.contents source).map List.length).getD 0 + 1 else 0
  | _ => 0

end Command

end Wan.Container.ListContainer
