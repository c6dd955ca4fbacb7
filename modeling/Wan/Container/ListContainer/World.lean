import Wan.Container.ListContainer.Sequences

/-!
# Programs with several lists

The nodes of all lists lie in one memory.  A command runs a member function on the fields
of a named list, or an operator on a named iterator; elements are passed by reference.
-/

namespace Wan.Container.ListContainer

open Wan.Library

variable {V : Type}

/-- The nodes, the fields of the lists that are alive, and the iterators. -/
structure World (V : Type) where
  nodes : Nodes V
  requests : Nat
  lists : Nat → Option ListContainer
  iterators : Nat → ListIterator

/-- Nothing but default constructed iterators. -/
def World.empty : World V := ⟨fun _ => none, 0, fun _ => none, fun _ => ⟨none, none⟩⟩

/-- A piece of a program. -/
abbrev Action (V α : Type) := Program (World V) Fault α

namespace World

/-- What a member function has made of a list and the nodes. -/
def after (world : World V) (name : Nat) (state : State V) : World V :=
  { world with
    nodes := state.nodes
    requests := state.requests
    lists := Function.update world.lists name (some state.self) }

/-- The list with a name. -/
def named (name : Nat) : Action V ListContainer := do
  match (← get).lists name with
  | some list => pure list
  | none => Program.stuck

/-- Let a name stand for other fields, or for no list. -/
def bind (name : Nat) (list : Option ListContainer) : Action V Unit :=
  modify fun world => { world with lists := Function.update world.lists name list }

/-- Assign to an iterator. -/
def steer (target : Nat) (iterator : ListIterator) : Action V Unit :=
  modify fun world => { world with iterators := Function.update world.iterators target iterator }

/-- Run a member function on the fields of a list; the name then stands for the fields
afterwards, also when it raises. -/
def call {α : Type} (name : Nat) (method : Method V α) : Action V α := do
  let list ← named name
  Program.onPart (fun world => ⟨world.nodes, world.requests, list⟩)
    (fun world state => world.after name state) method

/-- Run a function that needs no list. -/
def onMemory {α : Type} (method : Method V α) : Action V α :=
  Program.onPart (fun world => ⟨world.nodes, world.requests, ⟨none, 0⟩⟩)
    (fun world state => { world with nodes := state.nodes, requests := state.requests }) method

/-- Run a constructor of a list; there is no list if it raises. -/
def create {α : Type} (name : Nat) (constructor : Method V α) : Action V α := do
  match (← get).lists name with
  | some _ => Program.stuck
  | none => do
      let (result, list) ← onMemory (onList ⟨none, 0⟩ constructor)
      bind name (some list)
      return result

/-- The reference that is passed. -/
def resolve : Argument V → Action V (Reference V)
  | .object value => return .outside value
  | .target iterator => do
      match ((← get).iterators iterator).memberNode with
      | some address => return .element address
      | none => Program.stuck

end World

open World

/-- Run a command. -/
@[grind =] def Command.run (environment : Environment V) : Command V → Action V (Observation V)
  | .construct name => do
      create name (ListContainer.construct environment)
      return .nothing
  | .constructValues name values => do
      create name (ListContainer.constructValues environment values)
      return .nothing
  | .copyConstruct name source => do
      let list ← named source
      create name (ListContainer.copyConstruct environment list)
      return .nothing
  | .moveConstruct name source => do
      let list ← named source
      let left ← create name (ListContainer.moveConstruct environment list)
      World.bind source (some left)
      return .nothing
  | .destruct name => do
      call name ListContainer.destruct
      World.bind name none
      return .nothing
  | .copyAssign name source => do
      let _ ← named name
      let list ← named source
      if name = source then
        return .nothing
      else do
        call name (ListContainer.copyAssign environment list)
        return .nothing
  | .moveAssign name source => do
      let _ ← named name
      let list ← named source
      if name = source then
        return .nothing
      else do
        let left ← call name (ListContainer.moveAssign environment list)
        World.bind source (some left)
        return .nothing
  | .assignValues name values => do
      call name (ListContainer.assignValues environment values)
      return .nothing
  | .swap name other => do
      let list ← named name
      let target ← named other
      World.bind name (some target)
      World.bind other (some list)
      return .nothing
  | .pushBack name passing argument => do
      let reference ← resolve argument
      call name (ListContainer.pushBack environment passing reference)
      return .nothing
  | .pushFront name passing argument => do
      let reference ← resolve argument
      call name (ListContainer.pushFront environment passing reference)
      return .nothing
  | .popBack name => do
      call name ListContainer.popBack
      return .nothing
  | .popFront name target => do
      steer target (← call name ListContainer.popFront)
      return .nothing
  | .insert name position passing argument target => do
      let reference ← resolve argument
      let iterator := (← get).iterators position
      steer target (← call name (ListContainer.insert environment iterator passing reference))
      return .nothing
  | .erase name position target => do
      let iterator := (← get).iterators position
      steer target (← call name (ListContainer.erase iterator))
      return .nothing
  | .resize name newContainerSize argument => do
      let reference ← resolve argument
      call name (ListContainer.resize environment newContainerSize reference)
      return .nothing
  | .clear name => do
      call name ListContainer.clear
      return .nothing
  | .append name source => do
      let list ← named source
      if name = source then
        call name (ListContainer.appendSelf environment)
      else
        call name (ListContainer.append environment list)
      return .nothing
  | .size name => return .size (← named name).memberSize
  | .empty name => return .truth (← call name ListContainer.empty)
  | .front name => return .value (← call name ListContainer.front)
  | .back name => return .value (← call name ListContainer.back)
  | .beginIterator name target => do
      steer target (← call name ListContainer.beginIterator)
      return .nothing
  | .endIterator name target => do
      steer target (← call name ListContainer.endIterator)
      return .nothing
  | .assignIterator iterator target => do
      steer target ((← get).iterators iterator)
      return .nothing
  | .increment iterator => do
      steer iterator (← onMemory ((← get).iterators iterator).increment)
      return .nothing
  | .decrement iterator => do
      steer iterator (← onMemory ((← get).iterators iterator).decrement)
      return .nothing
  | .same iterator other => do
      let world ← get
      return .truth (world.iterators iterator = world.iterators other)
  | .element iterator => do
      let reference ← resolve (.target iterator)
      return .value (← onMemory (reference.take environment .copy))

end Wan.Container.ListContainer
