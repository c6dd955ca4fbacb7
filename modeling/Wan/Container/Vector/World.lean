import Mathlib.Logic.Equiv.Basic
import Wan.Container.Vector.Methods

/-!
# Programs over several vectors

Vectors that share one memory, are constructed, copied, moved, assigned, swapped and destroyed,
and on which member functions are called, and the same commands on lists.  A command about a
name that holds no vector, about a name that already holds one, or about an element that is not
there is skipped.
-/

namespace Wan.Container.Vector

open Wan.Library Wan.Library.LinkedList Wan.Library.Program

/-- A value argument: an object outside of all vectors, or an element of a vector. -/
inductive Argument (V : Type) where
  | value (value : V)
  | element (name index : Nat)
  deriving DecidableEq, Repr

/-- What a program does with vectors. -/
inductive Command (V : Type) where
  | construct (name : Nat)
  | copyConstruct (name source : Nat)
  | moveConstruct (name source : Nat)
  | copyAssign (target source : Nat)
  | moveAssign (target source : Nat)
  | swap (first second : Nat)
  | destroy (name : Nat)
  | pushBack (name : Nat) (value : Argument V)
  | pushBackMove (name : Nat) (value : Argument V)
  | pushFront (name : Nat) (value : Argument V)
  | pushFrontMove (name : Nat) (value : Argument V)
  | popBack (name : Nat)
  | popFront (name : Nat)
  /-- The position is null, or counts from the begin of a vector. -/
  | erase (name : Nat) (deletePosition : Option (Nat × Nat))
  | sizeAdjust (name dataSize : Nat) (padding : Argument V)
  | resize (name newContainerCapacity : Nat)
  | append (name other : Nat)
  deriving Repr

/-- The memory and the vectors that are alive. -/
structure World (V : Type) where
  memory : Memory V
  vectors : Nat → Option Vector

variable {V : Type} (element : Element V) (convert : Option (List V → V))

namespace World

/-- The world in which no vector has been constructed. -/
def empty : World V := ⟨.empty, fun _ => none⟩

variable (world : World V)

/-- Let a name hold a vector, or none. -/
def put (name : Nat) (vector : Option Vector) : World V :=
  { world with vectors := Function.update world.vectors name vector }

/-- Let two names exchange what they hold. -/
def exchange (first second : Nat) : World V :=
  { world with vectors := world.vectors ∘ Equiv.swap first second }

@[simp] theorem put_vectors (name : Nat) (vector : Option Vector) :
    (world.put name vector).vectors = Function.update world.vectors name vector := rfl

@[simp] theorem put_memory (name : Nat) (vector : Option Vector) :
    (world.put name vector).memory = world.memory := rfl

@[simp] theorem exchange_vectors (first second : Nat) :
    (world.exchange first second).vectors = world.vectors ∘ Equiv.swap first second := rfl

@[simp] theorem exchange_memory (first second : Nat) :
    (world.exchange first second).memory = world.memory := rfl

/-- Let a name hold what a method makes, unless it throws. -/
def perform (name : Nat) (method : Method V Vector) : Option (World V × Option Failure) := do
  match ← method.run.run world.memory with
  | (.ok result, memory) => return ({ world with memory := memory }.put name result, none)
  | (.error failure, memory) => return ({ world with memory := memory }, some failure)

/-- Call a member function. -/
def call (name : Nat) (method : Vector → Method V Vector) : Option (World V × Option Failure) :=
  match world.vectors name with
  | some vector => world.perform name (method vector)
  | none => some (world, none)

/-- The reference that is passed for an argument. -/
def refer : Argument V → Option (Reference V)
  | .value value => some (.outside value)
  | .element name index => do
      let vector ← world.vectors name
      let data ← vector.data
      if index < vector.size then some (.element data index) else none

/-- Call a member function with an argument. -/
def callWith (name : Nat) (argument : Argument V)
    (method : Vector → Reference V → Method V Vector) : Option (World V × Option Failure) :=
  match world.refer argument with
  | some reference => world.call name fun vector => method vector reference
  | none => some (world, none)

/-- The iterator for a position. -/
def iterator : Option (Nat × Nat) → Iterator
  | some (name, offset) => do
      let vector ← world.vectors name
      let data ← vector.data
      return (data, offset)
  | none => none

/-- Execute one command, where `convert` makes an element of a vector, if the element type has such
a conversion. -/
@[grind =] def step : Command V → Option (World V × Option Failure)
  | .construct name =>
      match world.vectors name with
      | none => some (world.put name (some .empty), none)
      | some _ => some (world, none)
  | .copyConstruct name source =>
      match world.vectors name, world.vectors source with
      | none, some original => world.perform name (original.copy element)
      | _, _ => some (world, none)
  | .moveConstruct name source =>
      match world.vectors name, world.vectors source with
      | none, some vector => some ((world.put source (some .empty)).put name (some vector), none)
      | _, _ => some (world, none)
  | .copyAssign target source =>
      match world.vectors source with
      | some original =>
          if target = source then some (world, none)
          else world.call target fun vector => vector.assign element original
      | none => some (world, none)
  | .moveAssign target source =>
      match world.vectors source with
      | some _ =>
          if target = source then some (world, none)
          else
            match world.vectors target with
            | some vector => do
                let (released, failure) ← world.perform target vector.release
                return (released.exchange target source, failure)
            | none => some (world, none)
      | none => some (world, none)
  | .swap first second =>
      match world.vectors first, world.vectors second with
      | some _, some _ => some (world.exchange first second, none)
      | _, _ => some (world, none)
  | .destroy name =>
      match world.vectors name with
      | some vector => do
          let (released, failure) ← world.perform name vector.release
          return (released.put name none, failure)
      | none => some (world, none)
  | .pushBack name value => world.callWith name value (·.pushBack element)
  | .pushBackMove name value => world.callWith name value (·.pushBackMove element)
  | .pushFront name value => world.callWith name value (·.pushFront element)
  | .pushFrontMove name value => world.callWith name value (·.pushFrontMove element)
  | .popBack name => world.call name (·.popBack)
  | .popFront name => world.call name (·.popFront element)
  | .erase name deletePosition =>
      world.call name fun vector => do
        let (result, _) ← vector.erase element (world.iterator deletePosition)
        return result
  | .sizeAdjust name dataSize padding =>
      world.callWith name padding (·.sizeAdjust element dataSize)
  | .resize name newContainerCapacity => world.call name (·.resize element newContainerCapacity)
  | .append name other =>
      match world.vectors other with
      | some source =>
          world.call name fun vector =>
            if name = other then vector.appendSelf element convert
            else vector.append element source
      | none => some (world, none)

/-- Execute commands, with what each of them throws. -/
def run (world : World V) : List (Command V) → Option (World V × List (Option Failure))
  | [] => some (world, [])
  | command :: commands => do
      let (next, outcome) ← world.step element convert command
      let (last, outcomes) ← run next commands
      return (last, outcome :: outcomes)

end World

/-- The lists that the vectors stand for. -/
abbrev Lists (V : Type) := Nat → Option (List V)

namespace Lists

variable (lists : Lists V)

/-- The value of an argument. -/
def value : Argument V → Option V
  | .value value => some value
  | .element name index => do (← lists name)[index]?

/-- What moving from an argument leaves behind. -/
def moveFrom : Argument V → Lists V
  | .value _ => lists
  | .element name index =>
      Function.update lists name ((lists name).map fun list => list.modify index element.moved)

/-- Add a value to a list unless it is full. An element of another list may be moved from. -/
def push (name : Nat) (argument : Argument V) (moves : Bool) (place : List V → V → List V) :
    Lists V × Option Failure :=
  match lists name, lists.value argument with
  | some list, some value =>
      if list.length = element.maxSize then
        (lists, some (.lengthError "Vector size exceeds max_size"))
      else
        (Function.update (if moves then lists.moveFrom element argument else lists) name
          (some (place list value)), none)
  | _, _ => (lists, none)

/-- Change one list. -/
def change (name : Nat) (change : List V → List V) : Lists V × Option Failure :=
  (Function.update lists name ((lists name).map change), none)

/-- Execute one command. -/
@[grind =] def step : Command V → Lists V × Option Failure
  | .construct name =>
      match lists name with
      | none => (Function.update lists name (some []), none)
      | some _ => (lists, none)
  | .copyConstruct name source =>
      match lists name, lists source with
      | none, some list => (Function.update lists name (some list), none)
      | _, _ => (lists, none)
  | .moveConstruct name source =>
      match lists name, lists source with
      | none, some list =>
          (Function.update (Function.update lists source (some [])) name (some list), none)
      | _, _ => (lists, none)
  | .copyAssign target source =>
      match lists target, lists source with
      | some _, some list => (Function.update lists target (some list), none)
      | _, _ => (lists, none)
  | .moveAssign target source =>
      match lists target, lists source with
      | some _, some list =>
          if target = source then (lists, none)
          else (Function.update (Function.update lists source (some [])) target (some list), none)
      | _, _ => (lists, none)
  | .swap first second =>
      match lists first, lists second with
      | some _, some _ => (lists ∘ Equiv.swap first second, none)
      | _, _ => (lists, none)
  | .destroy name => (Function.update lists name none, none)
  | .pushBack name value => lists.push element name value false fun list here => list ++ [here]
  | .pushBackMove name value => lists.push element name value true fun list here => list ++ [here]
  | .pushFront name value => lists.push element name value false fun list here => here :: list
  | .pushFrontMove name value => lists.push element name value true fun list here => here :: list
  | .popBack name => lists.change name List.dropLast
  | .popFront name => lists.change name List.tail
  | .erase name deletePosition =>
      match deletePosition with
      | some (owner, index) =>
          if owner = name then lists.change name fun list => list.eraseIdx index else (lists, none)
      | none => (lists, none)
  | .sizeAdjust name dataSize padding =>
      match lists name, lists.value padding with
      | some list, some value =>
          if element.maxSize < dataSize then
            (lists, some (.lengthError "Vector size exceeds max_size"))
          else (Function.update lists name (some (adjusted list dataSize value)), none)
      | _, _ => (lists, none)
  | .resize name newContainerCapacity =>
      match lists name with
      | some _ =>
          if element.maxSize < newContainerCapacity then
            (lists, some (.lengthError "Vector capacity exceeds max_size"))
          else (lists, none)
      | none => (lists, none)
  | .append name other =>
      match lists name, lists other with
      | some list, some more =>
          if more = [] then (lists, none)
          else if element.maxSize < list.length + more.length then
            (lists, some (.lengthError "Vector size exceeds max_size"))
          else (Function.update lists name (some (list ++ more)), none)
      | _, _ => (lists, none)

/-- Execute commands, with what each of them throws. -/
def run (lists : Lists V) : List (Command V) → Lists V × List (Option Failure)
  | [] => (lists, [])
  | command :: commands =>
      let next := lists.step element command
      let last := run next.1 commands
      (last.1, next.2 :: last.2)

end Lists

end Wan.Container.Vector
