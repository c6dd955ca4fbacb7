import Wan.Container.HashTable.Run

/-!
# Programs over several hash tables

Tables that share one heap, are constructed, copied, moved, assigned and destroyed,
and on which member functions are called.  A command about a name that holds no
table, or that already holds one, is skipped.
-/

namespace Wan.Container.HashTable

open Wan.Library Wan.Library.LinkedList Wan.Library.Program

/-- The heap, the clock and the tables that are alive. -/
structure World (Value : Type) where
  heap : Heap (HashTableNode Value)
  clock : Nat
  tables : Nat → Option HashTable

/-- What a program does with tables. -/
inductive Command (Key Value : Type) where
  | construct (name : Nat) (newHashTableCapacity : UInt64)
  | copyConstruct (name source : Nat)
  | moveConstruct (name source : Nat)
  | copyAssign (target source : Nat)
  | moveAssign (target source : Nat)
  | destroy (name : Nat)
  | call (name : Nat) (operation : Operation Key Value)
  deriving Repr

variable {Key Value : Type}

namespace World

/-- The world in which no table has been constructed. -/
def empty : World Value := ⟨.empty, 0, fun _ => none⟩

variable (world : World Value)

/-- The state in which a table runs a member function. -/
def enter (self : HashTable) : State Value := ⟨world.heap, world.clock, self⟩

/-- The world after a member function, its table apart. -/
def leave (state : State Value) : World Value :=
  { world with heap := state.heap, clock := state.clock }

/-- Let a name hold a table, or none. -/
def put (name : Nat) (table : Option HashTable) : World Value :=
  { world with tables := Function.update world.tables name table }

@[simp] theorem put_tables (name : Nat) (table : Option HashTable) :
    (world.put name table).tables = Function.update world.tables name table := rfl

@[simp] theorem put_heap (name : Nat) (table : Option HashTable) :
    (world.put name table).heap = world.heap := rfl

@[simp] theorem leave_tables (state : State Value) :
    (world.leave state).tables = world.tables := rfl

@[simp] theorem leave_heap (state : State Value) : (world.leave state).heap = state.heap := rfl

/-- Run a constructor. When it raises, the name holds no table. -/
def create (name : Nat) (self : HashTable) (constructor : Method Value Unit) :
    Option (World Value) := do
  match ← constructor.run.run (world.enter self) with
  | (.ok _, state) => return (world.leave state).put name (some state.self)
  | (.error _, state) => return world.leave state

/-- Run a member function of a table. -/
def within {α : Type} (name : Nat) (self : HashTable) (method : Method Value α) :
    Option (World Value) := do
  let (_, state) ← method.run.run (world.enter self)
  return (world.leave state).put name (some state.self)

/-- The new owner of a table takes its fields and leaves an empty table behind. -/
def transfer (target source : Nat) (table : HashTable) : World Value :=
  (world.put source (some movedFrom)).put target (some table)

end World

section Model

variable [DecidableEq Key] (policy : Policy Key Value)

/-- Copy assignment: construct a copy, swap, and let the destructor of the copy
clear what the target held before. -/
def copyAssign (world : World Value) (target : Nat) (old source : HashTable) :
    Option (World Value) := do
  let self := HashTable.blank source.loadFactor source.hashCapacity
  match ← (copyConstruct policy source).run.run (world.enter self) with
  | (.ok _, state) => do
      let swapped := (world.leave state).put target (some state.self)
      let (_, cleared) ← (clearNodes : Method Value Unit).run.run (swapped.enter old)
      return swapped.leave cleared
  | (.error _, state) => return world.leave state

/-- Move assignment: clear the target and take over the fields of the source. -/
def moveAssign (world : World Value) (target source : Nat) (old table : HashTable) :
    Option (World Value) := do
  let cleared ← world.within target old clearNodes
  return cleared.transfer target source table

/-- Execute one command. -/
def step (world : World Value) : Command Key Value → Option (World Value)
  | .construct name newHashTableCapacity =>
      match world.tables name with
      | none => world.create name (.blank 7 newHashTableCapacity.toNat)
          (construct policy newHashTableCapacity)
      | some _ => some world
  | .copyConstruct name source =>
      match world.tables name, world.tables source with
      | none, some table => world.create name (.blank table.loadFactor table.hashCapacity)
          (copyConstruct policy table)
      | _, _ => some world
  | .moveConstruct name source =>
      match world.tables name, world.tables source with
      | none, some table => some (world.transfer name source table)
      | _, _ => some world
  | .copyAssign target source =>
      match world.tables target, world.tables source with
      | some old, some table =>
          if target = source then some world else copyAssign policy world target old table
      | _, _ => some world
  | .moveAssign target source =>
      match world.tables target, world.tables source with
      | some old, some table =>
          if target = source then some world else moveAssign world target source old table
      | _, _ => some world
  | .destroy name =>
      match world.tables name with
      | some table => do
          let cleared ← world.within name table clearNodes
          return cleared.put name none
      | none => some world
  | .call name operation =>
      match world.tables name with
      | some table => world.within name table (perform policy operation)
      | none => some world

/-- Execute a sequence of commands. -/
def execute (world : World Value) : List (Command Key Value) → Option (World Value)
  | [] => some world
  | command :: commands => do execute (← step policy world command) commands

end Model

end Wan.Container.HashTable
