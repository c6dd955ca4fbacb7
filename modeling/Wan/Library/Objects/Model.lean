import Wan.Library.Slots

/-!
# Objects that are constructed and destroyed

Blocks of slots as in `Slots`, whose objects carry the number under which they were constructed,
together with objects on a stack beside the blocks, the numbers of all objects that were
destroyed, and fields of the program.
-/

namespace Wan.Library

open LinkedList

/-- An object with the number under which it was constructed. -/
structure Object (V : Type) where
  serial : Nat
  value : V
  deriving DecidableEq, Repr

/-- The blocks, the objects on the stack, how many objects were constructed so far, which of them
were destroyed, a clock, and the fields of the program. -/
structure Storage (V F : Type) where
  memory : Memory (Object V)
  locals : List (Object V)
  born : Nat
  died : List Nat
  clock : Nat
  fields : F

namespace Storage

variable {V F ε : Type}

section Steps

/-- The fields. -/
def getFields : Program (Storage V F) ε F := do
  return (← get).fields

/-- Change the fields. -/
def modifyFields (change : F → F) : Program (Storage V F) ε Unit :=
  modify fun storage => { storage with fields := change storage.fields }

/-- A step that raises when its time has come, unless it is safe. -/
def attempt (faults : Nat → Bool) (safe : Bool) (exception : ε) :
    Program (Storage V F) ε Unit := do
  let storage ← get
  set { storage with clock := storage.clock + 1 }
  Program.refuse (safe = false ∧ faults storage.clock = true) exception

/-- The slots of a block that is allocated. -/
def slots (block : Addr) : Program (Storage V F) ε (Slots (Object V)) := do
  match (← get).memory.cells block with
  | some slots => pure slots
  | none => Program.stuck

/-- Get a block of raw slots. -/
def allocate (capacity : Nat) : Program (Storage V F) ε Addr := do
  let storage ← get
  set { storage with memory := storage.memory.alloc (List.replicate capacity none) }
  return storage.memory.next

/-- Give back a block without objects. -/
def deallocate (block : Addr) : Program (Storage V F) ε Unit := do
  let slots ← slots block
  if slots.all Option.isNone then
    modify fun storage => { storage with memory := storage.memory.free block }
  else
    Program.stuck

/-- Construct an object in a raw slot. -/
def construct (block : Addr) (index : Nat) (value : V) : Program (Storage V F) ε Unit := do
  let slots ← slots block
  match slots[index]? with
  | some none => modify fun storage =>
      { storage with
        memory := storage.memory.put block (slots.set index (some ⟨storage.born, value⟩))
        born := storage.born + 1 }
  | _ => Program.stuck

/-- Destroy the object in a slot. -/
def destroy (block : Addr) (index : Nat) : Program (Storage V F) ε Unit := do
  let slots ← slots block
  match slots[index]? with
  | some (some object) => modify fun storage =>
      { storage with
        memory := storage.memory.put block (slots.set index none)
        died := object.serial :: storage.died }
  | _ => Program.stuck

/-- The value of the object in a slot. -/
def read (block : Addr) (index : Nat) : Program (Storage V F) ε V := do
  let slots ← slots block
  match slots[index]? with
  | some (some object) => pure object.value
  | _ => Program.stuck

/-- Assign to the object in a slot. -/
def assign (block : Addr) (index : Nat) (value : V) : Program (Storage V F) ε Unit := do
  let slots ← slots block
  match slots[index]? with
  | some (some object) => modify fun storage =>
      { storage with
        memory := storage.memory.put block (slots.set index (some ⟨object.serial, value⟩)) }
  | _ => Program.stuck

/-- Construct an object on the stack. -/
def enter (value : V) : Program (Storage V F) ε Unit :=
  modify fun storage =>
    { storage with
      locals := ⟨storage.born, value⟩ :: storage.locals
      born := storage.born + 1 }

/-- Destroy the last object on the stack. -/
def leave : Program (Storage V F) ε Unit := do
  let storage ← get
  match storage.locals with
  | [] => Program.stuck
  | object :: locals => set { storage with locals := locals, died := object.serial :: storage.died }

/-- The value of the last object on the stack. -/
def readLocal : Program (Storage V F) ε V := do
  match (← get).locals with
  | [] => Program.stuck
  | object :: _ => pure object.value

/-- Assign to the last object on the stack. -/
def assignLocal (value : V) : Program (Storage V F) ε Unit := do
  let storage ← get
  match storage.locals with
  | [] => Program.stuck
  | object :: locals => set { storage with locals := ⟨object.serial, value⟩ :: locals }

end Steps

end Storage

end Wan.Library
