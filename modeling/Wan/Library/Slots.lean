import Mathlib.Data.List.Induction
import Wan.Library.LinkedList
import Wan.Library.Positions
import Wan.Library.Program

/-!
# Blocks of raw and live slots

Storage that a program manages by hand: blocks of slots, each of which is raw or holds an
object.  An object is constructed in a raw slot and destroyed, read and assigned in a live
one; everything else, and giving back a block that still holds objects, has no behaviour.
-/

namespace Wan.Library

open LinkedList

/-- The slots of a block; `none` is a raw one. -/
abbrev Slots (V : Type) := List (Option V)

/-- The blocks that are allocated. -/
abbrev Memory (V : Type) := Heap (Slots V)

namespace LinkedList.Heap

variable {N : Type} {heap : Heap N} {address other : Addr} {node later : N}

theorem ext_cells {first second : Heap N} (cells : first.cells = second.cells)
    (next : first.next = second.next) : first = second := by
  cases first
  cases second
  cases cells
  cases next
  rfl

/-- Replace the record at an address. -/
def put (heap : Heap N) (address : Addr) (node : N) : Heap N := heap.adjust address fun _ => node

@[simp] theorem put_next : (heap.put address node).next = heap.next := rfl

theorem put_cells_self (live : heap.cells address = some later) :
    (heap.put address node).cells address = some node := by
  rw [put, adjust_cells, Function.update_self, live]
  rfl

theorem put_cells_ne (apart : other ≠ address) :
    (heap.put address node).cells other = heap.cells other := by
  rw [put, adjust_cells, Function.update_of_ne apart]

theorem put_put : (heap.put address node).put address later = heap.put address later := by
  refine ext_cells ?_ rfl
  simp [put, Option.map_map, Function.comp_def]

theorem put_comm (apart : other ≠ address) :
    (heap.put address node).put other later = (heap.put other later).put address node := by
  refine ext_cells ?_ rfl
  simp only [put, adjust_cells, Function.update_of_ne apart, Function.update_of_ne apart.symm]
  rw [Function.update_comm apart]

/-- Replacing a record by itself does nothing. -/
theorem put_self (live : heap.cells address = some node) : heap.put address node = heap := by
  refine ext_cells ?_ rfl
  rw [put, adjust_cells, live]
  exact Function.update_eq_self_iff.mpr live.symm

theorem free_put : (heap.put address node).free address = heap.free address := by
  refine ext_cells ?_ rfl
  rw [free_cells, free_cells, put, adjust_cells, Function.update_idem]

end LinkedList.Heap

namespace Program

variable {σ ε : Type} {body : Nat → Program σ ε Unit} {first count : Nat}

/-- `for (I = first; I < first + count; ++I)`. -/
def forUp (first : Nat) (body : Nat → Program σ ε Unit) : Nat → Program σ ε Unit
  | 0 => pure ()
  | count + 1 => do
      body first
      forUp (first + 1) body count

/-- `for (I = first + count; I > first;)` with the body at `--I`. -/
def forDown (first : Nat) (body : Nat → Program σ ε Unit) : Nat → Program σ ε Unit
  | 0 => pure ()
  | count + 1 => do
      body (first + count)
      forDown first body count

end Program

namespace Block

variable {V ε : Type}

/-- The slots of a block that is allocated. -/
def slots (block : Addr) : Program (Memory V) ε (Slots V) := do
  match (← get).cells block with
  | some slots => pure slots
  | none => Program.stuck

/-- Replace one slot. -/
def setSlot (block : Addr) (index : Nat) (slot : Option V) : Program (Memory V) ε Unit := do
  let slots ← slots block
  modify fun memory => memory.put block (slots.set index slot)

/-- Get a block of raw slots. -/
def allocate (capacity : Nat) : Program (Memory V) ε Addr := do
  let memory ← get
  set (memory.alloc (List.replicate capacity none))
  return memory.next

/-- Give back a block without objects. -/
def deallocate (block : Addr) : Program (Memory V) ε Unit := do
  let slots ← slots block
  if slots.all Option.isNone then modify fun memory => memory.free block
  else Program.stuck

/-- Construct an object in a raw slot. -/
def construct (block : Addr) (index : Nat) (value : V) : Program (Memory V) ε Unit := do
  match (← slots block)[index]? with
  | some none => setSlot block index (some value)
  | _ => Program.stuck

/-- Destroy the object in a slot. -/
def destroy (block : Addr) (index : Nat) : Program (Memory V) ε Unit := do
  match (← slots block)[index]? with
  | some (some _) => setSlot block index none
  | _ => Program.stuck

/-- Read the object in a slot. -/
def read (block : Addr) (index : Nat) : Program (Memory V) ε V := do
  match (← slots block)[index]? with
  | some (some value) => pure value
  | _ => Program.stuck

/-- Assign to the object in a slot. -/
def assign (block : Addr) (index : Nat) (value : V) : Program (Memory V) ε Unit := do
  match (← slots block)[index]? with
  | some (some _) => setSlot block index (some value)
  | _ => Program.stuck

section Rules

open Program

variable {memory : Memory V} {block : Addr} {index : Nat} {front back all : Slots V} {value old : V}
  {post : Unit → Memory V → Prop} {raises : ε → Memory V → Prop}

theorem runs_slots {post : Slots V → Memory V → Prop} (live : memory.cells block = some all) :
    Runs (slots block) memory post raises ↔ post all memory := by
  simp [slots, live]

theorem runs_setSlot {slot : Option V} (live : memory.cells block = some all) :
    Runs (setSlot block index slot) memory post raises ↔
      post () (memory.put block (all.set index slot)) := by
  rw [setSlot, runs_bind, runs_slots live, runs_modify]

theorem runs_allocate {capacity : Nat} {post : Addr → Memory V → Prop} :
    Runs (allocate capacity) memory post raises ↔
      post memory.next (memory.alloc (List.replicate capacity none)) := by
  rw [allocate, runs_bind, runs_get, runs_bind, runs_set, runs_pure]

theorem runs_deallocate {capacity : Nat}
    (raw : memory.cells block = some (List.replicate capacity none)) :
    Runs (deallocate block) memory post raises ↔ post () (memory.free block) := by
  rw [deallocate, runs_bind, runs_slots raw, if_pos (by simp), runs_modify]

theorem runs_construct (live : memory.cells block = some (front ++ none :: back))
    (position : index = front.length) :
    Runs (construct block index value) memory post raises ↔
      post () (memory.put block (front ++ some value :: back)) := by
  rw [construct, runs_bind, runs_slots live, getElem?_at position, runs_setSlot live,
    set_at position]

theorem runs_destroy (live : memory.cells block = some (front ++ some old :: back))
    (position : index = front.length) :
    Runs (destroy block index) memory post raises ↔
      post () (memory.put block (front ++ none :: back)) := by
  rw [destroy, runs_bind, runs_slots live, getElem?_at position, runs_setSlot live,
    set_at position]

theorem runs_read_of_getElem? {post : V → Memory V → Prop} (live : memory.cells block = some all)
    (stands : all[index]? = some (some value)) :
    Runs (read block index) memory post raises ↔ post value memory := by
  rw [read, runs_bind, runs_slots live, stands, runs_pure]

theorem runs_assign_of_getElem? (live : memory.cells block = some all)
    (stands : all[index]? = some (some old)) :
    Runs (assign block index value) memory post raises ↔
      post () (memory.put block (all.set index (some value))) := by
  rw [assign, runs_bind, runs_slots live, stands, runs_setSlot live]

theorem runs_read {post : V → Memory V → Prop}
    (live : memory.cells block = some (front ++ some value :: back))
    (position : index = front.length) :
    Runs (read block index) memory post raises ↔ post value memory := by
  rw [runs_read_of_getElem? live (getElem?_at position)]

theorem runs_assign (live : memory.cells block = some (front ++ some old :: back))
    (position : index = front.length) :
    Runs (assign block index value) memory post raises ↔
      post () (memory.put block (front ++ some value :: back)) := by
  rw [runs_assign_of_getElem? live (getElem?_at position), set_at position]

/-- Destroying the objects behind `front` from the last one on. -/
theorem runs_destroyRange {values : List V} {count : Nat}
    (live : memory.cells block = some (front ++ values.map some ++ back))
    (position : index = front.length) (amount : count = values.length) :
    Runs (forDown index (destroy block) count) memory post raises ↔
      post () (memory.put block (front ++ List.replicate count none ++ back)) := by
  subst amount
  induction values using List.reverseRecOn generalizing memory back with
  | nil =>
      rw [List.length_nil, forDown, runs_pure, List.replicate_zero]
      rw [List.map_nil] at live
      rw [Heap.put_self live]
  | append_singleton values value ih =>
      have last : memory.cells block = some ((front ++ values.map some) ++ some value :: back) := by
        rw [live]
        simp
      have here : index + values.length = (front ++ values.map some).length := by
        simp [position]
      have rest : (memory.put block ((front ++ values.map some) ++ none :: back)).cells block =
          some ((front ++ values.map some) ++ none :: back) := Heap.put_cells_self last
      rw [List.length_append, List.length_singleton, forDown, runs_bind, runs_destroy last here,
        ih (by rw [rest]), Heap.put_put]
      simp [List.replicate_succ', List.append_assoc]

/-- Destroying all objects of a block and giving it back. -/
theorem runs_discard {values : List V} {count room : Nat}
    (live : memory.cells block = some (values.map some ++ List.replicate room none))
    (amount : count = values.length) :
    Runs (forDown 0 (destroy block) count) memory
        (fun _ memory => Runs (deallocate block) memory post raises) raises ↔
      post () (memory.free block) := by
  have start : 0 = ([] : Slots V).length := rfl
  have whole : memory.cells block = some ([] ++ values.map some ++ List.replicate room none) := live
  rw [runs_destroyRange whole start amount, List.nil_append, List.replicate_append_replicate,
    runs_deallocate (Heap.put_cells_self live), Heap.free_put]

end Rules

end Block

end Wan.Library
