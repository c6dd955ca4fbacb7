import Wan.Library.Slots

/-!
# Buffers of plain values

Blocks whose slots hold plain values, or nothing that may be read.  Slots are overwritten as a
range, copied and moved within and between blocks; what is outside of a block, and an overlap
that `memcpy` does not allow, has no behaviour.  An allocation may fail.
-/

namespace Wan.Library

open LinkedList

theorem LinkedList.Heap.alloc_put {N : Type} {heap : Heap N} {node later : N} :
    (heap.alloc node).put heap.next later = heap.alloc later := by
  refine Heap.ext_cells ?_ rfl
  rw [Heap.put, Heap.adjust_cells, Heap.alloc_cells, Heap.alloc_cells, Function.update_self,
    Function.update_idem]
  rfl

/-- The blocks, and how many allocations are still going to succeed; `none` stands for all. -/
structure Buffers (V : Type) where
  memory : Memory V
  budget : Option Nat

namespace Buffers

variable {V : Type}

/-- Replace the slots of a block. -/
def put (buffers : Buffers V) (block : Addr) (slots : Slots V) : Buffers V :=
  { buffers with memory := buffers.memory.put block slots }

/-- Add a block. -/
def alloc (buffers : Buffers V) (slots : Slots V) : Buffers V :=
  { buffers with memory := buffers.memory.alloc slots }

/-- Give a block back. -/
def free (buffers : Buffers V) (block : Addr) : Buffers V :=
  { buffers with memory := buffers.memory.free block }

end Buffers

/-- The values up to the first zero, if one comes before the end of what may be read. -/
def cString {V : Type} [DecidableEq V] (zero : V) : Slots V → Option (List V)
  | [] => none
  | none :: _ => none
  | some value :: rest => if value = zero then some [] else (value :: ·) <$> cString zero rest

theorem cString_eq {V : Type} [DecidableEq V] (zero : V) (values : List V) (rest : Slots V) :
    cString zero (values.map some ++ some zero :: rest) =
      some (values.takeWhile fun value => value ≠ zero) := by
  induction values with
  | nil => rw [List.map_nil, List.nil_append, cString, if_pos rfl, List.takeWhile_nil]
  | cons value values ih =>
      rw [List.map_cons, List.cons_append, cString, ih]
      by_cases same : value = zero
      · simp [same]
      · simp [same]

/-- A buffer with a zero holds the values up to the first one as a C string. -/
theorem exists_terminated {V : Type} [DecidableEq V] (zero : V) (values : List V)
    (behind : Slots V) : ∃ rest, values.map some ++ some zero :: behind =
      (values.takeWhile fun value => value ≠ zero).map some ++ some zero :: rest := by
  induction values with
  | nil => exact ⟨behind, rfl⟩
  | cons value values ih =>
      by_cases same : value = zero
      · exact ⟨values.map some ++ some zero :: behind, by simp [same]⟩
      · obtain ⟨rest, split⟩ := ih
        refine ⟨rest, ?_⟩
        rw [List.map_cons, List.cons_append, split, List.takeWhile_cons,
          if_pos (by simpa using same)]
        rfl

namespace Buffer

variable {V ε : Type}

/-- The slots of a block that is allocated. -/
def slots (block : Addr) : Program (Buffers V) ε (Slots V) := do
  match (← get).memory.cells block with
  | some slots => pure slots
  | none => Program.stuck

/-- Count an allocation, which fails when the budget is used up. -/
def spend (exception : ε) : Program (Buffers V) ε Unit := do
  match (← get).budget with
  | none => pure ()
  | some 0 => throw exception
  | some (left + 1) => modify fun buffers => { buffers with budget := some left }

/-- Get a block. -/
def allocate (exception : ε) (content : Slots V) : Program (Buffers V) ε Addr := do
  spend exception
  let buffers ← get
  set (buffers.alloc content)
  return buffers.memory.next

/-- Give a block back. -/
def deallocate (block : Addr) : Program (Buffers V) ε Unit := do
  let _ ← slots block
  modify fun buffers => buffers.free block

/-- A range of slots. -/
def range (block : Addr) (first count : Nat) : Program (Buffers V) ε (Slots V) := do
  let slots ← slots block
  if first + count ≤ slots.length then pure ((slots.drop first).take count) else Program.stuck

/-- Overwrite a range of slots. -/
def place (block : Addr) (offset : Nat) (content : Slots V) : Program (Buffers V) ε Unit := do
  let slots ← slots block
  if offset + content.length ≤ slots.length then
    modify fun buffers => buffers.put block
      (slots.take offset ++ content ++ slots.drop (offset + content.length))
  else Program.stuck

/-- Read a slot. -/
def read (block : Addr) (index : Nat) : Program (Buffers V) ε V := do
  match (← slots block)[index]? with
  | some (some value) => pure value
  | _ => Program.stuck

/-- Write values that are no part of a block. -/
def store (block : Addr) (offset : Nat) (values : List V) : Program (Buffers V) ε Unit :=
  place block offset (values.map some)

/-- Write one value. -/
def write (block : Addr) (index : Nat) (value : V) : Program (Buffers V) ε Unit :=
  store block index [value]

/-- `memmove`. -/
def move (target : Addr) (offset : Nat) (source : Addr) (first count : Nat) :
    Program (Buffers V) ε Unit := do
  place target offset (← range source first count)

/-- `memcpy`, for ranges that do not overlap. -/
def copy (target : Addr) (offset : Nat) (source : Addr) (first count : Nat) :
    Program (Buffers V) ε Unit :=
  if target = source ∧ first < offset + count ∧ offset < first + count then Program.stuck
  else move target offset source first count

/-- The C string that begins at a slot. -/
def text [DecidableEq V] (zero : V) (block : Addr) (offset : Nat) :
    Program (Buffers V) ε (List V) := do
  match cString zero ((← slots block).drop offset) with
  | some text => pure text
  | none => Program.stuck

section Rules

open Program

variable {memory : Memory V} {budget : Option Nat} {block source : Addr} {exception : ε}
variable {offset first count index : Nat} {value : V} {values : List V}
variable {front old back content all here before behind : Slots V}
variable {post : Unit → Buffers V → Prop} {raises : ε → Buffers V → Prop}

theorem runs_slots {post : Slots V → Buffers V → Prop} (live : memory.cells block = some all) :
    Runs (slots block) ⟨memory, budget⟩ post raises ↔ post all ⟨memory, budget⟩ := by
  simp [slots, live]

/-- A block that was given back has no behaviour. -/
theorem runs_read_dangling {post : V → Buffers V → Prop} (dead : memory.cells block = none) :
    Runs (read block index) ⟨memory, budget⟩ post raises ↔ False := by
  simp [read, slots, dead]

theorem runs_spend : Runs (spend exception) ⟨memory, budget⟩ post raises ↔
    (budget = some 0 → raises exception ⟨memory, budget⟩) ∧
      (budget = none → post () ⟨memory, budget⟩) ∧
        ∀ left, budget = some (left + 1) → post () ⟨memory, some left⟩ := by
  rw [spend, runs_bind, runs_get]
  split
  next all =>
    cases show budget = none from all
    simp
  next nothing =>
    cases show budget = some 0 from nothing
    simp
  next left some =>
    cases show budget = Option.some (left + 1) from some
    simp

theorem runs_allocate {post : Addr → Buffers V → Prop} :
    Runs (allocate exception content) ⟨memory, budget⟩ post raises ↔
      Runs (spend exception) ⟨memory, budget⟩
        (fun _ later => post later.memory.next ⟨later.memory.alloc content, later.budget⟩)
        raises := by
  rw [allocate, runs_bind]
  simp only [runs_bind, runs_get, runs_set, runs_pure]
  rfl

theorem runs_deallocate (live : memory.cells block = some all) :
    Runs (deallocate block) ⟨memory, budget⟩ post raises ↔
      post () ⟨memory.free block, budget⟩ := by
  rw [deallocate, runs_bind, runs_slots live, runs_modify]
  rfl

theorem runs_range {post : Slots V → Buffers V → Prop}
    (live : memory.cells block = some (front ++ here ++ back)) (position : first = front.length)
    (amount : count = here.length) :
    Runs (range block first count) ⟨memory, budget⟩ post raises ↔
      post here ⟨memory, budget⟩ := by
  have within : first + count ≤ (front ++ here ++ back).length := by
    simp only [List.length_append]
    omega
  rw [range, runs_bind, runs_slots live, if_pos within, runs_pure, position, amount,
    List.append_assoc, List.drop_left, List.take_left]

theorem runs_place (live : memory.cells block = some (front ++ old ++ back))
    (position : offset = front.length) (amount : content.length = old.length) :
    Runs (place block offset content) ⟨memory, budget⟩ post raises ↔
      post () ⟨memory.put block (front ++ content ++ back), budget⟩ := by
  have within : offset + content.length ≤ (front ++ old ++ back).length := by
    simp only [List.length_append]
    omega
  have before : (front ++ old ++ back).take offset = front := by
    rw [position, List.append_assoc, List.take_left]
  have behind : (front ++ old ++ back).drop (offset + content.length) = back := by
    rw [position, amount, ← List.length_append, List.drop_left]
  rw [place, runs_bind, runs_slots live, if_pos within, runs_modify, before, behind]
  rfl

theorem runs_read {post : V → Buffers V → Prop} (live : memory.cells block = some all)
    (stands : all[index]? = some (some value)) :
    Runs (read block index) ⟨memory, budget⟩ post raises ↔ post value ⟨memory, budget⟩ := by
  rw [read, runs_bind, runs_slots live, stands, runs_pure]

theorem runs_store (live : memory.cells block = some (front ++ old ++ back))
    (position : offset = front.length) (amount : values.length = old.length) :
    Runs (store block offset values) ⟨memory, budget⟩ post raises ↔
      post () ⟨memory.put block (front ++ values.map some ++ back), budget⟩ := by
  rw [store, runs_place live position (by rw [List.length_map, amount])]

theorem runs_write {slot : Option V} (live : memory.cells block = some (front ++ slot :: back))
    (position : index = front.length) :
    Runs (write block index value) ⟨memory, budget⟩ post raises ↔
      post () ⟨memory.put block (front ++ some value :: back), budget⟩ := by
  have split : memory.cells block = some (front ++ [slot] ++ back) := by
    rw [live, List.append_assoc]
    rfl
  rw [write, runs_store split position rfl, List.append_assoc]
  rfl

theorem runs_move (given : memory.cells source = some (before ++ here ++ behind))
    (start : first = before.length) (amount : count = here.length)
    (live : memory.cells block = some (front ++ old ++ back)) (position : offset = front.length)
    (room : here.length = old.length) :
    Runs (move block offset source first count) ⟨memory, budget⟩ post raises ↔
      post () ⟨memory.put block (front ++ here ++ back), budget⟩ := by
  rw [move, runs_bind, runs_range given start amount, runs_place live position room]

/-- Between two blocks `memcpy` is `memmove`. -/
theorem copy_of_ne (apart : block ≠ source) :
    (copy block offset source first count : Program (Buffers V) ε Unit) =
      move block offset source first count := by
  rw [copy, if_neg]
  exact fun overlap => apart overlap.1

theorem runs_text [DecidableEq V] {zero : V} {post : List V → Buffers V → Prop}
    {earlier : List V}
    (live : memory.cells block = some ((earlier ++ values).map some ++ some zero :: back))
    (position : offset = earlier.length) :
    Runs (text zero block offset) ⟨memory, budget⟩ post raises ↔
      post (values.takeWhile fun value => value ≠ zero) ⟨memory, budget⟩ := by
  have rest : ((earlier ++ values).map some ++ some zero :: back).drop offset =
      values.map some ++ some zero :: back := by
    rw [position, List.map_append, List.append_assoc, ← List.length_map (some : V → Option V),
      List.drop_left]
  rw [text, runs_bind, runs_slots live, rest, cString_eq, runs_pure]

end Rules

end Buffer

end Wan.Library
