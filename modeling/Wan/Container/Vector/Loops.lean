import Wan.Container.Vector.Model

/-!
# The element loops of `Vector`

What each loop over elements does to the blocks that it works on.  The objects of a block are
a list with raw slots behind it; the loops move the border between what is done and what is
left.
-/

namespace Wan.Container.Vector

open Wan.Library Wan.Library.LinkedList Wan.Library.Program

variable {V : Type} {element : Element V} {memory : Memory V} {data target : Addr}
variable {front back tail : Slots V} {values : List V} {first offset : Nat} {value old : V}
variable {post : Unit → Memory V → Prop} {raises : Failure → Memory V → Prop}

/-- What `std::move_if_noexcept` leaves of an object. -/
def left (element : Element V) (value : V) : V :=
  if element.nothrowMove then element.moved value else value

theorem runs_moveIfNoexcept {index : Nat} {value : V} {post : V → Memory V → Prop}
    (live : memory.cells data = some (front ++ some value :: back))
    (position : index = front.length) :
    Runs (moveIfNoexcept element data index) memory post raises ↔
      post value (memory.put data (front ++ some (left element value) :: back)) := by
  rw [moveIfNoexcept, runs_bind, Block.runs_read live position, left]
  by_cases moves : element.nothrowMove
  · rw [if_pos moves, if_pos moves, runs_bind, Block.runs_assign live position, runs_pure]
  · rw [if_neg moves, if_neg moves, Heap.put_self live]
    rfl

/-- Move assignment from the next slot: the object goes one slot down. -/
theorem runs_moveAssign {index next : Nat} {old value : V}
    (live : memory.cells data = some (front ++ some old :: some value :: back))
    (position : index = front.length) (following : next = front.length + 1) :
    Runs (moveAssign element data index next) memory post raises ↔
      post () (memory.put data (front ++ some value :: some (element.moved value) :: back)) := by
  have source : memory.cells data = some ((front ++ [some old]) ++ some value :: back) := by
    rw [live, List.append_assoc, List.singleton_append]
  have behind : next = (front ++ [some old]).length := by simp [following]
  rw [moveAssign, runs_bind, Block.runs_read source behind, runs_bind,
    Block.runs_assign source behind,
    Block.runs_assign (by rw [Heap.put_cells_self source, List.append_assoc]; rfl) position,
    Heap.put_put]
  rfl

variable (front) in
/-- The loop of a reallocation, from `values` in the old block on. -/
theorem runs_relocateLoop (done : List V) {index : Nat} (apart : data ≠ target)
    (old : memory.cells data = some (done.map some ++ values.map some ++ tail))
    (new : memory.cells target =
      some (front ++ List.replicate values.length none ++ back))
    (position : index = done.length) (place : index + offset = front.length) :
    Runs (forUp index (fun index => do
        let value ← moveIfNoexcept element data index
        Block.construct target (index + offset) value) values.length) memory post raises ↔
      post () ((memory.put data ((done ++ values.map (left element)).map some ++ tail)).put target
        (front ++ values.map some ++ back)) := by
  induction values generalizing memory done front index with
  | nil =>
      rw [List.length_nil, forUp, runs_pure]
      rw [List.map_nil, List.append_nil] at old
      rw [List.length_nil, List.replicate_zero] at new
      rw [List.map_nil, List.append_nil, Heap.put_self old, List.map_nil, Heap.put_self new]
  | cons value values ih =>
      have here : memory.cells data =
          some (done.map some ++ some value :: (values.map some ++ tail)) := by
        rw [old, List.append_assoc, List.map_cons, List.cons_append]
      have raw : memory.cells target =
          some (front ++ none :: (List.replicate values.length none ++ back)) := by
        rw [new, List.append_assoc, List.length_cons, List.replicate_succ, List.cons_append]
      rw [List.length_cons, forUp, runs_bind, runs_bind,
        runs_moveIfNoexcept here (by rw [List.length_map, position]),
        Block.runs_construct (by rw [Heap.put_cells_ne apart.symm, raw]) place,
        ih (front ++ [some value]) (done ++ [left element value])]
      · rw [Heap.put_comm apart.symm, Heap.put_put, Heap.put_comm apart, Heap.put_put]
        simp
      · rw [Heap.put_cells_ne apart, Heap.put_cells_self here]
        simp
      · rw [Heap.put_cells_self (by rw [Heap.put_cells_ne apart.symm, raw])]
        simp
      · simp [position]
      · rw [List.length_append, List.length_singleton, ← place]
        omega

variable (front) in
/-- Objects that are constructed one after the other from values that no step changes. -/
theorem runs_constructs {value : Nat → Method V V} {place : Nat → Nat} {count : Nat}
    (stable : Memory V → Prop)
    (kept : ∀ memory slots, stable memory → stable (memory.put target (front ++ slots)))
    (reads : ∀ index here, values[index]? = some here → ∀ memory, stable memory →
      ∀ post raises, Runs (value (first + index)) memory post raises ↔ post here memory)
    (holds : stable memory)
    (live : memory.cells target = some (front ++ List.replicate values.length none ++ back))
    (position : ∀ index, place (first + index) = front.length + index)
    (amount : count = values.length) :
    Runs (forUp first (fun index => do Block.construct target (place index) (← value index))
        count) memory post raises ↔
      post () (memory.put target (front ++ values.map some ++ back)) := by
  subst amount
  induction values generalizing memory front first with
  | nil =>
      rw [List.length_nil, forUp, runs_pure]
      rw [List.length_nil, List.replicate_zero] at live
      rw [List.map_nil, Heap.put_self live]
  | cons here values ih =>
      have raw : memory.cells target =
          some (front ++ none :: (List.replicate values.length none ++ back)) := by
        rw [live, List.append_assoc, List.length_cons, List.replicate_succ, List.cons_append]
      have reading := fun post raises => reads 0 here rfl memory holds post raises
      have start : place first = front.length := position 0
      rw [Nat.add_zero] at reading
      rw [List.length_cons, forUp, runs_bind, runs_bind, reading,
        Block.runs_construct raw start, ih (front ++ [some here])]
      · rw [Heap.put_put]
        simp
      · intro memory slots holds
        rw [List.append_assoc]
        exact kept memory _ holds
      · intro index next found
        rw [Nat.add_right_comm, Nat.add_assoc]
        exact reads (index + 1) next found
      · exact kept memory _ holds
      · rw [Heap.put_cells_self raw]
        simp
      · intro index
        rw [Nat.add_right_comm, Nat.add_assoc, position, List.length_append, List.length_singleton]
        omega

variable (front old) in
/-- Objects move one slot down, over the object at `front`, and the last one is destroyed. -/
theorem runs_closeGap {last : Nat}
    (live : memory.cells data = some (front ++ some old :: values.map some ++ back))
    (position : first = front.length) (ending : last = first + values.length) :
    Runs (forUp first (fun current => moveAssign element data current (current + 1)) values.length)
        memory (fun _ memory => Runs (Block.destroy data last) memory post raises) raises ↔
      post () (memory.put data (front ++ values.map some ++ none :: back)) := by
  induction values generalizing memory front first old with
  | nil =>
      rw [List.map_nil, List.append_assoc, List.cons_append, List.nil_append] at live
      rw [List.length_nil, forUp, runs_pure,
        Block.runs_destroy live (by rw [ending, position]; rfl)]
      simp
  | cons value values ih =>
      have here : memory.cells data =
          some (front ++ some old :: some value :: (values.map some ++ back)) := by
        rw [live]
        simp
      rw [List.length_cons] at ending
      rw [List.length_cons, forUp, runs_bind, runs_moveAssign here position (by rw [position]),
        ih (front ++ [some value]) (element.moved value)]
      · rw [Heap.put_put]
        simp
      · rw [Heap.put_cells_self here]
        simp
      · simp [position]
      · omega

/-- Objects move one slot up, from the slot before `tail` on: the first slot is free for an
assignment and holds some object. -/
theorem runs_openGap {behind : V}
    (live : memory.cells data = some (values.map some ++ some behind :: tail))
    (every : ∀ before, post () (memory.put data (some before :: values.map some ++ tail))) :
    Runs (forDown 1 (fun index => do
        Block.assign data index (← moveIfNoexcept element data (index - 1))) values.length)
      memory post raises := by
  induction values using List.reverseRecOn generalizing memory behind tail with
  | nil =>
      rw [List.length_nil, forDown, runs_pure]
      have same := every behind
      rwa [List.map_nil, List.singleton_append, Heap.put_self] at same
      exact live
  | append_singleton values value ih =>
      have here : memory.cells data =
          some (values.map some ++ some value :: (some behind :: tail)) := by
        rw [live]
        simp
      have moved : (memory.put data (values.map some ++ some (left element value) ::
          some behind :: tail)).cells data =
            some ((values.map some ++ [some (left element value)]) ++ some behind :: tail) := by
        rw [Heap.put_cells_self here, List.append_assoc, List.singleton_append]
      have shifted : (memory.put data ((values.map some ++ [some (left element value)]) ++
          some value :: tail)).cells data =
            some (values.map some ++ some (left element value) :: (some value :: tail)) := by
        rw [Heap.put_cells_self here, List.append_assoc, List.singleton_append]
      rw [List.length_append, List.length_singleton, forDown, runs_bind, runs_bind,
        runs_moveIfNoexcept here (by simp [Nat.add_comm]),
        Block.runs_assign moved (by simp [Nat.add_comm]), Heap.put_put]
      refine ih shifted ?_
      intro before
      rw [Heap.put_put]
      simpa using every before

end Wan.Container.Vector
