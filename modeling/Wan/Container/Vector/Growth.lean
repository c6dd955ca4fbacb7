import Wan.Container.Vector.Loops

/-!
# The storage of a `Vector`

What the pointers of a vector stand for, and the reallocations: the new block gets the new
objects first and the old ones after that, so that an argument may stand in the old block.
-/

namespace Wan.Container.Vector

open Wan.Library Wan.Library.LinkedList Wan.Library.Program

variable {V : Type} (element : Element V)

/-- The slots of a block that holds a list: exactly those below the size are live. -/
def slotsOf (list : List V) (capacity : Nat) : Slots V :=
  list.map some ++ List.replicate (capacity - list.length) none

/-- The pointers stand for a list. -/
structure Represents (memory : Memory V) (vector : Vector) (list : List V) : Prop where
  size : vector.size = list.length
  bound : vector.size ≤ vector.capacity
  limit : vector.capacity ≤ element.maxSize
  absent : vector.data = none → vector.capacity = 0
  slots : ∀ data, vector.data = some data →
    memory.cells data = some (slotsOf list vector.capacity)

/-- A vector that a method leaves behind: it stands for a list, its block is the old one or a
new one, an old block that is not kept is released, and other blocks are left alone. -/
structure Yields (memory : Memory V) (vector : Vector) (list : List V) (result : Vector)
    (later : Memory V) : Prop where
  represents : Represents element later result list
  fresh : ∀ block, result.data = some block → vector.data = some block ∨ memory.cells block = none
  released : ∀ block, vector.data = some block → result.data ≠ some block →
    later.cells block = none
  others : ∀ block, vector.data ≠ some block → result.data ≠ some block →
    later.cells block = memory.cells block

/-- The same for a method that does not give up capacity. -/
structure Grows (memory : Memory V) (vector : Vector) (list : List V) (result : Vector)
    (later : Memory V) : Prop extends Yields element memory vector list result later where
  capacity : vector.capacity ≤ result.capacity

/-- The program ends without an exception. -/
abbrev Returns {α : Type} (program : Method V α) (memory : Memory V)
    (post : α → Memory V → Prop) : Prop := Runs program memory post fun _ _ => False

variable {element} {memory later : Memory V} {vector result : Vector} {list new : List V}
variable {data newData : Addr}

theorem Represents.empty : Represents element memory Vector.empty ([] : List V) :=
  ⟨rfl, Nat.le_refl _, Nat.zero_le _, fun _ => rfl, nofun⟩

/-- Without a block there are no elements. -/
theorem Represents.eq_nil (represents : Represents element memory vector list)
    (absent : vector.data = none) : list = [] := by
  have bound := represents.bound
  rw [represents.absent absent, represents.size] at bound
  exact List.length_eq_zero_iff.mp (Nat.le_zero.mp bound)

/-- Only the block of the vector matters. -/
theorem Represents.congr (represents : Represents element memory vector list)
    (same : ∀ data, vector.data = some data → later.cells data = memory.cells data) :
    Represents element later vector list :=
  { represents with
    slots := fun data there => (same data there).trans (represents.slots data there) }

theorem Grows.refl (represents : Represents element memory vector list) :
    Grows element memory vector list vector memory where
  represents := represents
  fresh _ there := .inl there
  released _ there absent := absurd there absent
  others _ _ _ := rfl
  capacity := Nat.le_refl _

theorem pointer_eq (there : vector.data = some data) :
    (vector.pointer : Method V Addr) = pure data := by
  rw [pointer, there]

/-- A change within the block of the vector. -/
theorem Grows.put {size : Nat} {slots : Slots V}
    (represents : Represents element memory vector list) (there : vector.data = some data)
    (count : size = new.length) (bound : new.length ≤ vector.capacity)
    (content : slots = slotsOf new vector.capacity) :
    Grows element memory vector new { vector with size := size } (memory.put data slots) := by
  subst count content
  have live := represents.slots data there
  constructor
  · constructor
    · constructor
      · rfl
      · exact bound
      · exact represents.limit
      · exact represents.absent
      · intro block here
        cases there.symm.trans here
        exact Heap.put_cells_self live
    · exact fun _ here => .inl here
    · exact fun _ here absent => absurd here absent
    · intro block apart _
      apply Heap.put_cells_ne
      rintro rfl
      exact apart there
  · exact Nat.le_refl _

theorem grownCapacity_le {maximum capacity required : Nat} (fits : required ≤ maximum) :
    grownCapacity maximum capacity required ≤ maximum := by
  unfold grownCapacity
  grind

theorem le_grownCapacity {maximum capacity required : Nat} :
    required ≤ grownCapacity maximum capacity required := by
  unfold grownCapacity
  grind

theorem returns_growthCapacity {required : Nat} {post : Nat → Memory V → Prop}
    (fits : required ≤ element.maxSize)
    (every : post (grownCapacity element.maxSize vector.capacity required) memory) :
    Returns (vector.growthCapacity element required) memory post := by
  rw [Returns, growthCapacity, runs_bind, runs_refuse]
  exact ⟨fun exceeds => absurd fits (Nat.not_le_of_lt exceeds), fun _ => every⟩

section Relocation

variable {front back : Slots V} {newSize newCapacity offset : Nat}

/-- The end of a reallocation: the old objects stand in the new block, and the old block is
released. -/
theorem returns_relocate (represents : Represents element memory vector list)
    (apart : vector.data ≠ some newData) (place : offset = front.length)
    (new : memory.cells newData =
      some (front ++ List.replicate list.length none ++ back)) :
    Returns (do
        vector.relocate element newData offset
        vector.adopt newData newSize newCapacity) memory fun result later =>
      result = ⟨some newData, newSize, newCapacity⟩ ∧
        later.cells newData = some (front ++ list.map some ++ back) ∧
          (∀ block, vector.data = some block → later.cells block = none) ∧
            ∀ block, vector.data ≠ some block → newData ≠ block →
              later.cells block = memory.cells block := by
  rw [Returns, runs_bind, relocate, adopt, represents.size]
  cases there : vector.data with
  | none =>
      have nil := represents.eq_nil there
      subst nil
      rw [List.length_nil, forUp, runs_pure]
      refine ⟨rfl, by simpa using new, fun _ absurd => ?_, fun _ _ _ => rfl⟩
      cases absurd
  | some data =>
      have live := represents.slots data there
      have different : data ≠ newData := fun same => apart (there.trans (congrArg some same))
      rw [slotsOf, ← List.nil_append (list.map some), ← List.map_nil] at live
      simp only [pointer_eq there, pure_bind]
      have start : 0 = ([] : List V).length := rfl
      have moved : ((memory.put data ((list.map (left element)).map some ++
          List.replicate (vector.capacity - list.length) none)).put newData
            (front ++ list.map some ++ back)).cells data =
          some ((list.map (left element)).map some ++
            List.replicate (vector.capacity - list.length) none) := by
        rw [Heap.put_cells_ne different, Heap.put_cells_self live]
      have length : list.length = (list.map (left element)).length := (List.length_map _).symm
      rw [runs_relocateLoop front [] different live new start (by rw [Nat.zero_add, place]),
        List.nil_append]
      simp only [runs_bind, runs_pure, destroyRange]
      rw [Block.runs_discard moved length]
      refine ⟨trivial, ?_, ?_, ?_⟩
      · rw [Heap.free_cells, Function.update_of_ne different.symm,
          Heap.put_cells_self (by rw [Heap.put_cells_ne different.symm, new])]
      · rintro block ⟨⟩
        exact Function.update_self ..
      · intro block old fresh
        have other : block ≠ data := fun same => old (congrArg some same.symm)
        rw [Heap.free_cells, Function.update_of_ne other, Heap.put_cells_ne fresh.symm,
          Heap.put_cells_ne other]

end Relocation

/-- What evaluating an argument does to the block that it stands in. -/
structure Touch (V : Type) where
  block : Addr
  before : Slots V
  after : Slots V

/-- The memory after an argument was evaluated. -/
def touched (memory : Memory V) : Option (Touch V) → Memory V
  | none => memory
  | some touch => memory.put touch.block touch.after

/-- The block of an argument is as expected. -/
def Ready (memory : Memory V) (touch : Option (Touch V)) : Prop :=
  ∀ there ∈ touch, memory.cells there.block = some there.before

/-- Evaluating an argument gives an object. -/
def Supplies (value : Method V V) (here : V) (touch : Option (Touch V)) : Prop :=
  ∀ memory, Ready memory touch → ∀ post raises,
    Runs value memory post raises ↔ post here (touched memory touch)

/-- The argument does not stand in the block. -/
def Apart (block : Addr) (touch : Option (Touch V)) : Prop := ∀ there ∈ touch, there.block ≠ block

section Touch

variable {touch : Option (Touch V)} {block other : Addr} {slots : Slots V}

theorem touched_cells (apart : Apart block touch) :
    (touched memory touch).cells block = memory.cells block := by
  cases touch with
  | none => rfl
  | some there => exact Heap.put_cells_ne (apart there rfl).symm

theorem touched_put (apart : Apart block touch) :
    touched (memory.put block slots) touch = (touched memory touch).put block slots := by
  cases touch with
  | none => rfl
  | some there => exact Heap.put_comm (apart there rfl)

/-- Evaluating an argument does not depend on another block. -/
theorem touched_congr (same : memory.cells other = later.cells other) :
    (touched memory touch).cells other = (touched later touch).cells other := by
  cases touch with
  | none => exact same
  | some there =>
      by_cases equal : other = there.block
      · subst equal
        rw [touched, touched, Heap.put, Heap.put, Heap.adjust_cells, Heap.adjust_cells,
          Function.update_self, Function.update_self, same]
      · rw [touched, touched, Heap.put_cells_ne equal, Heap.put_cells_ne equal, same]

theorem Ready.congr (ready : Ready memory touch) (apart : Apart block touch)
    (same : ∀ other ≠ block, later.cells other = memory.cells other) : Ready later touch :=
  fun there member => (same _ (apart there member)).trans (ready there member)

/-- An argument does not stand in a new block. -/
theorem Ready.apart_next (ready : Ready memory touch) : Apart memory.next touch :=
  fun there member => Nat.ne_of_lt (Heap.lt_next (ready there member))

theorem Ready.put (ready : Ready memory touch) (apart : Apart block touch) :
    Ready (memory.put block slots) touch :=
  ready.congr apart fun _ other => Heap.put_cells_ne other

theorem Ready.alloc (ready : Ready memory touch) : Ready (memory.alloc slots) touch := by
  apply ready.congr ready.apart_next
  intro other fresh
  rw [Heap.alloc_cells, Function.update_of_ne fresh]

/-- A new block is there after the argument was evaluated. -/
theorem Ready.alloc_cells (ready : Ready memory touch) :
    (touched (memory.alloc slots) touch).cells memory.next = some slots := by
  rw [touched_cells ready.apart_next, Heap.alloc_cells, Function.update_self]

end Touch

section Reallocation

variable {touch : Option (Touch V)} {newSize newCapacity : Nat} {tail : List V}

/-- A vector whose list was built in a new block. -/
theorem Grows.of_relocated (unused : memory.cells newData = none)
    (size : newSize = new.length) (bound : newSize ≤ newCapacity)
    (limit : newCapacity ≤ element.maxSize) (more : vector.capacity ≤ newCapacity)
    (slots : later.cells newData = some (slotsOf new newCapacity))
    (released : ∀ block, vector.data = some block → later.cells block = none)
    (others : ∀ block, vector.data ≠ some block → newData ≠ block →
      later.cells block = memory.cells block) :
    Grows element memory vector new ⟨some newData, newSize, newCapacity⟩ later := by
  constructor
  · constructor
    · constructor
      · exact size
      · exact bound
      · exact limit
      · nofun
      · rintro block ⟨⟩
        exact slots
    · rintro block ⟨⟩
      exact .inr unused
    · exact fun block old _ => released block old
    · intro block old fresh
      exact others block old fun same => fresh (congrArg some same)
  · exact more

/-- From the construction of the new objects on, a reallocation gives the new list. -/
theorem grows_relocate {middle : Memory V} {front back : Slots V} {offset : Nat}
    (represents : Represents element memory vector list)
    (unused : memory.cells newData = none)
    (others : ∀ block ≠ newData, middle.cells block = memory.cells block)
    (place : offset = front.length)
    (built : middle.cells newData = some (front ++ List.replicate list.length none ++ back))
    (slots : front ++ list.map some ++ back = slotsOf new newCapacity)
    (size : newSize = new.length) (bound : newSize ≤ newCapacity)
    (limit : newCapacity ≤ element.maxSize) (more : vector.capacity ≤ newCapacity) :
    Returns (do
        vector.relocate element newData offset
        vector.adopt newData newSize newCapacity) middle fun result later =>
      Grows element memory vector new result later ∧ result.capacity = newCapacity := by
  have old : ∀ data, vector.data = some data → data ≠ newData := by
    rintro data there rfl
    rw [represents.slots data there] at unused
    cases unused
  have kept := represents.congr fun data there => others data (old data there)
  apply (returns_relocate kept (fun there => old _ there rfl) place built).mono ?_ fun _ _ => id
  rintro _ later ⟨rfl, final, released, rest⟩
  rw [slots] at final
  refine ⟨Grows.of_relocated unused size bound limit more final released ?_, rfl⟩
  intro block apart fresh
  rw [rest block apart fresh, others block fresh.symm]

theorem replicate_split {total count : Nat} (enough : count ≤ total) :
    (List.replicate total none : Slots V) =
      List.replicate count none ++ List.replicate (total - count) none := by
  rw [List.replicate_append_replicate, Nat.add_sub_cancel' enough]

theorem replicate_split_cons {total count : Nat} (room : count < total) :
    (List.replicate total none : Slots V) =
      List.replicate count none ++ none :: List.replicate (total - (count + 1)) none := by
  rw [replicate_split (Nat.le_of_lt room), ← List.replicate_succ, ← Nat.sub_sub,
    Nat.sub_add_cancel (Nat.sub_pos_of_lt room)]

/-- A reallocation appends what `constructTail` constructs behind the place of the old
objects. -/
theorem returns_reallocateWithTail {constructTail : Addr → Nat → Method V Unit}
    (represents : Represents element memory vector list) (ready : Ready memory touch)
    (apart : ∀ data, vector.data = some data → Apart data touch)
    (size : newSize = list.length + tail.length) (fits : newSize ≤ element.maxSize)
    (more : vector.capacity ≤ newSize)
    (constructs : ∀ capacity, newSize ≤ capacity →
      Returns (constructTail memory.next list.length) (memory.alloc (List.replicate capacity none))
        fun _ later => later =
          (touched (memory.alloc (List.replicate capacity none)) touch).put memory.next
            (List.replicate list.length none ++ tail.map some ++
              List.replicate (capacity - newSize) none)) :
    Returns (vector.reallocateWithTail element newSize constructTail) memory
      (Grows element (touched memory touch) vector (list ++ tail)) := by
  rw [reallocateWithTail, Returns, runs_bind]
  apply returns_growthCapacity fits
  have enough : newSize ≤ grownCapacity element.maxSize vector.capacity newSize := le_grownCapacity
  have limit : grownCapacity element.maxSize vector.capacity newSize ≤ element.maxSize :=
    grownCapacity_le fits
  generalize grownCapacity element.maxSize vector.capacity newSize = newCapacity at *
  rw [runs_bind, Block.runs_allocate, runs_bind, represents.size]
  apply (constructs newCapacity enough).mono ?_ fun _ _ => id
  rintro _ middle rfl
  have unused : (touched memory touch).cells memory.next = none := by
    rw [touched_cells ready.apart_next, memory.fresh _ (Nat.le_refl _)]
  have kept : Represents element (touched memory touch) vector list :=
    represents.congr fun data there => touched_cells (apart data there)
  have built : ∀ slots, ((touched (memory.alloc (List.replicate newCapacity none)) touch).put
      memory.next slots).cells memory.next = some slots :=
    fun _ => Heap.put_cells_self ready.alloc_cells
  have start : 0 = ([] : Slots V).length := rfl
  rw [List.append_assoc]
  refine (grows_relocate kept unused ?_ start (built _) ?_ ?_ enough limit
    (Nat.le_trans more enough)).mono (fun _ _ => And.left) fun _ _ => id
  · intro block other
    rw [Heap.put_cells_ne other]
    apply touched_congr
    rw [Heap.alloc_cells, Function.update_of_ne other]
  · rw [slotsOf, List.length_append, size, List.map_append, List.nil_append, List.append_assoc]
  · rw [List.length_append, size]

end Reallocation

end Wan.Container.Vector
