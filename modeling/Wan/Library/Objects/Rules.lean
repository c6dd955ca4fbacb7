import Wan.Library.Objects.Model

/-!
# Rules for programs over objects

What a step does to what a program can see of a storage: `Looks` leaves out the clock, the
destroyed objects, and which values the objects on the stack have.  `Filling` follows a block
some part of which is filled.
-/

namespace Wan.Library

open LinkedList Program

/-- The blocks that are allocated, by their addresses. -/
abbrev Cells (V : Type) := Addr → Option (Slots (Object V))

namespace Storage

variable {V F ε : Type}

/-- The fields, the blocks and the numbers of the objects on the stack. -/
structure Looks (fields : F) (cells : Cells V) (locals : List Nat) (storage : Storage V F) :
    Prop where
  fields : storage.fields = fields
  cells : storage.memory.cells = cells
  locals : storage.locals.map Object.serial = locals

theorem looks_self (storage : Storage V F) :
    Looks storage.fields storage.memory.cells (storage.locals.map Object.serial) storage :=
  ⟨rfl, rfl, rfl⟩

namespace Looks

variable {fields : F} {cells : Cells V} {locals : List Nat} {storage : Storage V F}
variable {block : Addr} {index count : Nat} {front back all : Slots (Object V)} {value : V}
variable {old : Object V} {post : Unit → Storage V F → Prop} {raises : ε → Storage V F → Prop}

theorem put (looks : Looks fields cells locals storage) (live : cells block = some all)
    (new : Slots (Object V)) : (storage.memory.put block new).cells =
      Function.update cells block (some new) := by
  rw [Heap.put, Heap.adjust_cells, looks.cells, live]
  rfl

theorem runs_getFields (looks : Looks fields cells locals storage)
    {post : F → Storage V F → Prop} (every : post fields storage) :
    Runs getFields storage post raises := by
  rw [getFields, runs_bind, runs_get, runs_pure, looks.fields]
  exact every

theorem runs_modifyFields (looks : Looks fields cells locals storage) {change : F → F}
    (every : ∀ next, Looks (change fields) cells locals next → post () next) :
    Runs (modifyFields change) storage post raises := by
  rw [modifyFields, runs_modify]
  exact every _ ⟨congrArg change looks.fields, looks.cells, looks.locals⟩

theorem runs_attempt (looks : Looks fields cells locals storage) {faults : Nat → Bool}
    {safe : Bool} {exception : ε} (every : ∀ next, Looks fields cells locals next → post () next)
    (fails : safe = false → ∀ next, Looks fields cells locals next → raises exception next) :
    Runs (attempt faults safe exception) storage post raises := by
  have ticked : Looks fields cells locals { storage with clock := storage.clock + 1 } :=
    ⟨looks.fields, looks.cells, looks.locals⟩
  rw [attempt, runs_bind, runs_get, runs_bind, runs_set, runs_refuse]
  exact ⟨fun due => fails due.1 _ ticked, fun _ => every _ ticked⟩

theorem runs_allocate (looks : Looks fields cells locals storage) {capacity : Nat}
    {post : Addr → Storage V F → Prop}
    (every : ∀ block next, cells block = none → Looks fields
      (Function.update cells block (some (List.replicate capacity none))) locals next →
        post block next) :
    Runs (allocate capacity) storage post raises := by
  rw [allocate, runs_bind, runs_get, runs_bind, runs_set, runs_pure]
  apply every
  · rw [← looks.cells]
    exact storage.memory.fresh _ (Nat.le_refl _)
  · exact ⟨looks.fields, by rw [Heap.alloc_cells, looks.cells], looks.locals⟩

theorem runs_slots (looks : Looks fields cells locals storage) (live : cells block = some all)
    {post : Slots (Object V) → Storage V F → Prop} :
    Runs (slots block) storage post raises ↔ post all storage := by
  have found : storage.memory.cells block = some all := by rw [looks.cells, live]
  rw [slots, runs_bind, runs_get, found, runs_pure]

theorem runs_deallocate (looks : Looks fields cells locals storage)
    (raw : cells block = some (List.replicate count none))
    (every : ∀ next, Looks fields (Function.update cells block none) locals next →
      post () next) : Runs (deallocate block) storage post raises := by
  rw [deallocate, runs_bind, looks.runs_slots raw, if_pos (by simp), runs_modify]
  exact every _ ⟨looks.fields, by rw [Heap.free_cells, looks.cells], looks.locals⟩

theorem runs_construct (looks : Looks fields cells locals storage)
    (live : cells block = some (front ++ none :: back)) (position : index = front.length)
    (every : ∀ object next, Looks fields
      (Function.update cells block (some (front ++ some object :: back))) locals next →
        post () next) :
    Runs (construct block index value) storage post raises := by
  rw [construct, runs_bind, looks.runs_slots live, getElem?_at position, runs_modify]
  apply every ⟨storage.born, value⟩
  exact ⟨looks.fields, by rw [set_at position, looks.put live], looks.locals⟩

theorem runs_destroy (looks : Looks fields cells locals storage)
    (live : cells block = some (front ++ some old :: back)) (position : index = front.length)
    (every : ∀ next, Looks fields (Function.update cells block (some (front ++ none :: back)))
      locals next → post () next) :
    Runs (destroy block index) storage post raises := by
  rw [destroy, runs_bind, looks.runs_slots live, getElem?_at position, runs_modify]
  exact every _ ⟨looks.fields, by rw [set_at position, looks.put live], looks.locals⟩

theorem runs_read (looks : Looks fields cells locals storage) (live : cells block = some all)
    (stands : all[index]? = some (some old)) {post : V → Storage V F → Prop}
    (every : post old.value storage) : Runs (read block index) storage post raises := by
  rw [read, runs_bind, looks.runs_slots live, stands, runs_pure]
  exact every

theorem runs_assign (looks : Looks fields cells locals storage)
    (live : cells block = some (front ++ some old :: back)) (position : index = front.length)
    (every : ∀ object next, Looks fields
      (Function.update cells block (some (front ++ some object :: back))) locals next →
        post () next) :
    Runs (assign block index value) storage post raises := by
  rw [assign, runs_bind, looks.runs_slots live, getElem?_at position, runs_modify]
  apply every ⟨old.serial, value⟩
  exact ⟨looks.fields, by rw [set_at position, looks.put live], looks.locals⟩

theorem runs_enter (looks : Looks fields cells locals storage)
    (every : ∀ serial next, Looks fields cells (serial :: locals) next → post () next) :
    Runs (enter value) storage post raises := by
  rw [enter, runs_modify]
  apply every storage.born
  exact ⟨looks.fields, looks.cells, by rw [List.map_cons, looks.locals]⟩

/-- The objects on the stack when there is a last one. -/
theorem exists_local {serial : Nat} (looks : Looks fields cells (serial :: locals) storage) :
    ∃ value rest, storage.locals = ⟨serial, value⟩ :: rest ∧ rest.map Object.serial = locals := by
  cases found : storage.locals with
  | nil =>
      have none := looks.locals
      rw [found] at none
      cases none
  | cons object rest =>
      have same := looks.locals
      rw [found, List.map_cons] at same
      cases same
      exact ⟨object.value, rest, rfl, rfl⟩

theorem runs_leave {serial : Nat} (looks : Looks fields cells (serial :: locals) storage)
    (every : ∀ next, Looks fields cells locals next → post () next) :
    Runs leave storage post raises := by
  rcases looks.exists_local with ⟨value, rest, found, same⟩
  rw [leave, runs_bind, runs_get, found, runs_set]
  exact every _ ⟨looks.fields, looks.cells, same⟩

theorem runs_readLocal {serial : Nat} (looks : Looks fields cells (serial :: locals) storage)
    {post : V → Storage V F → Prop} (every : ∀ value, post value storage) :
    Runs readLocal storage post raises := by
  rcases looks.exists_local with ⟨value, rest, found, _⟩
  rw [readLocal, runs_bind, runs_get, found, runs_pure]
  exact every value

theorem runs_assignLocal {serial : Nat} (looks : Looks fields cells (serial :: locals) storage)
    (every : ∀ next, Looks fields cells (serial :: locals) next → post () next) :
    Runs (assignLocal value) storage post raises := by
  rcases looks.exists_local with ⟨value, rest, found, same⟩
  rw [assignLocal, runs_bind, runs_get, found, runs_set]
  exact every _ ⟨looks.fields, looks.cells, by rw [List.map_cons, same]⟩

/-- Destroying the objects behind `front` from the last one on. -/
theorem runs_destroyRange {objects : List (Object V)} (looks : Looks fields cells locals storage)
    (live : cells block = some (front ++ objects.map some ++ back))
    (position : index = front.length) (amount : count = objects.length)
    (every : ∀ next, Looks fields (Function.update cells block
      (some (front ++ List.replicate count none ++ back))) locals next → post () next) :
    Runs (forDown index (destroy block) count) storage post raises := by
  subst amount
  induction objects using List.reverseRecOn generalizing storage cells back with
  | nil =>
      rw [List.length_nil, forDown, runs_pure]
      apply every
      rw [List.length_nil, List.replicate_zero]
      rw [List.map_nil] at live
      rwa [← live, Function.update_eq_self]
  | append_singleton objects object ih =>
      have last : cells block = some ((front ++ objects.map some) ++ some object :: back) := by
        rw [live]
        simp
      rw [List.length_append, List.length_singleton, forDown, runs_bind]
      apply looks.runs_destroy last (by simp [position])
      intro next looks
      apply ih looks
      · rw [Function.update_self]
      · intro next looks
        apply every
        rw [Function.update_idem] at looks
        rw [List.length_append, List.length_singleton, List.replicate_succ', List.append_assoc,
          List.append_assoc, List.singleton_append, ← List.append_assoc]
        exact looks

/-- Destroying all objects of a block and giving it back. -/
theorem runs_discard {objects : List (Object V)} {room : Nat}
    (looks : Looks fields cells locals storage)
    (live : cells block = some (objects.map some ++ List.replicate room none))
    (amount : count = objects.length)
    (every : ∀ next, Looks fields (Function.update cells block none) locals next →
      post () next) :
    Runs (do forDown 0 (destroy block) count; deallocate block) storage post raises := by
  have whole : cells block = some ([] ++ objects.map some ++ List.replicate room none) := live
  rw [runs_bind]
  apply looks.runs_destroyRange whole rfl amount
  intro next looks
  rw [List.nil_append, List.replicate_append_replicate] at looks
  apply looks.runs_deallocate (Function.update_self ..)
  intro next looks
  rw [Function.update_idem] at looks
  exact every next looks

end Looks

section Filling

variable {fields : F} {cells now : Cells V} {locals : List Nat} {storage : Storage V F}
variable {block : Addr} {front back : Slots (Object V)} {room count index : Nat} {value : V}
variable {post : Unit → Storage V F → Prop} {raises : ε → Storage V F → Prop}

/-- Beside known blocks there is one with so many objects between a front and a back, and with
raw slots behind them. -/
def Filling (cells : Cells V) (block : Addr) (front back : Slots (Object V)) (room count : Nat)
    (now : Cells V) : Prop :=
  ∃ objects : List (Object V), objects.length = count ∧ count ≤ room ∧
    now = Function.update cells block
      (some (front ++ objects.map some ++ (List.replicate (room - count) none ++ back)))

theorem filling_zero : Filling cells block front back room 0 now ↔
    now = Function.update cells block (some (front ++ (List.replicate room none ++ back))) := by
  constructor
  · intro filling
    rcases filling with ⟨objects, none, _, rfl⟩
    rw [List.eq_nil_of_length_eq_zero none, List.map_nil, List.append_nil, Nat.sub_zero]
  · intro raw
    refine ⟨[], rfl, Nat.zero_le _, ?_⟩
    rw [raw, List.map_nil, List.append_nil, Nat.sub_zero]

namespace Filling

/-- The other blocks are as they are known. -/
theorem other {address : Addr} (filling : Filling cells block front back room count now)
    (apart : address ≠ block) : now address = cells address := by
  rcases filling with ⟨objects, _, _, rfl⟩
  rw [Function.update_of_ne apart]

/-- Changing another block. -/
theorem update {address : Addr} (slots : Slots (Object V))
    (filling : Filling cells block front back room count now) (apart : address ≠ block) :
    Filling (Function.update cells address (some slots)) block front back room count
      (Function.update now address (some slots)) := by
  rcases filling with ⟨objects, length, fits, rfl⟩
  exact ⟨objects, length, fits, Function.update_comm apart.symm _ _ _⟩

/-- A block that was filled from its middle on, seen from its start on. -/
theorem turn {middle : Nat} :
    Filling cells block (List.replicate middle none) [] room count now ↔
      ∃ objects : List (Object V), objects.length = count ∧ count ≤ room ∧
        Filling cells block [] (objects.map some ++ List.replicate (room - count) none) middle 0
          now := by
  constructor
  · intro filling
    rcases filling with ⟨objects, length, fits, rfl⟩
    refine ⟨objects, length, fits, filling_zero.mpr ?_⟩
    rw [List.append_nil, List.nil_append, List.append_assoc]
  · intro turned
    rcases turned with ⟨objects, length, fits, filling⟩
    refine ⟨objects, length, fits, ?_⟩
    rw [filling_zero.mp filling, List.append_nil, List.nil_append, List.append_assoc]

/-- A block whose first object is constructed, seen from behind it. -/
theorem first (filling : Filling cells block [] (List.replicate room none) 1 1 now) :
    ∃ object, Filling cells block [some object] [] room 0 now := by
  rcases filling with ⟨objects, length, _, rfl⟩
  rcases List.length_eq_one_iff.mp length with ⟨object, rfl⟩
  refine ⟨object, filling_zero.mpr ?_⟩
  rw [List.append_nil]
  rfl

/-- The next object is constructed. -/
theorem runs_construct (filling : Filling cells block front back room count now)
    (looks : Looks fields now locals storage) (position : index = front.length + count)
    (free : count < room)
    (every : ∀ now next, Filling cells block front back room (count + 1) now →
      Looks fields now locals next → post () next) :
    Runs (construct block index value) storage post raises := by
  rcases filling with ⟨objects, rfl, _, rfl⟩
  have raw : (List.replicate (room - objects.length) none : Slots (Object V)) =
      none :: List.replicate (room - (objects.length + 1)) none := by
    rw [show room - objects.length = (room - (objects.length + 1)) + 1 by omega,
      List.replicate_succ]
  have here : Function.update cells block (some (front ++ objects.map some ++
      (List.replicate (room - objects.length) none ++ back))) block =
        some ((front ++ objects.map some) ++ none ::
          (List.replicate (room - (objects.length + 1)) none ++ back)) := by
    rw [Function.update_self, raw, List.cons_append]
  apply looks.runs_construct here
  · rw [position, List.length_append, List.length_map]
  · intro object next looks
    rw [Function.update_idem] at looks
    refine every _ next ⟨objects ++ [object], List.length_append, free, rfl⟩ ?_
    rw [List.map_append, ← List.append_assoc front, List.append_assoc _ (List.map some [object])]
    exact looks

/-- All of the objects are destroyed. -/
theorem runs_destroyRange (filling : Filling cells block front back room count now)
    (looks : Looks fields now locals storage) (position : index = front.length)
    (every : ∀ now next, Filling cells block front back room 0 now →
      Looks fields now locals next → post () next) :
    Runs (forDown index (destroy block) count) storage post raises := by
  rcases filling with ⟨objects, rfl, fits, rfl⟩
  apply looks.runs_destroyRange (Function.update_self ..) position rfl
  intro next looks
  rw [Function.update_idem] at looks
  refine every _ next (filling_zero.mpr rfl) ?_
  rw [← Nat.add_sub_cancel' fits, ← List.replicate_append_replicate, List.append_assoc]
  rw [List.append_assoc] at looks
  exact looks

/-- A block in which nothing is left is given back. -/
theorem runs_deallocate (index : Nat)
    (filling : Filling cells block (List.replicate index none) [] room 0 now)
    (looks : Looks fields now locals storage) (fresh : cells block = none)
    (every : ∀ next, Looks fields cells locals next → post () next) :
    Runs (deallocate block) storage post raises := by
  rw [filling_zero, List.append_nil, List.replicate_append_replicate] at filling
  subst filling
  apply looks.runs_deallocate (Function.update_self ..)
  intro next looks
  rw [Function.update_idem, ← fresh, Function.update_eq_self] at looks
  exact every next looks

end Filling

end Filling

end Storage

end Wan.Library
