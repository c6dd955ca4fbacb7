import Wan.Container.Vector.Growth

/-!
# Adding an element to a `Vector`

`AppendConstructed` and `PushFront` with an argument that is no element of the vector, whether
they reallocate or not, and the methods that get there: an argument that is an element is
copied before the vector changes.
-/

namespace Wan.Container.Vector

open Wan.Library Wan.Library.LinkedList Wan.Library.Program

variable {V : Type} {element : Element V} {memory later : Memory V} {vector result : Vector}
variable {list new : List V} {here : V} {touch : Option (Touch V)} {value : Method V V}

/-- The program throws before it changes anything. -/
abbrev Refuses {α : Type} (program : Method V α) (memory : Memory V) (what : String) : Prop :=
  Runs program memory (fun _ _ => False) fun failure later =>
    failure = .lengthError what ∧ later = memory

section Arguments

variable {block index : Nat} {slots : Slots V}

theorem supplies_outside_read : Supplies (Reference.read (.outside here)) here none :=
  fun _ _ _ _ => Iff.rfl

theorem supplies_outside_move :
    Supplies (Reference.move element (.outside here)) here none :=
  fun _ _ _ _ => Iff.rfl

theorem supplies_element_read (stands : slots[index]? = some (some here)) :
    Supplies (Reference.read (.element block index)) here (some ⟨block, slots, slots⟩) := by
  intro memory ready post raises
  have live := ready _ rfl
  rw [Reference.read, Block.runs_read_of_getElem? live stands, touched, Heap.put_self live]

theorem supplies_element_move (stands : slots[index]? = some (some here)) :
    Supplies (Reference.move element (.element block index)) here
      (some ⟨block, slots, slots.set index (some (element.moved here))⟩) := by
  intro memory ready post raises
  have live := ready _ rfl
  rw [Reference.move, runs_bind, Block.runs_read_of_getElem? live stands, runs_bind,
    Block.runs_assign_of_getElem? live stands, runs_pure]
  rfl

theorem ready_none : Ready memory none := nofun

theorem apart_none {data : Addr} : Apart data (none : Option (Touch V)) := nofun

/-- Reading an argument leaves the memory as it is. -/
theorem touched_read (ready : Ready memory (some ⟨block, slots, slots⟩)) :
    touched memory (some ⟨block, slots, slots⟩) = memory :=
  Heap.put_self (ready _ rfl)

end Arguments

/-- The objects and the raw slots of a block. -/
theorem Represents.live {data : Addr} (represents : Represents element memory vector list)
    (there : vector.data = some data) : memory.cells data =
      some (list.map some ++ List.replicate (vector.capacity - list.length) none) :=
  represents.slots data there

/-- With room behind the elements there is a block. -/
theorem Represents.exists_room (represents : Represents element memory vector list)
    (room : vector.size < vector.capacity) : ∃ data, vector.data = some data ∧
      memory.cells data = some (list.map some ++
        none :: List.replicate (vector.capacity - (list.length + 1)) none) := by
  rw [represents.size] at room
  cases there : vector.data with
  | none =>
      rw [represents.absent there] at room
      exact absurd room (Nat.not_lt_zero _)
  | some data =>
      refine ⟨data, rfl, ?_⟩
      rw [represents.live there, ← List.replicate_succ, ← Nat.sub_sub,
        Nat.sub_add_cancel (Nat.sub_pos_of_lt room)]

section Append

variable (represents : Represents element memory vector list)

include represents

/-- `EnsureCapacity` keeps the list and makes room. -/
theorem returns_ensureCapacity {required : Nat} (fits : required ≤ element.maxSize) :
    Returns (vector.ensureCapacity element required) memory fun result later =>
      Grows element memory vector list result later ∧ required ≤ result.capacity := by
  rw [ensureCapacity, Returns]
  by_cases enough : required ≤ vector.capacity
  · rw [if_pos enough, runs_pure]
    exact ⟨Grows.refl represents, enough⟩
  · rw [if_neg enough, runs_bind]
    apply returns_growthCapacity fits
    have reserved : required ≤ grownCapacity element.maxSize vector.capacity required :=
      le_grownCapacity
    have limit : grownCapacity element.maxSize vector.capacity required ≤ element.maxSize :=
      grownCapacity_le fits
    generalize grownCapacity element.maxSize vector.capacity required = newCapacity at *
    have more : vector.capacity ≤ newCapacity :=
      Nat.le_trans (Nat.le_of_lt (Nat.lt_of_not_le enough)) reserved
    have bound := Nat.le_trans represents.bound more
    have unused := memory.fresh _ (Nat.le_refl memory.next)
    have start : 0 = ([] : Slots V).length := rfl
    have built : (memory.alloc (List.replicate newCapacity none)).cells memory.next =
        some ([] ++ List.replicate list.length none ++
          List.replicate (newCapacity - list.length) none) := by
      rw [Heap.alloc_cells, Function.update_self, List.nil_append, ← replicate_split]
      rwa [← represents.size]
    rw [runs_bind, Block.runs_allocate]
    refine (grows_relocate represents unused ?_ start built rfl represents.size bound limit
      more).mono ?_ fun _ _ => id
    · intro block other
      rw [Heap.alloc_cells, Function.update_of_ne other]
    · rintro result later ⟨grows, rfl⟩
      exact ⟨grows, reserved⟩

theorem refuses_ensureCapacity {required : Nat} (exceeds : element.maxSize < required) :
    Refuses (vector.ensureCapacity element required) memory "Vector capacity exceeds max_size" := by
  have more : ¬required ≤ vector.capacity :=
    Nat.not_le_of_lt (Nat.lt_of_le_of_lt represents.limit exceeds)
  rw [Refuses, ensureCapacity, if_neg more, runs_bind, growthCapacity, runs_bind, runs_refuse]
  exact ⟨fun _ => ⟨rfl, rfl⟩, fun within => absurd exceeds within⟩

/-- One more element is constructed where there is room. -/
theorem returns_constructNext (supplies : Supplies value here touch) (ready : Ready memory touch)
    (apart : ∀ data, vector.data = some data → Apart data touch)
    (room : vector.size < vector.capacity) : Returns (vector.constructNext value) memory
      (Grows element (touched memory touch) vector (list ++ [here])) := by
  have kept : Represents element (touched memory touch) vector list :=
    represents.congr fun data there => touched_cells (apart data there)
  rcases kept.exists_room room with ⟨data, there, live⟩
  rw [constructNext, Returns, runs_bind, pointer_eq there, runs_pure, runs_bind, supplies _ ready,
    runs_bind, represents.size, Block.runs_construct live (by rw [List.length_map]), runs_pure]
  apply Grows.put kept there
  · rw [List.length_append, List.length_singleton]
  · rw [List.length_append, ← represents.size]
    exact room
  · rw [slotsOf, List.length_append, List.map_append, List.append_assoc]
    rfl

/-- `AppendConstructed` appends the argument, whether it reallocates or not. -/
theorem returns_appendConstructed (supplies : Supplies value here touch)
    (ready : Ready memory touch) (apart : ∀ data, vector.data = some data → Apart data touch)
    (fits : list.length < element.maxSize) :
    Returns (vector.appendConstructed element value) memory
      (Grows element (touched memory touch) vector (list ++ [here])) := by
  have kept : Represents element (touched memory touch) vector list :=
    represents.congr fun data there => touched_cells (apart data there)
  rw [appendConstructed, Returns, runs_bind, runs_refuse, represents.size]
  refine ⟨fun full => absurd full (Nat.ne_of_lt fits), fun _ => ?_⟩
  by_cases full : list.length = vector.capacity
  · rw [if_pos full]
    refine returns_reallocateWithTail represents ready apart rfl fits
      (full ▸ Nat.le_succ list.length) ?_
    intro capacity enough
    have raw : (touched (memory.alloc (List.replicate capacity none)) touch).cells memory.next =
        some (List.replicate list.length none ++
          none :: List.replicate (capacity - (list.length + 1)) none) := by
      rw [ready.alloc_cells, replicate_split_cons enough]
    rw [Returns, runs_bind, supplies _ ready.alloc,
      Block.runs_construct raw List.length_replicate.symm, List.append_assoc]
    rfl
  · rw [if_neg full]
    apply returns_constructNext represents supplies ready apart
    rw [represents.size]
    exact Nat.lt_of_le_of_ne (represents.size ▸ represents.bound) full

theorem refuses_appendConstructed (full : list.length = element.maxSize) :
    Refuses (vector.appendConstructed element value) memory "Vector size exceeds max_size" := by
  rw [appendConstructed, Refuses, runs_bind, runs_refuse, represents.size]
  exact ⟨fun _ => ⟨rfl, rfl⟩, fun more => absurd full more⟩

/-- `PushFront` of an argument that is not an element puts it in front. -/
theorem returns_prependConstructed (supplies : Supplies value here touch)
    (ready : Ready memory touch) (apart : ∀ data, vector.data = some data → Apart data touch)
    (fits : list.length < element.maxSize) :
    Returns (vector.prependConstructed element value) memory
      (Grows element (touched memory touch) vector (here :: list)) := by
  have kept : Represents element (touched memory touch) vector list :=
    represents.congr fun data there => touched_cells (apart data there)
  have zero : 0 = ([] : Slots V).length := rfl
  rw [prependConstructed, Returns, runs_bind, runs_refuse, represents.size]
  refine ⟨fun full => absurd full (Nat.ne_of_lt fits), fun _ => ?_⟩
  by_cases full : list.length = vector.capacity
  · rw [if_pos full, reallocateWithPrepend, runs_bind, runs_refuse, represents.size]
    refine ⟨fun full => absurd full (Nat.ne_of_lt fits), fun _ => ?_⟩
    rw [runs_bind]
    apply returns_growthCapacity fits
    have enough : list.length + 1 ≤
        grownCapacity element.maxSize vector.capacity (list.length + 1) := le_grownCapacity
    have limit : grownCapacity element.maxSize vector.capacity (list.length + 1) ≤
        element.maxSize := grownCapacity_le fits
    generalize grownCapacity element.maxSize vector.capacity (list.length + 1) = newCapacity at *
    have unused : (touched memory touch).cells memory.next = none := by
      rw [touched_cells ready.apart_next, memory.fresh _ (Nat.le_refl _)]
    have raw : (touched (memory.alloc (List.replicate newCapacity none)) touch).cells memory.next =
        some ([] ++ none :: List.replicate (newCapacity - 1) none) := by
      rw [ready.alloc_cells, replicate_split_cons (Nat.lt_of_lt_of_le (Nat.succ_pos _) enough)]
      rfl
    have built : ((touched (memory.alloc (List.replicate newCapacity none)) touch).put memory.next
        ([] ++ some here :: List.replicate (newCapacity - 1) none)).cells memory.next =
          some ([some here] ++ List.replicate list.length none ++
            List.replicate (newCapacity - 1 - list.length) none) := by
      rw [Heap.put_cells_self raw, List.append_assoc,
        ← replicate_split (Nat.le_sub_of_add_le enough)]
      rfl
    have start : 1 = [some here].length := rfl
    rw [runs_bind, Block.runs_allocate, runs_bind, supplies _ ready.alloc, runs_bind,
      Block.runs_construct raw zero]
    refine (grows_relocate kept unused ?_ start built ?_ (List.length_cons).symm enough limit
      (full ▸ Nat.le_of_succ_le enough)).mono (fun _ _ => And.left) fun _ _ => id
    · intro block other
      rw [Heap.put_cells_ne other]
      apply touched_congr
      rw [Heap.alloc_cells, Function.update_of_ne other]
    · rw [slotsOf, List.length_cons, List.map_cons, Nat.sub_sub, Nat.add_comm]
      rfl
  · rw [if_neg full]
    have room : vector.size < vector.capacity := by
      have bound := represents.bound
      have size := represents.size
      omega
    rcases represents.exists_room room with ⟨data, there, live⟩
    rw [runs_bind, pointer_eq there, runs_pure]
    cases list using List.reverseRecOn with
    | nil =>
        rw [← touched_cells (apart data there), List.map_nil] at live
        rw [List.length_nil, if_pos rfl, runs_bind, supplies _ ready, runs_bind,
          Block.runs_construct live zero, runs_pure]
        rw [represents.size] at room
        exact Grows.put kept there rfl room rfl
    | append_singleton before last =>
        have source : memory.cells data = some (before.map some ++ some last ::
            none :: List.replicate (vector.capacity - ((before ++ [last]).length + 1)) none) := by
          rw [live, List.map_append, List.append_assoc]
          rfl
        generalize behind : List.replicate (vector.capacity - ((before ++ [last]).length + 1)) none
          = raw at live source
        have copied : (memory.put data (before.map some ++ some (left element last) ::
            none :: raw)).cells data =
              some ((before.map some ++ [some (left element last)]) ++ none :: raw) := by
          rw [Heap.put_cells_self source, List.append_assoc]
          rfl
        have shifted : (memory.put data ((before.map some ++ [some (left element last)]) ++
            some last :: raw)).cells data =
              some (before.map some ++ some (left element last) :: (some last :: raw)) := by
          rw [Heap.put_cells_self source, List.append_assoc]
          rfl
        rw [List.length_append, List.length_singleton, if_neg (Nat.succ_ne_zero _), runs_bind,
          runs_moveIfNoexcept source (by simp), runs_bind, Block.runs_construct copied (by simp),
          Heap.put_put, runs_bind, Nat.add_sub_cancel]
        apply runs_openGap shifted
        intro first
        have prepared : (touched (memory.put data (some first :: before.map some ++
            (some last :: raw))) touch).cells data =
              some ([] ++ some first :: (before.map some ++ some last :: raw)) := by
          rw [touched_cells (apart data there), Heap.put_cells_self source]
          rfl
        rw [Heap.put_put, runs_bind, supplies _ (ready.put (apart data there)), runs_bind,
          Block.runs_assign prepared zero, runs_pure, touched_put (apart data there), Heap.put_put]
        apply Grows.put kept there
        · rw [List.length_cons, List.length_append, List.length_singleton]
        · rw [List.length_cons, ← represents.size]
          exact room
        · rw [slotsOf, List.length_cons, behind]
          simp

theorem refuses_prependConstructed (full : list.length = element.maxSize) :
    Refuses (vector.prependConstructed element value) memory "Vector size exceeds max_size" := by
  rw [prependConstructed, Refuses, runs_bind, runs_refuse, represents.size]
  exact ⟨fun _ => ⟨rfl, rfl⟩, fun more => absurd full more⟩

end Append

section Pushes

variable {reference : Reference V} {data index : Nat} {list : List V}

theorem containsAddress_own (represents : Represents element memory vector list)
    (there : vector.data = some data) (stands : list[index]? = some here) :
    vector.containsAddress (.element data index : Reference V) = true := by
  rw [containsAddress, there, represents.size]
  simpa using (List.getElem?_eq_some_iff.mp stands).1

theorem containsAddress_foreign (apart : vector.data ≠ some data) :
    vector.containsAddress (.element data index : Reference V) = false := by
  simp [containsAddress, apart]

theorem Represents.getElem? (represents : Represents element memory vector list)
    (there : vector.data = some data) (stands : list[index]? = some here) :
    ∃ slots, memory.cells data = some slots ∧ slots[index]? = some (some here) := by
  refine ⟨_, represents.slots data there, ?_⟩
  have bound := (List.getElem?_eq_some_iff.mp stands).1
  rw [slotsOf, List.getElem?_append_left (by rwa [List.length_map]), List.getElem?_map, stands]
  rfl

section Own

variable (represents : Represents element memory vector list) (there : vector.data = some data)
variable (stands : list[index]? = some here) {post : Vector → Memory V → Prop}
variable {raises : Failure → Memory V → Prop}

include represents there stands

/-- An element is copied before anything else happens. -/
theorem runs_staged {staged : V → Method V Vector} {direct : Method V Vector} :
    Runs (if vector.containsAddress (.element data index : Reference V) then do
          staged (← Reference.read (.element data index))
        else direct) memory post raises ↔ Runs (staged here) memory post raises := by
  rcases represents.getElem? there stands with ⟨slots, live, stored⟩
  rw [if_pos (containsAddress_own represents there stands), runs_bind, Reference.read,
    Block.runs_read_of_getElem? live stored]

theorem runs_pushBackMove_own :
    Runs (vector.pushBackMove element (.element data index)) memory post raises ↔
      Runs (vector.appendConstructed element (Reference.move element (.outside here))) memory post
        raises :=
  runs_staged represents there stands

theorem runs_pushBack_own :
    Runs (vector.pushBack element (.element data index)) memory post raises ↔
      Runs (vector.appendConstructed element (Reference.move element (.outside here))) memory post
        raises :=
  runs_staged represents there stands

theorem runs_pushFrontMove_own :
    Runs (vector.pushFrontMove element (.element data index)) memory post raises ↔
      Runs (vector.prependConstructed element (Reference.move element (.outside here))) memory post
        raises :=
  runs_staged represents there stands

theorem runs_pushFront_own :
    Runs (vector.pushFront element (.element data index)) memory post raises ↔
      Runs (vector.prependConstructed element (Reference.move element (.outside here))) memory post
        raises :=
  runs_staged represents there stands

end Own

section Foreign

variable (foreign : vector.containsAddress reference = false)

include foreign

theorem pushBackMove_foreign : vector.pushBackMove element reference =
    vector.appendConstructed element (reference.move element) := by
  rw [pushBackMove, if_neg (by simp [foreign])]

theorem pushBack_foreign : vector.pushBack element reference =
    vector.appendConstructed element reference.read := by
  rw [pushBack, if_neg (by simp [foreign])]

theorem pushFrontMove_foreign : vector.pushFrontMove element reference =
    vector.prependConstructed element (reference.move element) := by
  rw [pushFrontMove, if_neg (by simp [foreign])]

theorem pushFront_foreign : vector.pushFront element reference =
    vector.prependConstructed element reference.read := by
  rw [pushFront, if_neg (by simp [foreign])]

end Foreign

end Pushes

end Wan.Container.Vector
