import Mathlib.Data.List.Perm.Basic
import Wan.Library.Objects.Model
import Wan.Library.Partial

/-!
# The ledger of all objects

No step loses a number: what is alive or dead afterwards is what was so before and what was
constructed meanwhile.
-/

namespace Wan.Library

open LinkedList

namespace Program

section Loops

variable {σ ε : Type} {relation : σ → σ → Prop} [Std.Refl relation] [IsTrans σ relation]

theorem keeps_forUp {body : Nat → Program σ ε Unit} (each : ∀ index, Keeps relation (body index))
    (first count : Nat) : Keeps relation (forUp first body count) := by
  induction count generalizing first with
  | zero => exact keeps_pure ()
  | succ count ih => exact keeps_bind (each first) fun _ => ih (first + 1)

theorem keeps_forDown {body : Nat → Program σ ε Unit}
    (each : ∀ index, Keeps relation (body index)) (first count : Nat) :
    Keeps relation (forDown first body count) := by
  induction count with
  | zero => exact keeps_pure ()
  | succ count ih => exact keeps_bind (each (first + count)) fun _ => ih

end Loops

end Program

namespace Storage

variable {V F ε : Type}

section Ledger

/-- The numbers of the objects in slots. -/
def serialsOf (slots : Slots (Object V)) : List Nat :=
  slots.filterMap fun slot => slot.map Object.serial

/-- The numbers of the objects in one block. -/
def blockSerials (memory : Memory (Object V)) (block : Addr) : List Nat :=
  serialsOf ((memory.cells block).getD [])

/-- The numbers of the objects in all blocks. -/
def memorySerials (memory : Memory (Object V)) : List Nat :=
  (List.range memory.next).flatMap (blockSerials memory)

/-- The numbers of all objects, alive or dead. -/
def serials (storage : Storage V F) : List Nat :=
  memorySerials storage.memory ++ (storage.locals.map Object.serial ++ storage.died)

/-- Every object that was there is still accounted for, and so is every one that was constructed
meanwhile. -/
structure Conserved (before after : Storage V F) : Prop where
  born : before.born ≤ after.born
  serials : after.serials.Perm
    (before.serials ++ List.range' before.born (after.born - before.born))

instance : Std.Refl (Conserved (V := V) (F := F)) where
  refl storage := ⟨Nat.le_refl _, by rw [Nat.sub_self]; simp⟩

instance : IsTrans (Storage V F) Conserved where
  trans first middle last one other := by
    refine ⟨Nat.le_trans one.born other.born, ?_⟩
    have total : last.born - first.born =
        (middle.born - first.born) + (last.born - middle.born) := by
      have low := one.born
      have high := other.born
      omega
    have next : middle.born = first.born + (middle.born - first.born) :=
      (Nat.add_sub_cancel' one.born).symm
    rw [total, ← List.range'_append_1, ← next, ← List.append_assoc]
    exact other.serials.trans (one.serials.append_right _)

variable {memory : Memory (Object V)} {storage : Storage V F} {block : Addr}
variable {old new : Slots (Object V)}

theorem blockSerials_of_cells (found : memory.cells block = some old) :
    blockSerials memory block = serialsOf old := by
  rw [blockSerials, found, Option.getD_some]

/-- Changing what one number below a bound is mapped to. -/
theorem flatMap_range_perm (before after : Nat → List Nat) {position count : Nat}
    (inside : position < count) (same : ∀ other, other ≠ position → after other = before other) :
    ((List.range count).flatMap after ++ before position).Perm
      ((List.range count).flatMap before ++ after position) := by
  induction count with
  | zero => cases inside
  | succ count ih =>
      rw [List.range_succ, List.flatMap_append, List.flatMap_append, List.flatMap_singleton,
        List.flatMap_singleton, List.append_assoc, List.append_assoc]
      rcases Nat.lt_succ_iff_lt_or_eq.mp inside with below | rfl
      · rw [same count (Nat.ne_of_gt below)]
        apply ((List.perm_append_comm).append_left _).trans
        rw [← List.append_assoc]
        apply ((ih below).append_right _).trans
        rw [List.append_assoc]
        exact List.perm_append_comm.append_left _
      · have unchanged : (List.range position).flatMap after =
            (List.range position).flatMap before := by
          apply List.flatMap_congr
          intro other member
          exact same other (Nat.ne_of_lt (List.mem_range.mp member))
        rw [unchanged]
        exact List.perm_append_comm.append_left _

variable (new) in
/-- Replacing the slots of one block. -/
theorem memorySerials_put (found : memory.cells block = some old) :
    (memorySerials (memory.put block new) ++ serialsOf old).Perm
      (memorySerials memory ++ serialsOf new) := by
  have moved := flatMap_range_perm (blockSerials memory) (blockSerials (memory.put block new))
    (Heap.lt_next found) fun other apart => by
      rw [blockSerials, blockSerials, Heap.put_cells_ne apart]
  rwa [blockSerials_of_cells found, blockSerials_of_cells (Heap.put_cells_self found)] at moved

theorem serialsOf_replicate (count : Nat) :
    serialsOf (List.replicate count none : Slots (Object V)) = [] := by
  rw [serialsOf, List.filterMap_replicate_of_none rfl]

theorem memorySerials_alloc (count : Nat) :
    memorySerials (memory.alloc (List.replicate count none)) = memorySerials memory := by
  have raw : blockSerials (memory.alloc (List.replicate count none)) memory.next = [] := by
    rw [blockSerials, Heap.alloc_cells, Function.update_self, Option.getD_some,
      serialsOf_replicate]
  rw [memorySerials, Heap.alloc_next, List.range_succ, List.flatMap_append,
    List.flatMap_singleton, raw, List.append_nil]
  apply List.flatMap_congr
  intro other member
  rw [blockSerials, Heap.alloc_cells,
    Function.update_of_ne (Nat.ne_of_lt (List.mem_range.mp member)), ← blockSerials]

theorem memorySerials_free (found : memory.cells block = some old)
    (raw : serialsOf old = []) : memorySerials (memory.free block) = memorySerials memory := by
  apply List.flatMap_congr
  intro other _
  by_cases same : other = block
  · rw [same, blockSerials_of_cells found, raw, blockSerials, Heap.free_cells,
      Function.update_self]
    rfl
  · rw [blockSerials, Heap.free_cells, Function.update_of_ne same, ← blockSerials]

theorem flatMap_blockSerials {bound : Nat} (covers : memory.next ≤ bound) :
    (List.range bound).flatMap (blockSerials memory) = memorySerials memory := by
  induction bound, covers using Nat.le_induction with
  | base => rfl
  | succ bound covers ih =>
      have nothing : blockSerials memory bound = [] := by
        rw [blockSerials, memory.fresh bound covers]
        rfl
      rw [List.range_succ, List.flatMap_append, List.flatMap_singleton, nothing, List.append_nil, ih]

/-- The numbers depend on what the blocks hold only. -/
theorem memorySerials_congr {other : Memory (Object V)} (same : other.cells = memory.cells) :
    memorySerials other = memorySerials memory := by
  rw [← flatMap_blockSerials (Nat.le_max_left memory.next other.next),
    ← flatMap_blockSerials (Nat.le_max_right memory.next other.next)]
  have blocks : blockSerials other = blockSerials memory := by
    funext block
    rw [blockSerials, same, blockSerials]
  rw [blocks]

theorem serialsOf_middle (front back : Slots (Object V)) (slot : Option (Object V)) :
    (serialsOf (front ++ slot :: back)).Perm
      ((slot.map Object.serial).toList ++ serialsOf (front ++ back)) := by
  rw [serialsOf, List.filterMap_append, serialsOf, List.filterMap_append]
  cases slot with
  | none => exact List.Perm.refl _
  | some object => exact List.perm_middle

/-- Replacing one slot. -/
theorem memorySerials_set {slots : Slots (Object V)} {index : Nat} {slot : Option (Object V)}
    (other : Option (Object V)) (found : memory.cells block = some slots) (here : slots[index]? = some slot) :
    (memorySerials (memory.put block (slots.set index other)) ++
        (slot.map Object.serial).toList).Perm
      (memorySerials memory ++ (other.map Object.serial).toList) := by
  rcases exists_split_of_getElem? here with ⟨front, back, rfl, set, _⟩
  rw [set]
  have moved := memorySerials_put (front ++ other :: back) found
  have oldMiddle := (serialsOf_middle front back slot).append_left
    (memorySerials (memory.put block (front ++ other :: back)))
  have newMiddle := (serialsOf_middle front back other).append_left (memorySerials memory)
  have whole := (oldMiddle.symm.trans moved).trans newMiddle
  rw [← List.append_assoc, ← List.append_assoc, List.perm_append_right_iff] at whole
  exact whole

/-- No object is constructed. -/
theorem conserved_of_perm {after : Storage V F} (born : after.born = storage.born)
    (serials : after.serials.Perm storage.serials) : Conserved storage after where
  born := Nat.le_of_eq born.symm
  serials := by
    rw [born, Nat.sub_self]
    simpa using serials

/-- One object is constructed. -/
theorem conserved_of_new {after : Storage V F} (born : after.born = storage.born + 1)
    (serials : after.serials.Perm (storage.serials ++ [storage.born])) :
    Conserved storage after where
  born := born ▸ Nat.le_succ _
  serials := by
    rw [born, Nat.add_sub_cancel_left]
    exact serials

/-- When the objects that are alive are the same as before, then each object that was constructed
meanwhile has been destroyed once. -/
theorem Conserved.died {after : Storage V F} (conserved : Conserved storage after)
    (cells : after.memory.cells = storage.memory.cells)
    (locals : after.locals.map Object.serial = storage.locals.map Object.serial) :
    after.died.Perm
      (storage.died ++ List.range' storage.born (after.born - storage.born)) := by
  have balance := conserved.serials
  rw [Storage.serials, Storage.serials, memorySerials_congr cells, locals, List.append_assoc, List.append_assoc,
    List.perm_append_left_iff, List.perm_append_left_iff] at balance
  exact balance

end Ledger

section Keeps

open Program

variable {block : Addr} {index : Nat} {value : V} {storage : Storage V F}
variable {slots : Slots (Object V)}

theorem keeps_getFields :
    Keeps Conserved (getFields : Program (Storage V F) ε F) :=
  fun storage => Std.Refl.refl (r := Conserved) storage

theorem keeps_modifyFields (change : F → F) :
    Keeps Conserved (modifyFields change : Program (Storage V F) ε Unit) :=
  fun _ => conserved_of_perm rfl (List.Perm.refl _)

theorem keeps_attempt (faults : Nat → Bool) (safe : Bool) (exception : ε) :
    Keeps Conserved (attempt faults safe exception : Program (Storage V F) ε Unit) := by
  intro storage
  have ticked : Conserved storage { storage with clock := storage.clock + 1 } :=
    conserved_of_perm rfl (List.Perm.refl _)
  rw [attempt, yields_bind, yields_get, yields_bind, yields_set, refuse]
  split
  · exact ticked
  · exact ticked

theorem yields_slots {post : Slots (Object V) → Storage V F → Prop}
    {raises : ε → Storage V F → Prop}
    (found : ∀ slots, storage.memory.cells block = some slots → post slots storage) :
    Yields (Storage.slots block) storage post raises := by
  rw [Storage.slots, yields_bind, yields_get]
  cases here : storage.memory.cells block with
  | none => trivial
  | some slots => exact found slots here

theorem keeps_allocate (capacity : Nat) :
    Keeps Conserved (allocate capacity : Program (Storage V F) ε Addr) := by
  intro storage
  have same : Conserved storage { storage with
      memory := storage.memory.alloc (List.replicate capacity none) } := by
    refine conserved_of_perm (by rfl) ?_
    rw [serials, memorySerials_alloc]
    exact List.Perm.refl _
  exact same

theorem keeps_deallocate :
    Keeps Conserved (deallocate block : Program (Storage V F) ε Unit) := by
  intro storage
  rw [deallocate, yields_bind]
  apply yields_slots
  intro slots found
  split
  · next raw =>
      rw [yields_modify]
      refine conserved_of_perm (by rfl) ?_
      rw [serials, memorySerials_free found]
      · exact List.Perm.refl _
      · rw [serialsOf, List.filterMap_eq_nil_iff]
        intro slot member
        have none := List.all_eq_true.mp raw slot member
        rw [Option.isNone_iff_eq_none] at none
        rw [none]
        rfl
  · trivial

theorem keeps_construct :
    Keeps Conserved (construct block index value : Program (Storage V F) ε Unit) := by
  intro storage
  rw [construct, yields_bind]
  apply yields_slots
  intro slots found
  split
  · next here =>
      have moved := memorySerials_set (some ⟨storage.born, value⟩) found here
      simp only [Option.map_none, Option.map_some, Option.toList_none, Option.toList_some,
        List.append_nil] at moved
      apply conserved_of_new rfl
      apply (moved.append_right _).trans
      rw [serials, List.append_assoc, List.append_assoc]
      exact List.perm_append_comm.append_left _
  · trivial

theorem keeps_destroy :
    Keeps Conserved (destroy block index : Program (Storage V F) ε Unit) := by
  intro storage
  rw [destroy, yields_bind]
  apply yields_slots
  intro slots found
  split
  · next object here =>
      have moved := memorySerials_set none found here
      simp only [Option.map_none, Option.map_some, Option.toList_none, Option.toList_some,
        List.append_nil] at moved
      rw [yields_modify]
      refine conserved_of_perm (by rfl) ?_
      rw [serials, serials]
      refine .trans ?_ (moved.append_right _)
      rw [List.append_assoc]
      exact List.perm_middle.append_left _
  · trivial

theorem keeps_read : Keeps Conserved (read block index : Program (Storage V F) ε V) := by
  intro storage
  rw [read, yields_bind]
  apply yields_slots
  intro slots found
  split
  · exact keeps_pure _ storage
  · trivial

theorem keeps_assign :
    Keeps Conserved (assign block index value : Program (Storage V F) ε Unit) := by
  intro storage
  rw [assign, yields_bind]
  apply yields_slots
  intro slots found
  split
  · next object here =>
      have moved := memorySerials_set (some ⟨object.serial, value⟩) found here
      simp only [Option.map_some, Option.toList_some, List.perm_append_right_iff] at moved
      rw [yields_modify]
      refine conserved_of_perm (by rfl) ?_
      exact moved.append_right _
  · trivial

theorem keeps_enter : Keeps Conserved (enter value : Program (Storage V F) ε Unit) := by
  intro storage
  apply conserved_of_new rfl
  rw [serials, serials, List.append_assoc, List.map_cons, List.cons_append]
  apply List.Perm.append_left
  exact (List.perm_append_singleton _ _).symm

theorem keeps_leave : Keeps Conserved (leave : Program (Storage V F) ε Unit) := by
  intro storage
  rw [leave, yields_bind, yields_get]
  split
  · trivial
  · next object locals found =>
      rw [yields_set]
      refine conserved_of_perm (by rfl) ?_
      rw [serials, serials, found]
      apply List.Perm.append_left
      exact List.perm_middle

theorem keeps_readLocal : Keeps Conserved (readLocal : Program (Storage V F) ε V) := by
  intro storage
  rw [readLocal, yields_bind, yields_get]
  split
  · trivial
  · exact keeps_pure _ storage

theorem keeps_assignLocal :
    Keeps Conserved (assignLocal value : Program (Storage V F) ε Unit) := by
  intro storage
  rw [assignLocal, yields_bind, yields_get]
  split
  · trivial
  · next object locals found =>
      rw [yields_set]
      refine conserved_of_perm (by rfl) ?_
      rw [serials, serials, found]
      exact List.Perm.refl _

end Keeps

end Storage

end Wan.Library
