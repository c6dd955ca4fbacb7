import Mathlib.Data.List.Perm.Subperm
import Wan.Container.ListContainer.Model

/-!
# States of one list and what a call leaves alone

`Holds` says that the nodes of a list form a ring with its elements, and `Valid` that the
live nodes are a frame, which belongs to others, together with this ring.  The rules at
the end are the specifications of the primitives.
-/

namespace Wan.Container.ListContainer

open Wan.Library Wan.Library.LinkedList Wan.Library.Program

variable {V : Type}

/-- The address of a node and its element. -/
abbrev Entry (V : Type) := Addr × V

/-- The nodes that hold the elements. -/
def addresses (entries : List (Entry V)) : List Addr := entries.map Prod.fst

/-- Change a live node. -/
def adjust (nodes : Nodes V) (address : Addr)
    (change : ListContainerNode V → ListContainerNode V) : Nodes V :=
  Function.update nodes address ((nodes address).map change)

/-- The nodes of a list are a ring through its head, with one node for each element. -/
structure Holds (nodes : Nodes V) (list : ListContainer) (head : Addr)
    (entries : List (Entry V)) : Prop where
  head_eq : list.memberHead = some head
  size_eq : list.memberSize.toNat = entries.length
  ring : Ring (view (·.memberNext) nodes) (view (·.memberPrev) nodes) head (addresses entries)
  sentinel : view (·.memberData) nodes head = some none
  data : ∀ entry ∈ entries, view (·.memberData) nodes entry.1 = some (some entry.2)
  bounded : ∀ address ∈ head :: addresses entries, address < 2 ^ 64

/-- The live nodes are the frame and the nodes of the list. -/
structure Valid (frame : Nodes V) (state : State V) (head : Addr) (entries : List (Entry V)) :
    Prop where
  holds : Holds state.nodes state.self head entries
  framed : ∀ address ∉ head :: addresses entries, state.nodes address = frame address
  apart : ∀ address ∈ head :: addresses entries, frame address = none

/-- Nothing but the number of requests has changed. -/
def Quiet (before after : State V) : Prop :=
  after.nodes = before.nodes ∧ after.self = before.self

/-- The environment has refused a request for memory when no more than `more` nodes were different
from these. -/
def Refused (environment : Environment V) (more : Nat) (nodes : Nodes V) : Prop :=
  ∃ request memory, environment.place request memory = none ∧
    ∃ others : List Addr, others.length ≤ more ∧ ∀ address ∉ others, memory address = nodes address

section Addresses

variable {entry : Entry V} {earlier later : List (Entry V)}

@[simp] theorem addresses_nil : addresses ([] : List (Entry V)) = [] := rfl

@[simp] theorem addresses_cons : addresses (entry :: later) = entry.1 :: addresses later := rfl

@[simp] theorem addresses_append :
    addresses (earlier ++ later) = addresses earlier ++ addresses later :=
  List.map_append

@[simp] theorem addresses_length : (addresses later).length = later.length := List.length_map _

end Addresses

/-- The address space has room for the head besides the elements. -/
theorem length_lt_of_bounded {head : Addr} {entries : List (Entry V)}
    (distinct : (head :: addresses entries).Nodup)
    (bounded : ∀ address ∈ head :: addresses entries, address < 2 ^ 64) :
    entries.length < 2 ^ 64 := by
  have within : head :: addresses entries ⊆ List.range (2 ^ 64) := by
    intro address member
    exact List.mem_range.mpr (bounded address member)
  have length := (List.subperm_of_subset distinct within).length_le
  rwa [List.length_cons, addresses_length, List.length_range] at length

section Adjust

variable {nodes : Nodes V} {address other : Addr} {node : ListContainerNode V} {α : Type}
variable {change : ListContainerNode V → ListContainerNode V} {field : ListContainerNode V → α}

theorem adjust_of_ne (apart : other ≠ address) : adjust nodes address change other = nodes other :=
  Function.update_of_ne apart _ _

theorem adjust_self (live : nodes address = some node) :
    adjust nodes address change address = some (change node) := by
  simp [adjust, live]

theorem adjust_isSome : (adjust nodes address change other).isSome = (nodes other).isSome := by
  by_cases same : other = address
  · subst same
    simp [adjust]
  · rw [adjust_of_ne same]

theorem view_adjust_keeps (kept : ∀ node, field (change node) = field node) :
    view field (adjust nodes address change) = view field nodes :=
  view_update_map_of_eq kept

theorem view_adjust_to {value : α} (live : (nodes address).isSome)
    (changed : ∀ node, field (change node) = value) :
    view field (adjust nodes address change) =
      Function.update (view field nodes) address (some value) := by
  obtain ⟨node, found⟩ := Option.isSome_iff_exists.mp live
  rw [← changed node]
  exact view_update_map found

variable {target : Option Addr}

@[simp] theorem view_next_adjust_prev :
    view (·.memberNext) (adjust nodes address fun node => { node with memberPrev := target }) =
      view (·.memberNext) nodes :=
  view_adjust_keeps fun _ => rfl

@[simp] theorem view_prev_adjust_next :
    view (·.memberPrev) (adjust nodes address fun node => { node with memberNext := target }) =
      view (·.memberPrev) nodes :=
  view_adjust_keeps fun _ => rfl

@[simp] theorem view_data_adjust_prev :
    view (·.memberData) (adjust nodes address fun node => { node with memberPrev := target }) =
      view (·.memberData) nodes :=
  view_adjust_keeps fun _ => rfl

@[simp] theorem view_data_adjust_next :
    view (·.memberData) (adjust nodes address fun node => { node with memberNext := target }) =
      view (·.memberData) nodes :=
  view_adjust_keeps fun _ => rfl

theorem view_next_adjust_next (live : (nodes address).isSome) :
    view (·.memberNext) (adjust nodes address fun node => { node with memberNext := target }) =
      Function.update (view (·.memberNext) nodes) address (some target) :=
  view_adjust_to live fun _ => rfl

theorem view_prev_adjust_prev (live : (nodes address).isSome) :
    view (·.memberPrev) (adjust nodes address fun node => { node with memberPrev := target }) =
      Function.update (view (·.memberPrev) nodes) address (some target) :=
  view_adjust_to live fun _ => rfl

end Adjust

namespace Holds

variable {nodes after : Nodes V} {list : ListContainer} {head address : Addr}
variable {entries : List (Entry V)}

/-- Only the nodes of the list matter. -/
theorem congr (holds : Holds nodes list head entries)
    (same : ∀ address ∈ head :: addresses entries, after address = nodes address) :
    Holds after list head entries where
  head_eq := holds.head_eq
  size_eq := holds.size_eq
  ring := by
    apply holds.ring.congr
    · intro address member
      rw [view, same address member, view]
    · intro address member
      rw [view, same address member, view]
  sentinel := by
    rw [view, same head List.mem_cons_self]
    exact holds.sentinel
  data entry member := by
    rw [view, same entry.1 (List.mem_cons_of_mem _ (List.mem_map_of_mem member))]
    exact holds.data entry member
  bounded := holds.bounded

/-- The nodes of a list are live. -/
theorem live (holds : Holds nodes list head entries) (member : address ∈ head :: addresses entries) :
    ∃ node, nodes address = some node := by
  obtain ⟨other, _, linked, _⟩ := holds.ring.prev_of_next member
  obtain ⟨node, found, _⟩ := Option.map_eq_some_iff.mp linked
  exact ⟨node, found⟩

theorem isSome (holds : Holds nodes list head entries)
    (member : address ∈ head :: addresses entries) : (nodes address).isSome :=
  Option.isSome_iff_exists.mpr (holds.live member)

theorem distinct (holds : Holds nodes list head entries) : (head :: addresses entries).Nodup :=
  holds.ring.distinct

theorem length_lt (holds : Holds nodes list head entries) : entries.length < 2 ^ 64 :=
  length_lt_of_bounded holds.distinct holds.bounded

end Holds

namespace Valid

variable {frame : Nodes V} {state after : State V} {head : Addr} {entries : List (Entry V)}
variable {address : Addr} {node : ListContainerNode V}

theorem quiet (valid : Valid frame state head entries) (same : Quiet state after) :
    Valid frame after head entries where
  holds := by
    rw [same.1, same.2]
    exact valid.holds
  framed := by
    rw [same.1]
    exact valid.framed
  apart := valid.apart

/-- The frame is untouched wherever it has a node. -/
theorem extends_frame (valid : Valid frame state head entries) (owned : frame address = some node) :
    state.nodes address = some node := by
  rw [valid.framed address, owned]
  intro member
  simp [valid.apart address member] at owned

/-- A dead address belongs to nobody. -/
theorem dead (valid : Valid frame state head entries) (dead : state.nodes address = none) :
    address ∉ head :: addresses entries ∧ frame address = none := by
  have absent : address ∉ head :: addresses entries := by
    intro member
    obtain ⟨node, live⟩ := valid.holds.live member
    simp [dead] at live
  exact ⟨absent, valid.framed address absent ▸ dead⟩

end Valid

theorem Quiet.refl (state : State V) : Quiet state state := ⟨rfl, rfl⟩

section Refusals

variable {environment : Environment V} {frame nodes : Nodes V} {state : State V} {head : Addr}
variable {entries : List (Entry V)} {more most : Nat}

theorem Refused.mono (refused : Refused environment more nodes) (fewer : more ≤ most) :
    Refused environment most nodes := by
  obtain ⟨request, memory, none, others, few, same⟩ := refused
  exact ⟨request, memory, none, others, Nat.le_trans few fewer, same⟩

/-- Nodes that are deleted later were different, too. -/
theorem Refused.without {after : Nodes V} (refused : Refused environment more nodes)
    (deleted : List Addr) (same : ∀ address ∉ deleted, nodes address = after address) :
    Refused environment (deleted.length + more) after := by
  obtain ⟨request, memory, none, others, few, kept⟩ := refused
  refine ⟨request, memory, none, deleted ++ others, ?_, ?_⟩
  · rw [List.length_append]
    exact Nat.add_le_add_left few _
  · intro address outside
    rw [List.mem_append, not_or] at outside
    rw [kept address outside.2, same address outside.1]

/-- The nodes of a list that is deleted after the refusal. -/
theorem Valid.refused (valid : Valid frame state head entries)
    (refused : Refused environment 0 state.nodes) :
    Refused environment (entries.length + 1) frame := by
  have without := refused.without (head :: addresses entries) valid.framed
  rwa [Nat.add_zero, List.length_cons, addresses_length] at without

end Refusals

section Rules

variable {state : State V} {address : Addr} {node : ListContainerNode V}
variable {change : ListContainerNode V → ListContainerNode V}
variable {post : ListContainerNode V → State V → Prop} {ends : Unit → State V → Prop}
variable {raises : Fault → State V → Prop}

@[simp] theorem runs_modifySelf {change : ListContainer → ListContainer} :
    Runs (modifySelf change) state ends raises ↔
      ends () { state with self := change state.self } := Iff.rfl

@[simp] theorem runs_put {node : Option (ListContainerNode V)} :
    Runs (put address node) state ends raises ↔
      ends () { state with nodes := Function.update state.nodes address node } := Iff.rfl

@[simp] theorem runs_follow {post : Addr → State V → Prop} :
    Runs (follow (some address)) state post raises ↔ post address state := Iff.rfl

@[simp] theorem runs_endIterator {post : ListIterator → State V → Prop} :
    Runs endIterator state post raises ↔
      post ⟨state.self.memberHead, state.self.memberHead⟩ state := Iff.rfl

theorem runs_read (live : state.nodes address = some node) :
    Runs (read (some address)) state post raises ↔ post node state := by
  simp [read, live]

theorem runs_write (live : (state.nodes address).isSome) :
    Runs (write (some address) change) state ends raises ↔
      ends () { state with nodes := adjust state.nodes address change } := by
  obtain ⟨node, found⟩ := Option.isSome_iff_exists.mp live
  simp [write, runs_read found, adjust, found]

theorem runs_delete (live : (state.nodes address).isSome) :
    Runs (delete (some address)) state ends raises ↔
      ends () { state with nodes := Function.update state.nodes address none } := by
  obtain ⟨node, found⟩ := Option.isSome_iff_exists.mp live
  simp [delete, runs_read found]

/-- Reading a link that is known. -/
theorem runs_read_view {α : Type} {value : α} (field : ListContainerNode V → α)
    (linked : view field state.nodes address = some value)
    (next : ∀ node, state.nodes address = some node → field node = value → post node state) :
    Runs (read (some address)) state post raises := by
  obtain ⟨node, found, same⟩ := Option.map_eq_some_iff.mp linked
  rw [runs_read found]
  exact next node found same

/-- A request for memory is granted at a dead address, or raises. -/
theorem runs_allocate {environment : Environment V} {post : Addr → State V → Prop}
    (granted : ∀ address next, Quiet state next → state.nodes address = none → address < 2 ^ 64 →
      post address next)
    (refused : ∀ next, Quiet state next → Refused environment 0 next.nodes →
      raises .raised next) :
    Runs (allocate environment) state post raises := by
  simp only [allocate, runs_bind, runs_get, runs_set, runs_require]
  constructor
  · intro none
    exact refused _ ⟨rfl, rfl⟩ ⟨_, _, none, [], Nat.le_refl 0, fun _ _ => rfl⟩
  · intro address placed
    exact granted address _ ⟨rfl, rfl⟩ (environment.dead placed) (environment.bounded placed)

end Rules

end Wan.Container.ListContainer
