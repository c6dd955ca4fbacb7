import Mathlib.Data.List.Perm.Subperm
import Wan.Container.HashTable.Chains

/-!
# States of one table and what a call leaves alone

`Valid` says that the heap of a state is a frame, which belongs to others, together
with the nodes of the table.  Every member function keeps the frame, whether it
returns or raises.  The rules at the end are the specifications of the primitives.
-/

namespace Wan.Container.HashTable

open Wan.Library Wan.Library.LinkedList Wan.Library.Program

variable {Key Value : Type}

/-- The array limits leave room for a table that grows to so many elements. -/
def Roomy (policy : Policy Key Value) (count : Nat) : Prop :=
  20 * count ≤ policy.maxSize ∧ count ≤ policy.maxIndices ∧ policy.maxSize < 2 ^ 63

/-- What a call on a table that grows to so many elements may raise, and when. -/
def Excused (policy : Policy Key Value) (count : Nat) : Fault → Prop
  | .raised => ∃ moment, policy.faults moment = true
  | .lengthError _ => ¬Roomy policy count
  | _ => False

/-- Nothing but the clock has changed. -/
def Quiet (before after : State Value) : Prop :=
  after.heap = before.heap ∧ after.self = before.self

/-- The heap consists of the frame and of the nodes of the table, which holds the
entries. -/
structure Valid (policy : Policy Key Value) (frame : Nodes Value) (state : State Value)
    (entries : List (Entry Value)) : Prop where
  holds : Holds policy state.heap.cells state.self entries
  framed : ∀ address, address ∉ addresses entries → state.heap.cells address = frame address
  apart : ∀ address ∈ addresses entries, frame address = none

/-- An exception has an excuse and leaves the entries as they were. -/
def Refused (policy : Policy Key Value) (frame : Nodes Value) (count : Nat)
    (entries : List (Entry Value)) (fault : Fault) (state : State Value) : Prop :=
  Excused policy count fault ∧ Valid policy frame state entries

variable {policy : Policy Key Value} {frame : Nodes Value} {state after : State Value}
variable {entries : List (Entry Value)} {node : Addr} {cell : HashTableNode Value} {count : Nat}

/-- There are enough addresses for the entries of a table. -/
theorem Holds.length_le {heap : Heap (HashTableNode Value)} {table : HashTable}
    (holds : Holds policy heap.cells table entries) : entries.length ≤ heap.next := by
  have within : addresses entries ⊆ List.range heap.next := by
    intro address member
    rcases List.mem_map.mp member with ⟨entry, stored, rfl⟩
    rcases holds.live stored with ⟨cell, live, _⟩
    exact List.mem_range.mpr (Heap.lt_next live)
  have length := (List.subperm_of_subset holds.distinct within).length_le
  simpa using length

namespace Quiet

theorem refl : Quiet state state := ⟨rfl, rfl⟩

theorem trans {middle : State Value} (first : Quiet state middle) (second : Quiet middle after) :
    Quiet state after :=
  ⟨second.1.trans first.1, second.2.trans first.2⟩

end Quiet

namespace Valid

theorem quiet (valid : Valid policy frame state entries) (same : Quiet state after) :
    Valid policy frame after entries := by
  constructor
  · rw [same.1, same.2]
    exact valid.holds
  · rw [same.1]
    exact valid.framed
  · exact valid.apart

theorem distinct (valid : Valid policy frame state entries) : (addresses entries).Nodup :=
  valid.holds.distinct

/-- There are enough addresses for the entries. -/
theorem length_le (valid : Valid policy frame state entries) :
    entries.length ≤ state.heap.next :=
  valid.holds.length_le

/-- The frame is untouched wherever it has a node. -/
theorem extends_frame (valid : Valid policy frame state entries) (owned : frame node = some cell) :
    state.heap.cells node = some cell := by
  rw [valid.framed node, owned]
  intro member
  simp [valid.apart node member] at owned

/-- A node that was added to the frame is not a node of the table. -/
theorem not_mem (valid : Valid policy (Function.update frame node (some cell)) state entries) :
    node ∉ addresses entries := by
  intro member
  simpa using valid.apart node member

/-- Without a node that was added to the frame, the frame is still apart. -/
theorem apart_of_update
    (valid : Valid policy (Function.update frame node (some cell)) state entries)
    {address : Addr} (member : address ∈ addresses entries) : frame address = none := by
  have different : address ≠ node := by
    rintro rfl
    exact valid.not_mem member
  rw [← Function.update_of_ne different (some cell) frame]
  exact valid.apart address member

/-- The next address belongs to nobody. -/
theorem next_fresh (valid : Valid policy frame state entries) :
    state.heap.next ∉ addresses entries ∧ frame state.heap.next = none := by
  have dead := state.heap.fresh state.heap.next (Nat.le_refl _)
  have absent : state.heap.next ∉ addresses entries := by
    intro member
    rcases List.mem_map.mp member with ⟨entry, stored, same⟩
    rcases valid.holds.live stored with ⟨cell, live, _⟩
    rw [same, dead] at live
    cases live
  exact ⟨absent, valid.framed _ absent ▸ dead⟩

end Valid

/-- User code or the allocator raised, and nothing else happened. -/
def Interrupted (policy : Policy Key Value) (before : State Value) (fault : Fault)
    (after : State Value) : Prop :=
  (∃ moment, policy.faults moment = true) ∧ fault = .raised ∧ Quiet before after

theorem Interrupted.mk {moment : Nat} (faulty : policy.faults moment = true)
    (same : Quiet state after) : Interrupted policy state .raised after :=
  ⟨⟨moment, faulty⟩, rfl, same⟩

/-- Such an exception has an excuse. -/
theorem Interrupted.refused {fault : Fault} (interrupted : Interrupted policy state fault after)
    (valid : Valid policy frame state entries) :
    Refused policy frame count entries fault after := by
  rcases interrupted with ⟨faulty, rfl, same⟩
  exact ⟨faulty, valid.quiet same⟩

/-- A raised exception has an excuse. -/
theorem Refused.raised (valid : Valid policy frame state entries) {moment : Nat}
    (faulty : policy.faults moment = true) (same : Quiet state after) :
    Refused policy frame count entries .raised after :=
  ⟨⟨moment, faulty⟩, valid.quiet same⟩

section Rules

variable {post : HashTableNode Value → State Value → Prop} {raises : Fault → State Value → Prop}
variable {done : Unit → State Value → Prop} {change : HashTableNode Value → HashTableNode Value}

@[simp] theorem runs_modifySelf {change : HashTable → HashTable} :
    Runs (modifySelf change) state done raises ↔
      done () { state with self := change state.self } := Iff.rfl

theorem runs_read (live : state.heap.cells node = some cell) :
    Runs (read node) state post raises ↔ post cell state := by
  simp [read, live]

theorem runs_write (live : (state.heap.cells node).isSome) :
    Runs (write node change) state done raises ↔
      done () { state with heap := state.heap.adjust node change } := by
  rcases Option.isSome_iff_exists.mp live with ⟨cell, found⟩
  simp [write, runs_read found]

theorem runs_delete (live : (state.heap.cells node).isSome) :
    Runs (delete node) state done raises ↔
      done () { state with heap := state.heap.free node } := by
  rcases Option.isSome_iff_exists.mp live with ⟨cell, found⟩
  simp [delete, runs_read found]

theorem runs_slot {buckets : List (Option Addr)} {bucket : Nat} {head : Option Addr}
    {post : Option Addr → State Value → Prop} (found : buckets[bucket]? = some head) :
    Runs (slot buckets bucket) state post raises ↔ post head state := by
  simp [slot, found]

theorem runs_bucketOf {hash : UInt64} {capacity : Nat} {post : Nat → State Value → Prop}
    (positive : 0 < capacity) :
    Runs (bucketOf hash capacity) state post raises ↔ post (hash.toNat % capacity) state := by
  simp [bucketOf, Nat.ne_of_gt positive]

/-- A tick moves the clock, whether it raises or not. -/
theorem runs_tick (returns : ∀ next, Quiet state next → done () next)
    (fails : ∀ moment next, policy.faults moment = true → Quiet state next → raises .raised next) :
    Runs (tick policy) state done raises := by
  simp only [tick, runs_bind, runs_get, runs_set, runs_refuse]
  constructor
  · intro faulty
    exact fails _ _ faulty ⟨rfl, rfl⟩
  · intro _
    exact returns _ ⟨rfl, rfl⟩

theorem runs_hashOfValue {value : Value} {post : UInt64 → State Value → Prop}
    (returns : ∀ next, Quiet state next → post (policy.hashValue value) next)
    (fails : ∀ moment next, policy.faults moment = true → Quiet state next → raises .raised next) :
    Runs (hashOfValue policy value) state post raises := by
  rw [hashOfValue, runs_bind]
  exact runs_tick returns fails

theorem runs_hashOfKey {key : Key} {post : UInt64 → State Value → Prop}
    (returns : ∀ next, Quiet state next → post (policy.hashKey key) next)
    (fails : ∀ moment next, policy.faults moment = true → Quiet state next → raises .raised next) :
    Runs (hashOfKey policy key) state post raises := by
  rw [hashOfKey, runs_bind]
  exact runs_tick returns fails

theorem runs_allocate {size : Nat} (returns : ∀ next, Quiet state next → done () next)
    (fails : ∀ moment next, policy.faults moment = true → Quiet state next → raises .raised next) :
    Runs (allocate policy size) state done raises := by
  unfold allocate
  split
  · exact returns state .refl
  · exact runs_tick returns fails

/-- `SizeAdjust` yields null slots. -/
theorem runs_sizeAdjust {size : Nat} {post : List (Option Addr) → State Value → Prop}
    (returns : ∀ next, Quiet state next → size ≤ policy.maxSize →
      post (List.replicate size none) next)
    (fails : ∀ moment next, policy.faults moment = true → Quiet state next → raises .raised next)
    (large : policy.maxSize < size → raises (.lengthError "Vector size exceeds max_size") state) :
    Runs (sizeAdjust policy size) state post raises := by
  simp only [sizeAdjust, runs_bind, runs_refuse]
  constructor
  · exact large
  · intro fits
    apply runs_allocate
    · intro next same
      exact returns next same (Nat.le_of_not_lt fits)
    · exact fails

/-- A new node is added to the frame. -/
theorem newNode_spec {value : Value} (valid : Valid policy frame state entries) :
    Runs (newNode policy value) state
      (fun node next => frame node = none ∧ next.self = state.self ∧
        Valid policy (Function.update frame node (some ⟨value, none, none, none⟩)) next entries)
      (Interrupted policy state) := by
  rw [newNode, runs_bind]
  apply runs_tick
  · intro first firstSame
    rw [runs_bind]
    apply runs_tick
    · intro second secondSame
      have same := firstSame.trans secondSame
      have fresh := (valid.quiet same).next_fresh
      simp only [runs_bind, runs_get, runs_set, runs_pure]
      refine ⟨fresh.2, same.2, ?_⟩
      constructor
      · apply (valid.quiet same).holds.congr
        intro address member
        apply Function.update_of_ne
        rintro rfl
        exact fresh.1 member
      · intro address absent
        by_cases new : address = second.heap.next
        · subst new
          simp
        · rw [Heap.alloc_cells, Function.update_of_ne new, Function.update_of_ne new]
          exact (valid.quiet same).framed address absent
      · intro address member
        rw [Function.update_of_ne]
        · exact valid.apart address member
        · rintro rfl
          exact fresh.1 member
    · intro moment second faulty secondSame
      exact .mk faulty (firstSame.trans secondSame)
  · intro moment first faulty firstSame
    exact .mk faulty firstSame

/-- Deleting a node of the frame. -/
theorem delete_spec (valid : Valid policy (Function.update frame node (some cell)) state entries)
    (new : frame node = none) :
    Runs (delete node) state (fun _ next => Valid policy frame next entries) raises := by
  have live := valid.extends_frame (Function.update_self ..)
  rw [runs_delete (by simp [live])]
  constructor
  · apply valid.holds.congr
    intro address member
    apply Function.update_of_ne
    rintro rfl
    exact valid.not_mem member
  · intro address other
    by_cases same : address = node
    · subst same
      simp [new]
    · rw [Heap.free_cells, Function.update_of_ne same, valid.framed address other,
        Function.update_of_ne same]
  · intro address member
    exact valid.apart_of_update member

end Rules

end Wan.Container.HashTable
