import Mathlib.Logic.Equiv.Basic
import Wan.Container.HashTable.World

/-!
# The representation invariant of hash tables

`Sound` describes a heap that several tables share: each of them represents its
entries, no node belongs to two tables, and unless user code or the allocator
raises, no node is leaked.  Every command keeps it.
-/

namespace Wan.Container.HashTable

open Wan.Library Wan.Library.LinkedList Wan.Library.Program

variable {Key Value : Type} {policy : Policy Key Value}

/-- Every table represents its entries, and distinct tables have distinct nodes. -/
structure Sound (policy : Policy Key Value) (world : World Value)
    (entries : Nat → List (Entry Value)) : Prop where
  holds : ∀ name table, world.tables name = some table →
    Holds policy world.heap.cells table (entries name)
  absent : ∀ name, world.tables name = none → entries name = []
  apart : ∀ name other, name ≠ other → ∀ address ∈ addresses (entries name),
    address ∉ addresses (entries other)
  owned : (∀ moment, policy.faults moment = false) → ∀ address,
    (world.heap.cells address).isSome → ∃ name, address ∈ addresses (entries name)

/-- What belongs to others. -/
def rest (nodes : Nodes Value) (entries : List (Entry Value)) : Nodes Value :=
  fun address => if address ∈ addresses entries then none else nodes address

theorem rest_nil (nodes : Nodes Value) : rest nodes [] = nodes := by
  funext address
  simp [rest]

/-- A table that represents its entries is valid next to everything else. -/
theorem Holds.valid {heap : Heap (HashTableNode Value)} {table : HashTable} {clock : Nat}
    {entries : List (Entry Value)} (holds : Holds policy heap.cells table entries) :
    Valid policy (rest heap.cells entries) ⟨heap, clock, table⟩ entries := by
  constructor
  · exact holds
  · intro address outside
    rw [rest, if_neg outside]
  · intro address member
    rw [rest, if_pos member]

/-- The nodes of a table are live. -/
theorem Holds.isSome {nodes : Nodes Value} {table : HashTable} {entries : List (Entry Value)}
    (holds : Holds policy nodes table entries) {address : Addr}
    (member : address ∈ addresses entries) : ∃ cell, nodes address = some cell := by
  rcases List.mem_map.mp member with ⟨entry, stored, rfl⟩
  rcases holds.live stored with ⟨cell, live, _⟩
  exact ⟨cell, live⟩

/-- In the empty world there is nothing to represent. -/
theorem sound_empty : Sound policy (.empty : World Value) fun _ => [] where
  holds name table found := by cases found
  absent _ _ := rfl
  apart _ _ _ address member := absurd member List.not_mem_nil
  owned _ address live := by cases live

namespace Sound

variable {world : World Value} {entries : Nat → List (Entry Value)} {name source : Nat}
variable {table : HashTable} {state : State Value} {stored : List (Entry Value)}

theorem live (sound : Sound policy world entries) {address : Addr}
    (member : address ∈ addresses (entries name)) :
    ∃ cell, world.heap.cells address = some cell := by
  rcases found : world.tables name with _ | table
  · rw [sound.absent name found] at member
    cases member
  · exact (sound.holds name table found).isSome member

/-- A name gets a table that is valid next to all other tables. -/
theorem put (sound : Sound policy world entries)
    (valid : Valid policy (rest world.heap.cells (entries name)) state stored) :
    Sound policy ((world.leave state).put name (some state.self))
      (Function.update entries name stored) := by
  -- Nodes of other tables belong to the frame.
  have framed : ∀ other, other ≠ name → ∀ address ∈ addresses (entries other),
      address ∉ addresses stored ∧ state.heap.cells address = world.heap.cells address := by
    intro other different address member
    rcases sound.live member with ⟨cell, live⟩
    have kept : rest world.heap.cells (entries name) address = some cell := by
      rw [rest, if_neg (sound.apart other name different address member), live]
    constructor
    · intro inside
      simp [valid.apart address inside] at kept
    · rw [valid.extends_frame kept, live]
  constructor
  · intro other table found
    by_cases same : other = name
    · subst same
      simp only [World.put_tables, Function.update_self, Option.some.injEq] at found ⊢
      subst found
      exact valid.holds
    · simp only [World.put_tables, World.leave_tables, Function.update_of_ne same] at found ⊢
      apply (sound.holds other table found).congr
      intro address member
      exact (framed other same address member).2
  · intro other found
    by_cases same : other = name
    · subst same
      simp at found
    · simp only [World.put_tables, World.leave_tables, Function.update_of_ne same] at found ⊢
      exact sound.absent other found
  · intro first second different address member
    by_cases firstSame : first = name
    · subst firstSame
      rw [Function.update_self] at member
      rw [Function.update_of_ne (Ne.symm different)]
      intro inside
      exact (framed second (Ne.symm different) address inside).1 member
    · rw [Function.update_of_ne firstSame] at member
      by_cases secondSame : second = name
      · subst secondSame
        rw [Function.update_self]
        exact (framed first firstSame address member).1
      · rw [Function.update_of_ne secondSame]
        exact sound.apart first second different address member
  · intro calm address live
    by_cases member : address ∈ addresses stored
    · exact ⟨name, by rwa [Function.update_self]⟩
    · have same : state.heap.cells address = rest world.heap.cells (entries name) address :=
        valid.framed address member
      have alive : (rest world.heap.cells (entries name) address).isSome := same ▸ live
      by_cases inside : address ∈ addresses (entries name)
      · simp [rest, inside] at alive
      · rw [rest, if_neg inside] at alive
        rcases sound.owned calm address alive with ⟨other, otherMember⟩
        have different : other ≠ name := by
          rintro rfl
          exact inside otherMember
        exact ⟨other, by rwa [Function.update_of_ne different]⟩

/-- A failed constructor touches no table, and leaks nodes only if something raised. -/
theorem leave (sound : Sound policy world entries)
    (failed : state.heap = world.heap ∨ (∃ moment, policy.faults moment = true) ∧
      ∀ address cell, world.heap.cells address = some cell →
        state.heap.cells address = some cell) :
    Sound policy (world.leave state) entries where
  holds name table found := by
    apply (sound.holds name table found).congr
    intro address member
    rcases failed with same | ⟨_, kept⟩
    · rw [World.leave_heap, same]
    · rcases (sound.holds name table found).isSome member with ⟨cell, live⟩
      rw [live]
      exact kept address cell live
  absent := sound.absent
  apart := sound.apart
  owned calm := by
    rcases failed with same | ⟨⟨moment, raised⟩, _⟩
    · rw [World.leave_heap, same]
      exact sound.owned calm
    · simp [calm moment] at raised

/-- A name without nodes may stop holding a table. -/
theorem drop (sound : Sound policy world entries) (empty : entries name = []) :
    Sound policy (world.put name none) entries where
  holds other table found := by
    have different : other ≠ name := by
      rintro rfl
      simp at found
    rw [World.put_tables, Function.update_of_ne different] at found
    exact sound.holds other table found
  absent other found := by
    by_cases same : other = name
    · rw [same, empty]
    · rw [World.put_tables, Function.update_of_ne same] at found
      exact sound.absent other found
  apart := sound.apart
  owned := sound.owned

/-- The nodes of a table change hands with its fields. -/
theorem transfer (sound : Sound policy world entries) (different : name ≠ source)
    (empty : entries name = []) (found : world.tables source = some table) :
    Sound policy (world.transfer name source table)
      fun other => entries (Equiv.swap name source other) := by
  constructor
  · intro other held otherFound
    by_cases isName : other = name
    · subst isName
      rw [World.transfer, World.put_tables, Function.update_self, Option.some.injEq] at otherFound
      rw [Equiv.swap_apply_left, ← otherFound]
      exact sound.holds source table found
    · rw [World.transfer, World.put_tables, Function.update_of_ne isName, World.put_tables]
        at otherFound
      by_cases isSource : other = source
      · subst isSource
        rw [Function.update_self, Option.some.injEq] at otherFound
        rw [Equiv.swap_apply_right, empty, ← otherFound]
        exact .empty (by decide) (by decide) (Nat.zero_le _)
      · rw [Function.update_of_ne isSource] at otherFound
        rw [Equiv.swap_apply_of_ne_of_ne isName isSource]
        exact sound.holds other held otherFound
  · intro other otherFound
    have notName : other ≠ name := by
      rintro rfl
      simp [World.transfer] at otherFound
    have notSource : other ≠ source := by
      rintro rfl
      simp [World.transfer, Ne.symm different] at otherFound
    rw [World.transfer, World.put_tables, Function.update_of_ne notName, World.put_tables,
      Function.update_of_ne notSource] at otherFound
    rw [Equiv.swap_apply_of_ne_of_ne notName notSource]
    exact sound.absent other otherFound
  · intro first second apart address member
    have unequal := (Equiv.swap name source).injective.ne apart
    exact sound.apart _ _ unequal address member
  · intro calm address live
    rcases sound.owned calm address live with ⟨owner, member⟩
    exact ⟨Equiv.swap name source owner, by rwa [Equiv.swap_apply_self]⟩

end Sound

section Commands

variable {world : World Value} {entries : Nat → List (Entry Value)} {name source : Nat}
variable {old table : HashTable}

/-- A member function that keeps its table valid keeps the world sound. -/
theorem within_spec {α : Type} {method : Method Value α} (sound : Sound policy world entries)
    (runs : Runs method (world.enter table)
      (fun _ next => ∃ stored, Valid policy (rest world.heap.cells (entries name)) next stored)
      fun _ _ => False) :
    ∃ next, world.within name table method = some next ∧ ∃ entries, Sound policy next entries := by
  rcases runs.outcome with ⟨value, state, ran, stored, valid⟩ | ⟨fault, state, ran, impossible⟩
  · exact ⟨_, by rw [World.within, ran]; rfl, _, sound.put valid⟩
  · exact absurd impossible id

/-- Clearing a table empties it. -/
theorem cleared_spec (sound : Sound policy world entries) (found : world.tables name = some table) :
    ∃ next, world.within name table clearNodes = some next ∧
      (∀ other, other ≠ name → next.tables other = world.tables other) ∧
      Sound policy next (Function.update entries name []) := by
  have valid : Valid policy (rest world.heap.cells (entries name)) (world.enter table)
      (entries name) := (sound.holds name table found).valid
  have runs : Runs clearNodes (world.enter table)
      (fun _ next => Valid policy (rest world.heap.cells (entries name)) next [])
      fun _ _ => False :=
    (clearNodes_spec valid).mono (fun _ _ outcome => outcome.1) fun _ _ => id
  rcases runs.outcome with ⟨_, state, ran, cleared⟩ | ⟨fault, state, ran, impossible⟩
  · refine ⟨_, by rw [World.within, ran]; rfl, ?_, sound.put cleared⟩
    intro other different
    rw [World.put_tables, Function.update_of_ne different, World.leave_tables]
  · exact absurd impossible id

/-- A constructor that makes a valid table, or raises and touches no table, keeps
the world sound. -/
theorem create_spec {self : HashTable} {constructor : Method Value Unit}
    (sound : Sound policy world entries) (free : world.tables name = none)
    (runs : Runs constructor (world.enter self)
      (fun _ next => ∃ stored, Valid policy world.heap.cells next stored)
      (fun _ next => next.heap = world.heap ∨ (∃ moment, policy.faults moment = true) ∧
        ∀ address cell, world.heap.cells address = some cell →
          next.heap.cells address = some cell)) :
    ∃ next, world.create name self constructor = some next ∧
      ∃ entries, Sound policy next entries := by
  rcases runs.outcome with ⟨_, state, ran, stored, valid⟩ | ⟨fault, state, ran, failed⟩
  · have beside : Valid policy (rest world.heap.cells (entries name)) state stored := by
      rw [sound.absent name free, rest_nil]
      exact valid
    exact ⟨_, by rw [World.create, ran]; rfl, _, sound.put beside⟩
  · exact ⟨_, by rw [World.create, ran]; rfl, entries, sound.leave failed⟩

/-- Copy assignment replaces the entries of the target by copies. -/
theorem copyAssign_spec (sound : Sound policy world entries) (found : world.tables name = some old)
    (sourceFound : world.tables source = some table) :
    ∃ next, copyAssign policy world name old table = some next ∧
      ∃ entries, Sound policy next entries := by
  have oldHolds := sound.holds name old found
  have copied : Runs (copyConstruct policy table)
      (world.enter (.blank table.loadFactor table.hashCapacity)) _ _ :=
    copyConstruct_spec (sound.holds source table sourceFound) rfl
  rcases copied.outcome with ⟨_, state, ran, copies, _, valid⟩ | ⟨fault, state, ran, failed⟩
  · -- The old table still represents its entries next to the copy.
    have oldStays : Holds policy state.heap.cells old (entries name) := by
      apply oldHolds.congr
      intro address member
      rcases oldHolds.isSome member with ⟨cell, live⟩
      rw [valid.extends_frame live, live]
    have disposed : Runs clearNodes (⟨state.heap, state.clock, old⟩ : State Value)
        (fun _ next => Valid policy (rest state.heap.cells (entries name)) next [])
        fun _ _ => False :=
      (clearNodes_spec oldStays.valid).mono (fun _ _ outcome => outcome.1) fun _ _ => id
    rcases disposed.outcome with ⟨_, last, ranLast, cleared⟩ | ⟨_, _, _, impossible⟩
    · have cells : ∀ address, last.heap.cells address =
          rest state.heap.cells (entries name) address :=
        fun address => cleared.framed address List.not_mem_nil
      have beside : Valid policy (rest world.heap.cells (entries name))
          ⟨last.heap, last.clock, state.self⟩ copies := by
        constructor
        · apply valid.holds.congr
          intro address member
          have outside : address ∉ addresses (entries name) := by
            intro inside
            rcases oldHolds.isSome inside with ⟨cell, live⟩
            cases live.symm.trans (valid.apart address member)
          rw [cells address, rest, if_neg outside]
        · intro address outside
          rw [cells address, rest, rest]
          split
          · rfl
          · exact valid.framed address outside
        · intro address member
          rw [rest]
          split
          · rfl
          · exact valid.apart address member
      refine ⟨_, ?_, _, sound.put beside⟩
      simp only [copyAssign, ran, Option.bind_eq_bind, Option.bind_some]
      have entered : ((world.leave state).put name (some state.self)).enter old =
          ⟨state.heap, state.clock, old⟩ := rfl
      rw [entered, ranLast]
      rfl
    · exact absurd impossible id
  · refine ⟨_, ?_, entries, sound.leave (.inr failed)⟩
    rw [copyAssign, ran]
    rfl

variable [DecidableEq Key]

/-- The insertion-ordered map that a table represents. -/
def Holds.map {nodes : Nodes Value} {stored : List (Entry Value)}
    (holds : Holds policy nodes table stored) : InsertionMap policy.valueImitationFunctions where
  toList := stored.map Prod.snd
  distinct := by
    rw [List.map_map]
    exact holds.keys

/-- Every command has an effect and keeps the world sound. -/
theorem step_spec (command : Command Key Value) (sound : Sound policy world entries) :
    ∃ next, step policy world command = some next ∧ ∃ entries, Sound policy next entries := by
  have skipped : ∃ next, some world = some next ∧ ∃ entries, Sound policy next entries :=
    ⟨world, rfl, entries, sound⟩
  cases command with
  | construct name capacity =>
      rcases found : world.tables name with _ | table
      · simp only [step, found]
        apply create_spec sound found
        apply (construct_spec rfl).mono
        · intro _ next valid
          exact ⟨[], valid⟩
        · intro _ next failed
          exact .inl failed.2
      · simpa only [step, found] using skipped
  | copyConstruct name source =>
      rcases found : world.tables name with _ | other
      · rcases sourceFound : world.tables source with _ | table
        · simpa only [step, found, sourceFound] using skipped
        · simp only [step, found, sourceFound]
          apply create_spec sound found
          apply (copyConstruct_spec (sound.holds source table sourceFound) rfl).mono
          · rintro _ next ⟨copies, _, valid⟩
            exact ⟨copies, valid⟩
          · intro _ next failed
            exact .inr failed
      · simpa only [step, found] using skipped
  | moveConstruct name source =>
      rcases found : world.tables name with _ | other
      · rcases sourceFound : world.tables source with _ | table
        · simpa only [step, found, sourceFound] using skipped
        · have different : name ≠ source := by
            rintro rfl
            simp [found] at sourceFound
          exact ⟨_, by simp only [step, found, sourceFound], _,
            sound.transfer different (sound.absent name found) sourceFound⟩
      · simpa only [step, found] using skipped
  | copyAssign target source =>
      rcases found : world.tables target with _ | old
      · simpa only [step, found] using skipped
      · rcases sourceFound : world.tables source with _ | table
        · simpa only [step, found, sourceFound] using skipped
        · simp only [step, found, sourceFound]
          split
          · exact skipped
          · exact copyAssign_spec sound found sourceFound
  | moveAssign target source =>
      rcases found : world.tables target with _ | old
      · simpa only [step, found] using skipped
      · rcases sourceFound : world.tables source with _ | table
        · simpa only [step, found, sourceFound] using skipped
        · simp only [step, found, sourceFound]
          split
          · exact skipped
          · next different =>
            rcases cleared_spec sound found with ⟨cleared, ran, others, soundCleared⟩
            have stays := (others source (Ne.symm different)).trans sourceFound
            refine ⟨_, by rw [moveAssign, ran]; rfl, _, soundCleared.transfer different ?_ stays⟩
            rw [Function.update_self]
  | destroy name =>
      rcases found : world.tables name with _ | table
      · simpa only [step, found] using skipped
      · rcases cleared_spec sound found with ⟨cleared, ran, _, soundCleared⟩
        refine ⟨cleared.put name none, ?_, _, soundCleared.drop (Function.update_self ..)⟩
        simp [step, found, ran]
  | call name operation =>
      rcases found : world.tables name with _ | table
      · simpa only [step, found] using skipped
      · simp only [step, found]
        apply within_spec sound
        have holds := sound.holds name table found
        have same : holds.map.toList = (entries name).map Prod.snd := rfl
        apply (perform_spec operation holds.valid same).mono
        · rintro _ next ⟨stored, valid, _⟩
          exact ⟨stored, valid⟩
        · exact fun _ _ => id

/-- Every sequence of commands has an effect and keeps the world sound. -/
theorem execute_spec (commands : List (Command Key Value)) (sound : Sound policy world entries) :
    ∃ next, execute policy world commands = some next ∧ ∃ entries, Sound policy next entries := by
  induction commands generalizing world entries with
  | nil => exact ⟨world, rfl, entries, sound⟩
  | cons command commands ih =>
      rcases step_spec command sound with ⟨middle, stepped, stored, soundMiddle⟩
      rcases ih soundMiddle with ⟨next, executed, soundNext⟩
      exact ⟨next, by rw [execute, stepped]; exact executed, soundNext⟩

end Commands

/-- After any sequence of constructions, copies, moves, assignments, destructions and
member function calls, whatever raises in between, every table represents its
entries on two lists of links at once. -/
theorem hashTable_run_invariant [DecidableEq Key] (policy : Policy Key Value)
    (commands : List (Command Key Value)) :
    ∃ world, execute policy .empty commands = some world ∧
      ∃ entries, Sound policy world entries :=
  execute_spec commands sound_empty

end Wan.Container.HashTable
