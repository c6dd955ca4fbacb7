import Wan.Container.HashTable.Invariant

/-!
# The strong guarantee of hash tables

A `Push` or `ChangeLoadFactor` that raises, wherever it does, leaves every table of the world with
the entries it had, and with them what lookups find and what iteration lists.  What a table shows
is read under the calm policy, under which lookups do not raise themselves.
-/

namespace Wan.Container.HashTable

open Wan.Library Wan.Library.LinkedList Wan.Library.Program

variable {Key Value : Type}

/-- The policy under which nothing raises. -/
def Policy.calm (policy : Policy Key Value) : Policy Key Value :=
  { policy with faults := fun _ => false }

/-- A member function returns a value. -/
def Returns {α : Type} (method : Method Value α) (state : State Value) (value : α) : Prop :=
  ∃ next, method.run.run state = some (.ok value, next)

/-- The table represents the entries, lookups find their nodes, and iteration lists their values
in order. -/
structure Shows [DecidableEq Key] (policy : Policy Key Value) (state : State Value)
    (entries : List (Entry Value)) : Prop where
  holds : Holds policy state.heap.cells state.self entries
  findKey : ∀ keyValue, Returns (findKey policy.calm keyValue) state
    ((lookup policy entries keyValue).map Prod.fst)
  find : ∀ value, Returns (find policy.calm value) state
    ((lookup policy entries (policy.valueImitationFunctions value)).map Prod.fst)
  lists : Returns elements state (entries.map Prod.snd)

variable {policy : Policy Key Value} {frame : Nodes Value} {state next : State Value}
variable {entries : List (Entry Value)}

/-- A member function that does not raise returns. -/
theorem returns_of_runs {α : Type} {method : Method Value α} {value : α}
    {post : State Value → Prop}
    (runs : Runs method state (fun result next => post next ∧ result = value) fun _ _ => False) :
    Returns method state value := by
  rcases runs.outcome with ⟨result, next, ran, _, rfl⟩ | ⟨_, _, _, never⟩
  · exact ⟨next, ran⟩
  · exact never.elim

/-- What a table represents does not depend on what raises. -/
theorem Valid.calm (valid : Valid policy frame state entries) :
    Valid policy.calm frame state entries where
  holds :=
    { valid.holds with
      bucketed := ⟨valid.holds.bucketed.length_eq, valid.holds.bucketed.slots,
        valid.holds.bucketed.chains⟩ }
  framed := valid.framed
  apart := valid.apart

variable [DecidableEq Key]

/-- A valid table shows its entries. -/
theorem Valid.shows (valid : Valid policy frame state entries) :
    Shows policy state entries where
  holds := valid.holds
  findKey _ := returns_of_runs (runs_findNodeByKey valid.calm fun _ _ faulty _ => by cases faulty)
  find _ := returns_of_runs (runs_find valid.calm fun _ _ faulty _ => by cases faulty)
  lists := returns_of_runs (elements_spec valid)

/-- A `Push` or `ChangeLoadFactor` on a table. -/
inductive Raises (policy : Policy Key Value) (state : State Value) (fault : Fault)
    (next : State Value) : Prop where
  | push (value : Value)
      (raised : (push policy value).run.run state = some (.error fault, next))
  | changeLoadFactor (newLoadFactor : UInt64)
      (raised : (changeLoadFactor policy newLoadFactor).run.run state =
        some (.error fault, next))

/-- Whatever raises in it, the call leaves the entries as they were. -/
theorem Raises.valid {fault : Fault} (raises : Raises policy state fault next)
    (valid : Valid policy frame state entries) : Valid policy frame next entries := by
  cases raises with
  | push value raised => exact ((push_spec valid).ended raised).2
  | changeLoadFactor newLoadFactor raised =>
      exact ((changeLoadFactor_spec newLoadFactor valid).ended raised).2

/-- In every world that commands reach, a `Push` or `ChangeLoadFactor` that raises leaves all
tables sound with the entries they had, and the table that it was called on shows the same. -/
theorem strong_guarantee (policy : Policy Key Value) (commands : List (Command Key Value))
    (world : World Value) (executed : execute policy .empty commands = some world)
    (name : Nat) (table : HashTable) (found : world.tables name = some table) (fault : Fault)
    (next : State Value) (raises : Raises policy (world.enter table) fault next) :
    ∃ entries, Sound policy world entries ∧
      Sound policy ((world.leave next).put name (some next.self)) entries ∧
      Shows policy (world.enter table) (entries name) ∧ Shows policy next (entries name) := by
  rcases hashTable_run_invariant policy commands with ⟨reached, ran, entries, sound⟩
  rw [executed] at ran
  cases ran
  have before : Valid policy (rest world.heap.cells (entries name)) (world.enter table)
      (entries name) := (sound.holds name table found).valid
  have after := raises.valid before
  have kept := sound.put after
  rw [Function.update_eq_self] at kept
  exact ⟨entries, sound, kept, before.shows, after.shows⟩

/-- The hash of the element that is there raises when a second one makes the table grow. -/
theorem strong_guarantee_rehash :
    let policy := mapPolicy (fun _ : Nat => 3) 100 100 fun moment => moment == 10
    ∃ (world : World (Nat × Nat)) (table : HashTable) (next : State (Nat × Nat)),
      world.tables 0 = some table ∧ Raises policy (world.enter table) .raised next ∧
      ∃ entries, Sound policy world entries ∧
        Sound policy ((world.leave next).put 0 (some next.self)) entries ∧
        Shows policy (world.enter table) (entries 0) ∧ Shows policy next (entries 0) := by
  intro policy
  let commands : List (Command Nat (Nat × Nat)) :=
    [.construct 0 10, .call 0 (.changeLoadFactor 1), .call 0 (.push (1, 7))]
  have ran : (do
      let world ← execute policy .empty commands
      let table ← world.tables 0
      let (outcome, _) ← (push policy (2, 8)).run.run (world.enter table)
      match outcome with
      | .ok _ => none
      | .error fault => some fault) = some Fault.raised := by
    decide +kernel
  rcases Option.bind_eq_some_iff.mp ran with ⟨world, executed, ran⟩
  rcases Option.bind_eq_some_iff.mp ran with ⟨table, found, ran⟩
  rcases Option.bind_eq_some_iff.mp ran with ⟨⟨fault | inserted, next⟩, raised, isFault⟩
  · cases isFault
    have raises : Raises policy (world.enter table) .raised next := .push (2, 8) raised
    exact ⟨world, table, next, found, raises,
      strong_guarantee policy commands world executed 0 table found .raised next raises⟩
  · cases isFault

end Wan.Container.HashTable
