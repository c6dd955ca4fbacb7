import Wan.Library.Positions
import Wan.Web.ConnectionRegistry.Model

/-!
# What a turn does to the registry

A connection is in the table, in the local table of a call, in a dispatched operation, or it
was removed or closed; a turn takes it from one place to another.
-/

namespace Wan.Web.ConnectionRegistry

open Wan.Library

/-- The connections that the party has taken and not closed yet. -/
def Party.held : Party → List Connection
  | .closeAll (.loop connections) | .closeAllNow (.loop connections) => connections
  | .closeConnection connection => [connection]
  | _ => []

/-- The id that a call of `RegisterClose` has returned. -/
def Party.handed : Party → List UInt64
  | .finished (.registered (.ok id)) => [id]
  | _ => []

/-- All connections that are taken and not closed yet. -/
def held (parties : Multiset Party) : Multiset Connection := parties.bind fun party => party.held

/-- The ids that calls have returned. -/
def handed (parties : Multiset Party) : Multiset UInt64 := parties.bind fun party => party.handed

section Sums

variable {party : Party} {parties others : Multiset Party} {list : List Party}

@[simp] theorem held_nil : held ↑([] : List Party) = 0 := rfl

@[simp] theorem held_cons : held ↑(party :: list) = party.held + held ↑list := by
  rw [← Multiset.cons_coe, held, Multiset.cons_bind, held]

@[simp] theorem held_add : held (parties + others) = held parties + held others :=
  Multiset.add_bind ..

@[simp] theorem handed_nil : handed ↑([] : List Party) = 0 := rfl

@[simp] theorem handed_cons : handed ↑(party :: list) = party.handed + handed ↑list := by
  rw [← Multiset.cons_coe, handed, Multiset.cons_bind, handed]

@[simp] theorem handed_add : handed (parties + others) = handed parties + handed others :=
  Multiset.add_bind ..

end Sums

/-- What a turn does. -/
inductive Turned (shared : State) : Party → State → List Party → Prop where
  | refused {registration failure} :
      Turned shared (.registerClose registration) shared
        [.finished (.registered (.error failure))]
  | skips {registration failure} (available : shared.nextId ≠ 0) :
      Turned shared (.registerClose registration)
        { shared with nextId := shared.nextId + 1 } [.finished (.registered (.error failure))]
  | registers {registration close} (available : shared.nextId ≠ 0)
      (given : registration.close = some close) :
      Turned shared (.registerClose registration)
        { shared with
          connections := shared.connections.insert (registration.connection shared.nextId close)
          nextId := shared.nextId + 1
          registered := shared.registered ++ [registration.connection shared.nextId close] }
        [.finished (.registered (.ok shared.nextId))]
  | removes {id} : Turned shared (.remove id) (shared.remove id) [.finished .done]
  | takes : Turned shared (.closeAll .lock) { shared with connections := .empty }
      [.closeAll (.loop shared.connections.toList)]
  | takesNow : Turned shared (.closeAllNow .lock) { shared with connections := .empty }
      [.closeAllNow (.loop shared.connections.toList)]
  | ends : Turned shared (.closeAll (.loop [])) shared [.finished .done]
  | endsNow : Turned shared (.closeAllNow (.loop [])) shared [.finished .done]
  | dispatches {connections connection index} (found : connections[index]? = some connection) :
      Turned shared (.closeAll (.loop connections)) shared
        [.closeAll (.loop (connections.eraseIdx index)), .closeConnection connection]
  | closesNow {connections connection index active}
      (found : connections[index]? = some connection) :
      Turned shared (.closeAllNow (.loop connections)) (shared.close connection active)
        [.closeAllNow (.loop (connections.eraseIdx index))]
  | closes {connection active} :
      Turned shared (.closeConnection connection) (shared.close connection active) []

section Turn

variable {shared later : State} {party : Party} {outcome : Outcome} {left : List Party}

theorem register_turned {registration : Registration} {close : Nat} {memory : Bool}
    (given : registration.close = some close) :
    Turned shared (.registerClose registration) (shared.register registration close memory).2
      [.finished (.registered (shared.register registration close memory).1)] := by
  unfold State.register
  split
  · exact .refused
  next available =>
    split
    · exact .registers available given
    · exact .skips available

theorem turn_turned (taken : turn shared party outcome = some (later, left)) :
    Turned shared party later left := by
  unfold turn at taken
  split at taken
  case h_1 =>
    split at taken <;> cases taken
    next => exact .refused
    next given => exact register_turned given
  case h_2 =>
    cases taken
    exact .removes
  case h_3 =>
    cases taken
    exact .takes
  case h_4 =>
    cases taken
    exact .ends
  case h_5 =>
    rcases Option.bind_eq_some_iff.mp taken with ⟨connection, found, rest⟩
    cases rest
    exact .dispatches found
  case h_6 =>
    cases taken
    exact .takesNow
  case h_7 =>
    cases taken
    exact .endsNow
  case h_8 =>
    rcases Option.bind_eq_some_iff.mp taken with ⟨connection, found, rest⟩
    cases rest
    exact .closesNow found
  case h_9 =>
    cases taken
    exact .closes
  case h_10 => cases taken

/-- A local table is the entry that comes next and those that are left. -/
theorem coe_eraseIdx {connections : List Connection} {connection : Connection} {index : Nat}
    (found : connections[index]? = some connection) :
    (connections : Multiset Connection) =
      connections.eraseIdx index + ([connection] : List Connection) := by
  rcases exists_split_of_getElem? found with ⟨front, back, split, -, erased⟩
  rw [erased, split, Multiset.coe_add, Multiset.coe_eq_coe]
  exact List.perm_middle.trans (List.perm_append_singleton ..).symm

/-- `Remove` moves an entry to those that were removed. -/
theorem coe_remove {id : UInt64} :
    ((shared.remove id).connections.toList : Multiset Connection) + (shared.remove id).removed =
      shared.connections.toList + shared.removed := by
  unfold State.remove
  split
  next => rfl
  next connection found =>
    have stored := InsertionMap.mem_of_find? found
    have same := InsertionMap.key_of_find? found
    rcases List.append_of_mem stored with ⟨front, back, split⟩
    rw [← same, InsertionMap.erase_middle split, split, Multiset.coe_add, Multiset.coe_add,
      Multiset.coe_eq_coe, ← List.append_assoc]
    exact (List.perm_append_singleton ..).trans (List.perm_middle.append_right _).symm

end Turn

end Wan.Web.ConnectionRegistry
