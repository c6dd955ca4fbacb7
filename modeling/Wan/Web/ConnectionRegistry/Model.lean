import Wan.Library.InsertionMap
import Wan.Library.Parties

/-!
# `Web/Server/ConnectionRegistry.hpp`

The parties are the calls of `RegisterClose`, `Remove`, `CloseAll` and `CloseAllNow` and the
operations that `CloseAll` has dispatched.  A turn is one section under `MemberMutex`, one
pass of a loop, or one dispatched operation, which an executor may run at any later time.
What comes first in an `unordered_map` is left open: a pass takes any entry.
-/

namespace Wan.Web.ConnectionRegistry

open Wan.Library

/-- What `RegisterClose` throws. -/
inductive Failure where
  /-- `std::invalid_argument`. -/
  | invalidArgument (what : String)
  /-- `std::overflow_error`. -/
  | overflowError (what : String)
  /-- `std::bad_alloc`, thrown by `emplace`. -/
  | badAlloc
  deriving DecidableEq, Repr

/-- A shared object: one that the caller has passed, or one that `RegisterClose` has made and
that only the entry holds. -/
inductive Resource where
  | passed (address : Nat)
  | made
  deriving DecidableEq, Repr

/-- `Entry` with the key that it has in the table. `Close` is never empty, so the checks of
it in `CloseAll` and `CloseAllNow` succeed. -/
structure Connection where
  id : UInt64
  executor : Nat
  close : Nat
  cancelSignal : Resource
  isHandlerActive : Resource
  deriving DecidableEq, Repr

/-- The arguments of `RegisterClose`. -/
structure Registration where
  executor : Nat
  close : Option Nat
  cancelSignal : Option Nat
  isHandlerActive : Option Nat
  deriving DecidableEq, Repr

/-- The table and the next id, and what has happened to the connections: no turn reads that. -/
structure State where
  connections : InsertionMap Connection.id
  nextId : UInt64
  /-- The entries whose ids were handed out. -/
  registered : List Connection
  /-- The entries that `Remove` has erased. -/
  removed : List Connection
  /-- The entries whose `Close` was called. -/
  closed : List Connection
  /-- The signals that were emitted. -/
  emitted : List Resource

/-- What a turn finds: which entry comes next, whether the handler is active, and whether
`emplace` gets its memory. -/
structure Outcome where
  next : Nat := 0
  active : Bool := false
  memory : Bool := true
  deriving DecidableEq, Repr

/-- Where a call of `CloseAll` or `CloseAllNow` is. -/
inductive CloseStage where
  | lock
  /-- The loop, with the entries of the table `Connections` that are left. -/
  | loop (connections : List Connection)
  deriving DecidableEq

/-- What a call returns. -/
inductive Result where
  | registered (id : Except Failure UInt64)
  | done
  deriving DecidableEq

/-- A call or a dispatched operation, by what is left of it. -/
inductive Party where
  | registerClose (registration : Registration)
  | remove (id : UInt64)
  | closeAll (stage : CloseStage)
  | closeAllNow (stage : CloseStage)
  /-- The operation `CloseConnection`. -/
  | closeConnection (connection : Connection)
  | finished (result : Result)
  deriving DecidableEq

/-- The resource that was passed, or a new one. -/
def Resource.ofPassed : Option Nat → Resource
  | some address => .passed address
  | none => .made

/-- The entry that `RegisterClose` makes. -/
def Registration.connection (registration : Registration) (id : UInt64) (close : Nat) :
    Connection where
  id := id
  executor := registration.executor
  close := close
  cancelSignal := .ofPassed registration.cancelSignal
  isHandlerActive := .ofPassed registration.isHandlerActive

/-- What `IsHandlerActive->load` returns; nobody sets a flag that only the entry holds. -/
def Connection.isActive (connection : Connection) (active : Bool) : Bool :=
  match connection.isHandlerActive with
  | .passed _ => active
  | .made => false

namespace State

/-- The section of `RegisterClose`. -/
def register (shared : State) (registration : Registration) (close : Nat) (memory : Bool) :
    Except Failure UInt64 × State :=
  if shared.nextId = 0 then
    (.error (.overflowError "connection registry id space exhausted"), shared)
  else if memory then
    let connection := registration.connection shared.nextId close
    (.ok shared.nextId,
      { shared with
        connections := shared.connections.insert connection
        nextId := shared.nextId + 1
        registered := shared.registered ++ [connection] })
  else (.error .badAlloc, { shared with nextId := shared.nextId + 1 })

/-- The section of `Remove`. -/
def remove (shared : State) (id : UInt64) : State :=
  match shared.connections.find? id with
  | none => shared
  | some connection =>
      { shared with
        connections := shared.connections.erase id
        removed := shared.removed ++ [connection] }

/-- A connection is closed: its handler is cancelled when it is active, then `Close` is
called. -/
def close (shared : State) (connection : Connection) (active : Bool) : State :=
  { shared with
    emitted :=
      if connection.isActive active then shared.emitted ++ [connection.cancelSignal]
      else shared.emitted
    closed := shared.closed ++ [connection] }

end State

/-- One turn of a party; there is none behind the end of a call. -/
def turn (shared : State) : Party → Outcome → Option (State × List Party)
  | .registerClose registration, outcome =>
      match registration.close with
      | none =>
          some (shared, [.finished (.registered (.error (.invalidArgument
            "connection registry cannot register an empty close handler")))])
      | some close =>
          let (id, later) := shared.register registration close outcome.memory
          some (later, [.finished (.registered id)])
  | .remove id, _ => some (shared.remove id, [.finished .done])
  | .closeAll .lock, _ =>
      some ({ shared with connections := .empty },
        [.closeAll (.loop shared.connections.toList)])
  | .closeAll (.loop []), _ => some (shared, [.finished .done])
  | .closeAll (.loop connections), outcome => do
      let connection ← connections[outcome.next]?
      some (shared, [.closeAll (.loop (connections.eraseIdx outcome.next)),
        .closeConnection connection])
  | .closeAllNow .lock, _ =>
      some ({ shared with connections := .empty },
        [.closeAllNow (.loop shared.connections.toList)])
  | .closeAllNow (.loop []), _ => some (shared, [.finished .done])
  | .closeAllNow (.loop connections), outcome => do
      let connection ← connections[outcome.next]?
      some (shared.close connection outcome.active,
        [.closeAllNow (.loop (connections.eraseIdx outcome.next))])
  | .closeConnection connection, outcome => some (shared.close connection outcome.active, [])
  | .finished _, _ => none

/-- The calls that threads make. -/
inductive Call where
  | registerClose (registration : Registration)
  | remove (id : UInt64)
  | closeAll
  | closeAllNow
  deriving DecidableEq, Repr

/-- The call before its first section. -/
def Call.party : Call → Party
  | .registerClose registration => .registerClose registration
  | .remove id => .remove id
  | .closeAll => .closeAll .lock
  | .closeAllNow => .closeAllNow .lock

/-- A registry and the calls that are made on it. -/
def system : System State Party Outcome Call where
  turn := turn
  outside shared call := some (shared, [call.party])

/-- A registry that was just constructed. -/
def initial : Pool State Party :=
  ⟨⟨.empty, 1, [], [], [], []⟩, []⟩

end Wan.Web.ConnectionRegistry
