import Wan.Fault.Code
import Wan.Library.Parties

/-!
# Completion handlers of `Transport/Transmission.hpp`

`AsyncReadSome` and `AsyncWriteSome` with a handler start a coroutine that waits for the operation
and hand the handler to a `CompletionState` that the coroutine shares with the call.  A turn is
what a call or a coroutine does up to its next suspension, its next section under the mutex or
the handler.  Anything that allocates or that asks the transport may throw, and a coroutine may
be destroyed with its executor.
-/

namespace Wan.Transport.Completion

open Wan.Fault Wan.Library

/-- What a handler is called with. -/
structure Arguments where
  ec : BoostError
  bytes : Nat
  deriving DecidableEq, Repr

/-- The states that exist, by the number of their call, and what has happened: no turn reads
that, except that a new call has a new number. -/
structure State where
  /-- The states whose `MemberHandler` is not empty. -/
  stored : List Nat
  /-- The shared pointers to states. -/
  pointers : List Nat
  /-- The calls that were made. -/
  called : List Nat
  /-- The handlers that were called. -/
  invoked : List (Nat × Arguments)
  /-- The handlers that were destroyed before. -/
  dropped : List Nat
  /-- What the operations have returned. -/
  answers : List (Nat × StdError × Nat)
  /-- The calls in which something has thrown. -/
  failures : List Nat
  deriving DecidableEq

/-- A call or its coroutine, by what is left of it. -/
inductive Party where
  /-- The call before `Executor` and `shared_from_this`. -/
  | begin (call : Nat)
  /-- Before `make_shared`. -/
  | share (call : Nat)
  /-- Before `co_spawn`. -/
  | spawn (call : Nat)
  /-- Before the end of the call. -/
  | leave (call : Nat)
  /-- `BridgeRead` or `BridgeWrite`, waiting for the operation. -/
  | bridge (call : Nat)
  /-- `Complete` before its section. -/
  | complete (call : Nat) (arguments : Arguments)
  /-- `Complete` before it calls the handler. -/
  | invoke (call : Nat) (arguments : Arguments)
  deriving DecidableEq

/-- How a turn ends. -/
inductive Outcome where
  | succeeds
  | throws
  /-- `co_spawn` starts the coroutine and throws, as when the coroutine runs inside of it. -/
  | startsAndThrows
  /-- The operation returns. -/
  | answers (ec : StdError) (bytes : Nat)
  /-- The coroutine is destroyed. -/
  | destroyed
  deriving DecidableEq

namespace State

/-- `MemberHandler` is set by the constructor. -/
def share (shared : State) (call : Nat) : State :=
  { shared with stored := shared.stored ++ [call], pointers := shared.pointers ++ [call] }

/-- A copy of the shared pointer. -/
def point (shared : State) (call : Nat) : State :=
  { shared with pointers := shared.pointers ++ [call] }

/-- The section of `Complete` when there is a handler. -/
def take (shared : State) (call : Nat) : State :=
  { shared with stored := shared.stored.erase call }

/-- The end of a shared pointer; the last one destroys the state with its handler. -/
def release (shared : State) (call : Nat) : State :=
  let pointers := shared.pointers.erase call
  if call ∈ shared.stored ∧ call ∉ pointers then
    { shared with
      pointers
      stored := shared.stored.erase call
      dropped := shared.dropped ++ [call] }
  else
    { shared with pointers }

def invoke (shared : State) (call : Nat) (arguments : Arguments) : State :=
  { shared with invoked := shared.invoked ++ [(call, arguments)] }

def drop (shared : State) (call : Nat) : State :=
  { shared with dropped := shared.dropped ++ [call] }

def answer (shared : State) (call : Nat) (ec : StdError) (bytes : Nat) : State :=
  { shared with answers := shared.answers ++ [(call, ec, bytes)] }

def fail (shared : State) (call : Nat) : State :=
  { shared with failures := shared.failures ++ [call] }

end State

section System

variable (platform : Platform)

/-- `operation_aborted` without a byte. -/
def aborted : Arguments := ⟨platform.boost .canceled, 0⟩

/-- One turn. -/
def turn (shared : State) : Party → Outcome → Option (State × List Party)
  | .begin call, .succeeds => some (shared, [.share call])
  | .begin call, .throws => some ((shared.fail call).invoke call (aborted platform), [])
  | .share call, .succeeds => some (shared.share call, [.spawn call])
  -- `make_shared` is not in a `try`
  | .share call, .throws => some (shared.drop call, [])
  | .spawn call, .succeeds => some (shared.point call, [.bridge call, .leave call])
  | .spawn call, .throws => some (shared.fail call, [.complete call (aborted platform)])
  | .spawn call, .startsAndThrows =>
      some ((shared.point call).fail call, [.bridge call, .complete call (aborted platform)])
  | .leave call, .succeeds => some (shared.release call, [])
  | .bridge call, .answers ec bytes =>
      some (shared.answer call ec bytes, [.complete call ⟨toBoostError ec, bytes⟩])
  | .bridge call, .throws => some (shared.fail call, [.complete call (aborted platform)])
  | .bridge call, .destroyed => some (shared.release call, [])
  | .complete call arguments, .succeeds =>
      if call ∈ shared.stored then some (shared.take call, [.invoke call arguments])
      else some (shared.release call, [])
  -- whether the handler returns or throws, the state is not asked again
  | .invoke call arguments, .succeeds =>
      some ((shared.invoke call arguments).release call, [])
  | _, _ => none

/-- The operations that are called with a handler. -/
inductive Call where
  | asyncReadSome (call : Nat)
  | asyncWriteSome (call : Nat)
  deriving DecidableEq, Repr

/-- The number of the call. -/
def Call.number : Call → Nat
  | .asyncReadSome call | .asyncWriteSome call => call

/-- The calls on transports, and the coroutines that they have started. -/
def system : System State Party Outcome Call where
  turn := turn platform
  outside shared call :=
    if call.number ∈ shared.called then none
    else some ({ shared with called := shared.called ++ [call.number] }, [.begin call.number])

end System

/-- Before the first call. -/
def initial : Pool State Party := ⟨⟨[], [], [], [], [], [], []⟩, []⟩

/-- What a turn does. -/
inductive Turned (platform : Platform) (shared : State) :
    Party → Outcome → State → List Party → Prop where
  | readies {call} : Turned platform shared (.begin call) .succeeds shared [.share call]
  | rejects {call} : Turned platform shared (.begin call) .throws
      ((shared.fail call).invoke call (aborted platform)) []
  | shares {call} : Turned platform shared (.share call) .succeeds (shared.share call)
      [.spawn call]
  | exhausts {call} : Turned platform shared (.share call) .throws (shared.drop call) []
  | spawns {call} : Turned platform shared (.spawn call) .succeeds (shared.point call)
      [.bridge call, .leave call]
  | refuses {call} : Turned platform shared (.spawn call) .throws (shared.fail call)
      [.complete call (aborted platform)]
  | startsAndThrows {call} : Turned platform shared (.spawn call) .startsAndThrows
      ((shared.point call).fail call) [.bridge call, .complete call (aborted platform)]
  | leaves {call} : Turned platform shared (.leave call) .succeeds (shared.release call) []
  | answers {call ec bytes} : Turned platform shared (.bridge call) (.answers ec bytes)
      (shared.answer call ec bytes) [.complete call ⟨toBoostError ec, bytes⟩]
  | throws {call} : Turned platform shared (.bridge call) .throws (shared.fail call)
      [.complete call (aborted platform)]
  | destroyed {call} : Turned platform shared (.bridge call) .destroyed (shared.release call) []
  | takes {call arguments} (there : call ∈ shared.stored) :
      Turned platform shared (.complete call arguments) .succeeds (shared.take call)
        [.invoke call arguments]
  | returns {call arguments} (empty : call ∉ shared.stored) :
      Turned platform shared (.complete call arguments) .succeeds (shared.release call) []
  | invokes {call arguments} : Turned platform shared (.invoke call arguments) .succeeds
      ((shared.release call).invoke call arguments) []

/-- The end of a pointer does not depend on the handlers that were called. -/
theorem release_invoke {shared : State} {call other : Nat} {arguments : Arguments} :
    (shared.invoke call arguments).release other =
      (shared.release other).invoke call arguments := by
  rw [State.release, State.release]
  by_cases last : other ∈ shared.stored ∧ other ∉ shared.pointers.erase other
  · simp only [State.invoke, if_pos last]
    exact if_pos last
  · simp only [State.invoke, if_neg last]
    exact if_neg last

theorem turn_turned {platform : Platform} {shared later : State} {party : Party}
    {outcome : Outcome} {left : List Party}
    (taken : turn platform shared party outcome = some (later, left)) :
    Turned platform shared party outcome later left := by
  unfold turn at taken
  split at taken
  case h_12 =>
    split at taken <;> cases taken
    · exact .takes ‹_›
    · exact .returns ‹_›
  case h_13 =>
    cases taken
    rw [release_invoke]
    exact .invokes
  all_goals cases taken
  all_goals constructor

end Wan.Transport.Completion
