import Wan.Library.Parties

/-!
# The lifecycle of `Web/Application/Application.hpp`

The parties are the calls of `Start`, `Stop` and `Wait`.  A turn is one section under
`MemberLifecycleMutex` or one call of the server between two sections; the call of
`MemberServer->Start()` belongs to the section that makes it.  A call of the server succeeds
or throws, whatever state the application is in.
-/

namespace Wan.Web.Application

open Wan.Library

/-- What is thrown, and what `MemberFailure` holds. -/
inductive Failure where
  /-- `std::logic_error`. -/
  | logicError (what : String)
  /-- `std::invalid_argument`. -/
  | invalidArgument (what : String)
  /-- An exception of a call of the server. -/
  | raised (exception : Nat)
  deriving DecidableEq, Repr

/-- `ApplicationState`. -/
inductive ApplicationState where
  | created
  | starting
  | running
  | stopping
  | stopped
  | failed
  deriving DecidableEq, Repr

/-- The fields of `ServerConfig` that `ValidateConfiguration` reads; times are in seconds. -/
structure ServerConfig where
  readTimeout : Int := 30
  writeTimeout : Int := 30
  keepAliveTimeout : Int := 30
  maxBodySize : UInt64 := 10 * 1024 * 1024
  maxConnections : UInt64 := 10000
  keepAliveEnabled : Bool := true
  maxKeepaliveRequests : UInt64 := 100
  maxHeaderSize : UInt64 := 64 * 1024

/-- `ApplicationConfig`; the TLS settings are not read here. -/
structure ApplicationConfig where
  server : ServerConfig := {}
  drainTimeout : Int := 10

/-- The seconds in `std::chrono::steady_clock::duration::max()`, which counts nanoseconds in
64 bits. -/
def maximumTimerSeconds : Int := (2 ^ 63 - 1) / 10 ^ 9

/-- `IsTimerDurationRepresentable`. -/
def isTimerDurationRepresentable (value : Int) : Bool :=
  decide (0 ≤ value) && decide (value ≤ maximumTimerSeconds)

/-- `ValidateConfiguration`. -/
def validateConfiguration (config : ApplicationConfig) : Except Failure Unit :=
  if config.drainTimeout < 0 || config.server.readTimeout < 0 || config.server.writeTimeout < 0 ||
      config.server.keepAliveTimeout < 0 ||
      !isTimerDurationRepresentable config.drainTimeout ||
      !isTimerDurationRepresentable config.server.readTimeout ||
      !isTimerDurationRepresentable config.server.writeTimeout ||
      !isTimerDurationRepresentable config.server.keepAliveTimeout then
    .error (.invalidArgument "application timeouts are outside the timer range")
  else if config.server.maxBodySize == 0 || config.server.maxHeaderSize == 0 ||
      config.server.maxConnections == 0 ||
      (config.server.keepAliveEnabled && config.server.maxKeepaliveRequests == 0) then
    .error (.invalidArgument "application resource limits must be positive")
  else .ok ()

example : validateConfiguration {} = .ok () := by decide

/-- `MemberState` and `MemberFailure`. -/
structure State where
  state : ApplicationState
  failure : Option Failure
  deriving DecidableEq

/-- How a call of the server ends. -/
inductive Outcome where
  | done
  | thrown (exception : Nat)
  deriving DecidableEq, Repr

/-- Where a call of `Start` is. -/
inductive StartStage where
  | lock
  /-- The body of the `try`. -/
  | begin
  /-- The `catch`. -/
  | fail (failure : Failure)
  deriving DecidableEq, Repr

/-- Where a call of `Stop` is. -/
inductive StopStage where
  | lock
  /-- `ForceStop` of an application that has failed. -/
  | forceStop
  | beginGracefulStop
  /-- The section of the `catch`. -/
  | fail (failure : Failure)
  /-- `ForceStop` in the `catch`. -/
  | rethrow (failure : Failure)
  deriving DecidableEq, Repr

/-- Where a call of `Wait` is. -/
inductive WaitStage where
  | lock
  | wait (knownFailure : Option Failure)
  /-- The `catch`. -/
  | fail (failure : Failure)
  | finish
  deriving DecidableEq, Repr

/-- A call, by what is left of it. -/
inductive Party where
  | start (stage : StartStage)
  | stop (stage : StopStage)
  | wait (stage : WaitStage)
  /-- The call has returned or has thrown. -/
  | finished (result : Except Failure Unit)
  deriving DecidableEq

/-- One turn of `Start`. -/
def startTurn (config : ApplicationConfig) (shared : State) :
    StartStage → Outcome → State × Party
  | .lock, _ =>
      if shared.state = .running then (shared, .finished (.ok ()))
      else if shared.state ≠ .created then
        (shared, .finished (.error
          (.logicError "application cannot start from its current state")))
      else ({ shared with state := .starting }, .start .begin)
  | .begin, outcome =>
      match validateConfiguration config with
      | .error failure => (shared, .start (.fail failure))
      | .ok () =>
          if shared.state = .stopping then
            ({ shared with state := .stopped }, .finished (.ok ()))
          else if shared.state ≠ .starting then
            (shared, .start (.fail
              (.logicError "application start was superseded by another lifecycle operation")))
          else
            match outcome with
            | .thrown exception => (shared, .start (.fail (.raised exception)))
            | .done => ({ shared with state := .running }, .finished (.ok ()))
  | .fail failure, _ => (⟨.failed, some failure⟩, .finished (.error failure))

/-- One turn of `Stop`. -/
def stopTurn (shared : State) : StopStage → Outcome → State × Party
  | .lock, _ =>
      match shared.state with
      | .created => ({ shared with state := .stopped }, .finished (.ok ()))
      | .stopped | .stopping => (shared, .finished (.ok ()))
      | .failed => (shared, .stop .forceStop)
      | .starting | .running => ({ shared with state := .stopping }, .stop .beginGracefulStop)
  | .forceStop, .done => (shared, .finished (.ok ()))
  | .forceStop, .thrown exception => (shared, .finished (.error (.raised exception)))
  | .beginGracefulStop, .done => (shared, .finished (.ok ()))
  | .beginGracefulStop, .thrown exception => (shared, .stop (.fail (.raised exception)))
  | .fail failure, _ => (⟨.failed, some failure⟩, .stop (.rethrow failure))
  | .rethrow failure, .done => (shared, .finished (.error failure))
  | .rethrow _, .thrown exception => (shared, .finished (.error (.raised exception)))

/-- One turn of `Wait`. -/
def waitTurn (shared : State) : WaitStage → Outcome → State × Party
  | .lock, _ =>
      match shared.state with
      | .created => ({ shared with state := .stopped }, .finished (.ok ()))
      | .stopped => (shared, .finished (.ok ()))
      | .failed => (shared, .wait (.wait shared.failure))
      | .starting | .running | .stopping => (shared, .wait (.wait none))
  | .wait (some failure), _ => (shared, .finished (.error failure))
  | .wait none, .done => (shared, .wait .finish)
  | .wait none, .thrown exception => (shared, .wait (.fail (.raised exception)))
  | .fail failure, _ => (⟨.failed, some failure⟩, .finished (.error failure))
  | .finish, _ =>
      match shared.state with
      | .starting | .running | .stopping =>
          ({ shared with state := .stopped }, .finished (.ok ()))
      | .created | .stopped | .failed => (shared, .finished (.ok ()))

/-- One turn of a call; there is none behind its end. -/
def turn (config : ApplicationConfig) (shared : State) :
    Party → Outcome → Option (State × List Party)
  | .start stage, outcome =>
      let (later, left) := startTurn config shared stage outcome
      some (later, [left])
  | .stop stage, outcome =>
      let (later, left) := stopTurn shared stage outcome
      some (later, [left])
  | .wait stage, outcome =>
      let (later, left) := waitTurn shared stage outcome
      some (later, [left])
  | .finished _, _ => none

/-- The calls that threads make. -/
inductive Call where
  | start
  | stop
  | wait
  deriving DecidableEq, Repr

/-- The call before its first section. -/
def Call.party : Call → Party
  | .start => .start .lock
  | .stop => .stop .lock
  | .wait => .wait .lock

/-- An application and the calls that are made on it. -/
def system (config : ApplicationConfig) : System State Party Outcome Call where
  turn := turn config
  outside shared call := some (shared, [call.party])

/-- An application that has not been started. -/
def initial : Pool State Party := ⟨⟨.created, none⟩, []⟩

end Wan.Web.Application
