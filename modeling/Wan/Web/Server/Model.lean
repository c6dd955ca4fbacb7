import Wan.Library.Parties

/-!
# The lifecycle of `Web/Server/Server.hpp` and `Web/Server/ConnectionRegistry.hpp`

The parties are the coroutine of `Run`, one coroutine for each connection, the calls of
`ForceStop` and `BeginGracefulStop`, the drain coroutine and what is dispatched to the accept
strand.  A turn is one section under a mutex, one atomic operation or one operation that is
waited for, together with what only that party sees.  Turns go on after the executor has been
asked to stop, which leaves more orders than the server has.
-/

namespace Wan.Web.Server

open Wan.Library

/-- The fields of `ServerConfig` that decide how connections run, and whether
`MemberTlsContext` is set. -/
structure Settings where
  maxConnections : UInt64 := 10000
  keepAliveEnabled : Bool := true
  maxKeepaliveRequests : UInt64 := 100
  tcpNoDelay : Bool := true
  tlsContext : Bool := false

/-- `ValidateConfiguration`, as far as these fields go. -/
def validateConfiguration (settings : Settings) : Bool :=
  !(settings.maxConnections == 0 ||
    (settings.keepAliveEnabled && settings.maxKeepaliveRequests == 0))

example : validateConfiguration {} = true := by decide

/-- How an operation ends. -/
inductive Outcome where
  /-- It succeeds. -/
  | done
  /-- It yields an error code other than `operation_aborted`, or the client does not want
  the connection kept alive, or `compare_exchange_weak` fails although the values agree. -/
  | failed
  /-- It yields `operation_aborted`. -/
  | aborted
  /-- It throws. -/
  | thrown
  deriving DecidableEq, Repr

/-- What `MemberStartFailure` and `MemberRunFailure` hold. -/
inductive Failure where
  /-- `std::logic_error`. -/
  | logicError (what : String)
  /-- `std::current_exception`. -/
  | currentException
  deriving DecidableEq, Repr

/-- `ConnectionRegistry`. An entry is listed by its id: its callback closes the one
connection that was registered under the id. -/
structure ConnectionRegistry where
  connections : List UInt64
  nextId : UInt64
  deriving DecidableEq, Repr

namespace ConnectionRegistry

/-- `RegisterClose`: the id and the registry with the new entry, or `overflow_error`. -/
def registerClose (registry : ConnectionRegistry) : Option (UInt64 × ConnectionRegistry) :=
  if registry.nextId = 0 then none
  else some (registry.nextId, ⟨registry.nextId :: registry.connections, registry.nextId + 1⟩)

/-- `RegisterClose` when `emplace` throws: the id is used up. -/
def skipId (registry : ConnectionRegistry) : ConnectionRegistry :=
  { registry with nextId := registry.nextId + 1 }

/-- `Remove`. -/
def remove (registry : ConnectionRegistry) (id : UInt64) : ConnectionRegistry :=
  { registry with connections := registry.connections.filter (· ≠ id) }

end ConnectionRegistry

/-- How far the wait of the drain coroutine on its timer has come. -/
inductive DrainWait where
  /-- `ForceStopRequested` has not been read yet. -/
  | notStarted
  /-- The coroutine holds the strand, between that read and `async_wait`. -/
  | entering
  /-- The coroutine is suspended in `async_wait`. -/
  | waiting
  /-- `cancel` has ended the wait. -/
  | cancelled
  /-- The deadline has ended the wait. -/
  | expired
  /-- The coroutine has gone on, or has never waited. -/
  | passed
  deriving DecidableEq, Repr

/-- What the parties share. A pointer is represented by whether it is set: there is one
acceptor, and one drain timer, in the life of a server. -/
structure State where
  started : Bool
  startComplete : Bool
  stopping : Bool
  runComplete : Bool
  forceStopRequested : Bool
  drainTimerActive : Bool
  drainTimer : Bool
  acceptor : Bool
  startFailure : Option Failure
  runFailure : Option Failure
  activeConnections : UInt64
  registry : ConnectionRegistry
  /-- The acceptor is open. -/
  listening : Bool
  wait : DrainWait
  /-- The time the drain timer was set to has come. -/
  deadlinePassed : Bool
  /-- `MemberExecutor.Stop()` has been called. -/
  executorStopped : Bool
  /-- The ids whose close callback `CloseAll` has dispatched. -/
  dispatched : List UInt64
  /-- Some `CloseAll` has taken the entries of the registry. -/
  swept : Bool
  /-- How many slots have been acquired; the next slot has this number. -/
  acquired : Nat
  /-- The slots that `fetch_sub` has given back. -/
  released : List Nat
  deriving DecidableEq

/-- Where the coroutine of `Run` is. A slot is what `TryAcquireConnection` has acquired. -/
inductive RunStage where
  | startup
  | publish
  | startupCheck
  | accept
  | acceptFailed (aborted : Bool)
  | retry
  | checkStopping
  | noDelay
  | load
  | acquire (current : UInt64)
  | checkAgain (slot : Nat)
  | reject (slot : Nat)
  | construct (slot : Nat)
  | drop (slot : Nat)
  | prepare (slot : Nat)
  | register (slot : Nat)
  | spawn (slot : Nat) (id : UInt64)
  | unregister (slot : Nat) (id : UInt64)
  | releaseLaunch (slot : Nat)
  | markRunComplete
  | fail
  deriving DecidableEq, Repr

/-- Where a coroutine of `HandleConnection` is; the last four are its `Close`. -/
inductive ConnectionStage where
  | begin
  | handshake
  | read (requestCount : UInt64)
  | handle (requestCount : UInt64)
  | write (requestCount : UInt64)
  | keepAlive (requestCount : UInt64)
  | close (tlsHandshakeComplete : Bool)
  | shutdown
  | remove
  | release
  deriving DecidableEq, Repr

/-- What is dispatched to the accept strand. -/
inductive Task where
  | timerCancel
  | acceptorClose
  deriving DecidableEq, Repr

/-- What a call returns to. -/
inductive Resume where
  | finished
  /-- The last call of `StopAfterDrainTimeout`. -/
  | completeDrainTimer
  /-- The second call in the `catch` of `BeginGracefulStop`. -/
  | forceStop
  /-- The `throw` in the `catch` of `StopAfterDrainTimeout`. -/
  | rethrow
  deriving DecidableEq, Repr

/-- Where a call of `ForceStop` is; the `catch` of `Run` joins it after its section. -/
inductive StopStage where
  | lock
  | dispatches (tasks : List Task)
  | closeAll
  | dispatch (todo : List UInt64)
  deriving DecidableEq, Repr

/-- Where a call of `MaybeFinishGracefulStop` is. -/
inductive FinishStage where
  | check
  | cancel (timer : Bool)
  | stop
  deriving DecidableEq, Repr

/-- Where a call of `BeginGracefulStop` is. -/
inductive GracefulStage where
  | check
  | lock
  | closeAcceptor (acceptor scheduleDrainTimer : Bool)
  | spawn
  deriving DecidableEq, Repr

/-- Where the coroutine of `StopAfterDrainTimeout` is. -/
inductive DrainStage where
  | begin
  | wait
  | resume
  | decide (ec : Bool)
  deriving DecidableEq, Repr

/-- A party, by what is left of it. -/
inductive Party where
  | run (stage : RunStage)
  | connection (slot : Nat) (id : UInt64) (stage : ConnectionStage)
  | forceStop (resume : Resume) (stage : StopStage)
  | maybeFinish (resume : Resume) (stage : FinishStage)
  | beginGracefulStop (stage : GracefulStage)
  | completeDrainTimer (resume : Resume)
  | drain (stage : DrainStage)
  /-- `Executor::RecordWorkerFailure`. -/
  | recordWorkerFailure
  | task (task : Task)
  deriving DecidableEq, Repr

/-- `CancelDrainTimer`. -/
def cancelDrainTimer (timer : Bool) : List Task := if timer then [.timerCancel] else []

/-- `CloseAcceptor`. -/
def closeAcceptor (acceptor : Bool) : List Task := if acceptor then [.acceptorClose] else []

/-- What is left of the caller. -/
def Resume.rest : Resume → List Party
  | .finished => []
  | .completeDrainTimer => [.completeDrainTimer .finished]
  | .forceStop => [.forceStop .finished .lock]
  | .rethrow => [.recordWorkerFailure]

/-- What `MemberStartFailure` holds when the server is stopped before it has started. -/
def stoppedDuringStartup : Option Failure := some (.logicError "server stopped during startup")

/-- `MemberActiveConnections.fetch_sub(1)`, which wraps at zero. -/
def State.fetchSub (state : State) (slot : Nat) : State :=
  { state with
    activeConnections := state.activeConnections - 1
    released := state.released ++ [slot] }

/-- The mutex section of the `catch` of `Run`. -/
def State.failRun (state : State) : State :=
  { state with
    startFailure := if state.startComplete then state.startFailure else some .currentException
    runFailure :=
      if state.startComplete && !state.stopping then some .currentException else state.runFailure
    startComplete := true
    stopping := true
    forceStopRequested := true
    acceptor := false
    runComplete := true }

/-- One turn of `Run`, with `TryAcquireConnection`, `LaunchConnection` and
`MarkRunComplete`. -/
def runTurn (settings : Settings) (state : State) :
    RunStage → Outcome → Option (State × List Party)
  | .startup, .done => some ({ state with listening := true }, [.run .publish])
  | .startup, _ => some (state, [.run .fail])
  | .publish, _ =>
      if state.stopping then
        some ({ state with startFailure := stoppedDuringStartup, startComplete := true },
          [.run .startupCheck])
      else
        some ({ state with acceptor := true, startComplete := true }, [.run .startupCheck])
  | .startupCheck, _ =>
      if state.stopping then some ({ state with listening := false }, [.run .markRunComplete])
      else some (state, [.run .accept])
  | .accept, .done => if state.listening then some (state, [.run .checkStopping]) else none
  | .accept, .failed => some (state, [.run (.acceptFailed false)])
  | .accept, .aborted => some (state, [.run (.acceptFailed true)])
  | .accept, .thrown => some (state, [.run .fail])
  | .acceptFailed aborted, _ =>
      if state.stopping || aborted then some (state, [.run .markRunComplete])
      else some (state, [.run .retry])
  | .retry, .thrown => some (state, [.run .fail])
  | .retry, _ => some (state, [.run .accept])
  | .checkStopping, _ =>
      if state.stopping then some (state, [.run .markRunComplete])
      else some (state, [.run .noDelay])
  | .noDelay, .failed =>
      if settings.tcpNoDelay then some (state, [.run .accept]) else some (state, [.run .load])
  | .noDelay, _ => some (state, [.run .load])
  | .load, _ => some (state, [.run (.acquire state.activeConnections)])
  | .acquire current, outcome =>
      if current < settings.maxConnections then
        if state.activeConnections = current ∧ outcome = .done then
          some ({ state with activeConnections := current + 1, acquired := state.acquired + 1 },
            [.run (.checkAgain state.acquired)])
        else some (state, [.run (.acquire state.activeConnections)])
      else some (state, [.run .accept])
  | .checkAgain slot, _ =>
      if state.stopping then some (state, [.run (.reject slot)])
      else some (state, [.run (.construct slot)])
  | .reject slot, _ => some (state.fetchSub slot, [.run .markRunComplete])
  | .construct slot, .thrown => some (state, [.run (.drop slot)])
  | .construct slot, _ => some (state, [.run (.prepare slot)])
  | .drop slot, _ => some (state.fetchSub slot, [.run .fail])
  | .prepare slot, .thrown => some (state, [.run (.releaseLaunch slot)])
  | .prepare slot, _ => some (state, [.run (.register slot)])
  | .register slot, outcome =>
      match state.registry.registerClose with
      | none => some (state, [.run (.releaseLaunch slot)])
      | some (id, registry) =>
          if outcome = .thrown then
            some ({ state with registry := state.registry.skipId }, [.run (.releaseLaunch slot)])
          else some ({ state with registry := registry }, [.run (.spawn slot id)])
  | .spawn slot id, .thrown => some (state, [.run (.unregister slot id)])
  | .spawn slot id, _ => some (state, [.run .accept, .connection slot id .begin])
  | .unregister slot id, _ =>
      some ({ state with registry := state.registry.remove id }, [.run (.releaseLaunch slot)])
  | .releaseLaunch slot, _ => some (state.fetchSub slot, [.run .accept])
  | .markRunComplete, _ =>
      some ({ state with runComplete := true }, [.maybeFinish .finished .check])
  | .fail, _ =>
      some (state.failRun,
        [.forceStop .finished
          (.dispatches (closeAcceptor state.acceptor ++ cancelDrainTimer state.drainTimer))])

/-- One turn of `HandleConnection`. -/
def connectionTurn (settings : Settings) (state : State) (slot : Nat) (id : UInt64) :
    ConnectionStage → Outcome → State × List Party
  | .begin, _ =>
      if settings.tlsContext then (state, [.connection slot id .handshake])
      else (state, [.connection slot id (.read 0)])
  | .handshake, .done => (state, [.connection slot id (.read 0)])
  | .handshake, _ => (state, [.connection slot id (.close false)])
  | .read count, .done => (state, [.connection slot id (.handle count)])
  | .read _, _ => (state, [.connection slot id (.close true)])
  | .handle _, .thrown => (state, [.connection slot id (.close true)])
  | .handle count, _ => (state, [.connection slot id (.write count)])
  | .write count, .done => (state, [.connection slot id (.keepAlive count)])
  | .write _, _ => (state, [.connection slot id (.close true)])
  | .keepAlive count, outcome =>
      if !settings.keepAliveEnabled || outcome ≠ .done ||
          settings.maxKeepaliveRequests ≤ count + 1 then
        (state, [.connection slot id (.close true)])
      else (state, [.connection slot id (.read (count + 1))])
  | .close tlsHandshakeComplete, _ =>
      if settings.tlsContext && tlsHandshakeComplete then (state, [.connection slot id .shutdown])
      else (state, [.connection slot id .remove])
  | .shutdown, _ => (state, [.connection slot id .remove])
  | .remove, _ =>
      ({ state with registry := state.registry.remove id }, [.connection slot id .release])
  | .release, _ => (state.fetchSub slot, [.maybeFinish .finished .check])

/-- One turn of `ForceStop`, with `CloseAll`. -/
def forceStopTurn (state : State) (resume : Resume) : StopStage → State × List Party
  | .lock =>
      if !state.started then (state, resume.rest)
      else
        ({ state with
            stopping := true
            forceStopRequested := true
            acceptor := false
            startFailure :=
              if state.startComplete then state.startFailure else stoppedDuringStartup
            startComplete := true },
          [.forceStop resume
            (.dispatches (cancelDrainTimer state.drainTimer ++ closeAcceptor state.acceptor))])
  | .dispatches [] => (state, [.forceStop resume .closeAll])
  | .dispatches (task :: tasks) => (state, [.task task, .forceStop resume (.dispatches tasks)])
  | .closeAll =>
      ({ state with registry := { state.registry with connections := [] }, swept := true },
        [.forceStop resume (.dispatch state.registry.connections)])
  | .dispatch [] => (state, [.maybeFinish resume .check])
  | .dispatch (id :: todo) =>
      ({ state with dispatched := id :: state.dispatched }, [.forceStop resume (.dispatch todo)])

/-- `IsDrained` in `MaybeFinishGracefulStop`. -/
def State.isDrained (state : State) : Bool :=
  state.stopping && state.runComplete && state.activeConnections == 0

/-- One turn of `MaybeFinishGracefulStop`. -/
def maybeFinishTurn (state : State) (resume : Resume) : FinishStage → State × List Party
  | .check =>
      if state.isDrained && state.drainTimerActive then
        (state, [.maybeFinish resume (.cancel state.drainTimer)])
      else if state.isDrained then (state, [.maybeFinish resume .stop])
      else (state, resume.rest)
  | .cancel timer => (state, (cancelDrainTimer timer).map .task ++ resume.rest)
  | .stop => ({ state with executorStopped := true }, resume.rest)

/-- One turn of `BeginGracefulStop`. -/
def beginGracefulStopTurn (state : State) : GracefulStage → Outcome → State × List Party
  | .check, _ =>
      if !state.started || state.stopping then (state, [])
      else (state, [.beginGracefulStop .lock])
  | .lock, _ =>
      if !state.started || state.stopping then (state, [])
      else
        ({ state with
            stopping := true
            drainTimer := state.drainTimer || decide (0 < state.activeConnections)
            drainTimerActive := state.drainTimerActive || decide (0 < state.activeConnections)
            startFailure :=
              if state.startComplete then state.startFailure else stoppedDuringStartup
            startComplete := true },
          [.beginGracefulStop
            (.closeAcceptor state.acceptor (decide (0 < state.activeConnections)))])
  | .closeAcceptor acceptor scheduleDrainTimer, _ =>
      (state, (closeAcceptor acceptor).map .task ++
        if scheduleDrainTimer then [.beginGracefulStop .spawn]
        else [.maybeFinish .finished .check])
  | .spawn, .thrown => (state, [.completeDrainTimer .forceStop])
  | .spawn, _ => (state, [.drain .begin])

/-- One turn of `StopAfterDrainTimeout`. -/
def drainTurn (state : State) : DrainStage → Outcome → Option (State × List Party)
  | .begin, _ =>
      if state.forceStopRequested then
        some ({ state with wait := .passed }, [.drain (.decide false)])
      else some ({ state with wait := .entering }, [.drain .wait])
  | .wait, .thrown => some ({ state with wait := .passed }, [.completeDrainTimer .rethrow])
  | .wait, _ =>
      some ({ state with wait := if state.deadlinePassed then .expired else .waiting },
        [.drain .resume])
  | .resume, _ =>
      match state.wait with
      | .cancelled => some ({ state with wait := .passed }, [.drain (.decide true)])
      | .expired => some ({ state with wait := .passed }, [.drain (.decide false)])
      | _ => none
  | .decide ec, _ =>
      if !ec && !state.forceStopRequested then
        some (state, [.forceStop .completeDrainTimer .lock])
      else some (state, [.completeDrainTimer .finished])

/-- What is dispatched runs when the strand is free. `cancel` ends a wait that has begun. -/
def taskTurn (state : State) : Task → Option (State × List Party)
  | .timerCancel =>
      match state.wait with
      | .entering => none
      | .waiting => some ({ state with wait := .cancelled }, [])
      | _ => some (state, [])
  | .acceptorClose => some ({ state with listening := false }, [])

/-- One turn of a party. -/
def turn (settings : Settings) (state : State) :
    Party → Outcome → Option (State × List Party)
  | .run stage, outcome => runTurn settings state stage outcome
  | .connection slot id stage, outcome =>
      some (connectionTurn settings state slot id stage outcome)
  | .forceStop resume stage, _ => some (forceStopTurn state resume stage)
  | .maybeFinish resume stage, _ => some (maybeFinishTurn state resume stage)
  | .beginGracefulStop stage, outcome => some (beginGracefulStopTurn state stage outcome)
  | .completeDrainTimer resume, _ =>
      some ({ state with drainTimer := false, drainTimerActive := false },
        [.maybeFinish resume .check])
  | .drain stage, outcome => drainTurn state stage outcome
  | .recordWorkerFailure, _ => some ({ state with executorStopped := true }, [])
  | .task task, _ => taskTurn state task

/-- What comes from outside: the calls of the public functions and the time. -/
inductive Call where
  | start
  | forceStop
  | beginGracefulStop
  | deadline
  deriving DecidableEq, Repr

/-- The server when a call comes. `Start` throws when it is called twice. -/
def outside (settings : Settings) (state : State) : Call → Option (State × List Party)
  | .start =>
      if state.started || !validateConfiguration settings then none
      else
        some ({ state with
            started := true
            startComplete := false
            stopping := false
            runComplete := false
            forceStopRequested := false
            drainTimerActive := false
            drainTimer := false
            startFailure := none
            runFailure := none }, [.run .startup])
  | .forceStop => some (state, [.forceStop .finished .lock])
  | .beginGracefulStop => some (state, [.beginGracefulStop .check])
  | .deadline =>
      some ({ state with
          deadlinePassed := true
          wait := if state.wait = .waiting then .expired else state.wait }, [])

/-- A server and all that runs on it. -/
def system (settings : Settings) : System State Party Outcome Call where
  turn := turn settings
  outside := outside settings

/-- A server that has not been started. -/
def initial : Pool State Party where
  shared :=
    { started := false, startComplete := false, stopping := false, runComplete := false
      forceStopRequested := false, drainTimerActive := false, drainTimer := false
      acceptor := false, startFailure := none, runFailure := none, activeConnections := 0
      registry := ⟨[], 1⟩, listening := false, wait := .notStarted, deadlinePassed := false
      executorStopped := false, dispatched := [], swept := false, acquired := 0, released := [] }
  parties := []

/-- A default server starts and accepts a connection. -/
def acceptOne : List (Event Outcome Call) :=
  .outside .start :: List.replicate 13 (.turn 0 .done)

/-- A default server that serves its first connection. -/
def serving : Pool State Party where
  shared :=
    { initial.shared with
      started := true, startComplete := true, acceptor := true, listening := true
      activeConnections := 1, registry := ⟨[1], 2⟩, acquired := 1 }
  parties := [.run .accept, .connection 0 1 .begin]

example : acceptOne.foldlM (system {}).step initial = some serving := by
  decide +kernel

end Wan.Web.Server
