import Wan.Library.Parties

/-!
# The lifecycle of `Web/Core/Executor.hpp`

The parties are the worker threads and the calls of `Run`, `Stop`, `Join` and
`DrainStopped`, which any thread may make, a worker included.  A turn is one section under
`MemberLifecycleMutex` or `MemberFailureMutex`, or one statement that holds neither.  What a
thread launch, a handler and a coroutine do is the outcome of a turn.
-/

namespace Wan.Web.Executor

open Wan.Library

/-- `Lifecycle`. -/
inductive Lifecycle where
  | created
  | starting
  | running
  | stopping
  | joining
  | joined
  deriving DecidableEq, Repr

/-- What a call throws. -/
inductive Failure where
  /-- `std::logic_error`. -/
  | logicError (what : String)
  /-- What launching a thread has thrown. -/
  | launch (exception : Nat)
  /-- What a handler or a coroutine has thrown. -/
  | worker (exception : Nat)
  deriving DecidableEq, Repr

/-- A thread that `Run` has launched. -/
abbrev Thread := Nat

/-- The members, and which threads have not exited. The number of worker threads is a
parameter of the system. -/
structure State where
  state : Lifecycle
  stopRequested : Bool
  /-- `MemberWorkGuard` owns its work. -/
  guarded : Bool
  /-- `MemberIoc.stopped()`. -/
  stopped : Bool
  /-- The joinable threads in `MemberWorkers`. -/
  workers : List Thread
  /-- The threads that have not exited. -/
  active : List Thread
  /-- How many threads have been launched. -/
  launched : Nat
  /-- `MemberWorkerFailure`. -/
  failure : Option Nat
  /-- Every exception that `MemberWorkerFailure` has held; no turn reads it. -/
  recorded : List Nat
  deriving DecidableEq

/-- How what a turn runs ends. -/
inductive Outcome where
  | done
  | thrown (exception : Nat)
  /-- The completion handler of `Spawn` was given an exception. -/
  | reported (exception : Nat)
  deriving DecidableEq, Repr

/-- Where a call of `Run` is. -/
inductive RunStage where
  | lock
  | reserve
  /-- The loop with this many threads to launch. -/
  | launch (left : Nat)
  /-- `Stop` in the `catch`. -/
  | stop (exception : Nat)
  /-- The rest of the `catch`. -/
  | joinWorkers (exception : Nat)
  | publish
  deriving DecidableEq, Repr

/-- Where a call of `Join` is. -/
inductive JoinStage where
  | lock (caller : Option Thread)
  | joinWorkers (workers : List Thread)
  | rethrow
  deriving DecidableEq, Repr

/-- Where a call of `DrainStopped` is. -/
inductive DrainStage where
  | lock
  | reset
  | stop
  | restart
  | run
  /-- The two sections of `RecordWorkerFailure`. -/
  | record (exception : Nat)
  | stopAgain
  | rethrow
  deriving DecidableEq, Repr

/-- Where a worker is. -/
inductive WorkerStage where
  | run
  /-- The two sections of `RecordWorkerFailure`, behind which the thread may exit. -/
  | record (exception : Nat) (exits : Bool)
  | stop (exits : Bool)
  | exit
  deriving DecidableEq, Repr

/-- The calls. -/
inductive Call where
  | run
  | stop
  | join
  | drain
  deriving DecidableEq, Repr

/-- A call or a worker, by what is left of it. -/
inductive Party where
  | run (stage : RunStage)
  | stop
  | join (stage : JoinStage)
  | drain (stage : DrainStage)
  | worker (thread : Thread) (stage : WorkerStage)
  /-- The call has returned or has thrown. -/
  | finished (call : Call) (result : Except Failure Unit)
  deriving DecidableEq

namespace State

/-- The section of `Stop`. -/
def stop (shared : State) : State :=
  match shared.state with
  | .created | .running => { shared with state := .stopping, guarded := false, stopped := true }
  | .starting => { shared with stopRequested := true, guarded := false, stopped := true }
  | .stopping | .joining => { shared with guarded := false, stopped := true }
  | .joined => shared

/-- The first section of `RecordWorkerFailure`. -/
def record (shared : State) (exception : Nat) : State :=
  match shared.failure with
  | none =>
      { shared with failure := some exception, recorded := shared.recorded ++ [exception] }
  | some _ => shared

/-- The thread `launched` starts and is put into `MemberWorkers`. -/
def launch (shared : State) : State :=
  { shared with
    workers := shared.workers ++ [shared.launched]
    active := shared.launched :: shared.active
    launched := shared.launched + 1 }

/-- What `RethrowWorkerFailure` does with the exception that it finds. -/
def rethrown (shared : State) : Except Failure Unit :=
  match shared.failure with
  | none => .ok ()
  | some exception => .error (.worker exception)

end State

/-- One turn of `Run`. -/
def runTurn (threads : Nat) (shared : State) : RunStage → Outcome → Option (State × List Party)
  | .lock, _ =>
      if shared.state ≠ .created then
        some (shared, [.finished .run
          (.error (.logicError "executor can only be started once"))])
      else some ({ shared with state := .starting }, [.run .reserve])
  | .reserve, .done => some (shared, [.run (.launch threads)])
  | .reserve, .thrown exception => some (shared, [.run (.stop exception)])
  | .launch 0, _ => some (shared, [.run .publish])
  | .launch (left + 1), .done =>
      some (shared.launch, [.run (.launch left), .worker shared.launched .run])
  | .launch (_ + 1), .thrown exception => some (shared, [.run (.stop exception)])
  | .reserve, .reported _ | .launch (_ + 1), .reported _ => none
  | .stop exception, _ => some (shared.stop, [.run (.joinWorkers exception)])
  | .joinWorkers exception, _ =>
      match shared.workers with
      | [] =>
          some ({ shared with state := .joined },
            [.finished .run (.error (.launch exception))])
      | worker :: workers =>
          if worker ∈ shared.active then none
          else some ({ shared with workers }, [.run (.joinWorkers exception)])
  | .publish, _ =>
      some ({ shared with state := if shared.stopRequested then .stopping else .running },
        [.finished .run (.ok ())])

/-- One turn of `Join`. It waits while the executor is starting. -/
def joinTurn (shared : State) : JoinStage → Option (State × List Party)
  | .lock caller =>
      if shared.state = .starting then none
      else if shared.state = .joined then some (shared, [.join .rethrow])
      else if shared.state = .joining then
        some (shared, [.finished .join
          (.error (.logicError "executor Join is already in progress"))])
      else if ∃ worker ∈ shared.workers, caller = some worker then
        some (shared, [.finished .join
          (.error (.logicError "executor worker cannot join itself"))])
      else
        some ({ shared with state := .joining, workers := [] },
          [.join (.joinWorkers shared.workers)])
  | .joinWorkers (worker :: workers) =>
      if worker ∈ shared.active then none else some (shared, [.join (.joinWorkers workers)])
  | .joinWorkers [] => some ({ shared with state := .joined }, [.join .rethrow])
  | .rethrow =>
      some ({ shared with failure := none }, [.finished .join shared.rethrown])

/-- One turn of `DrainStopped`. `run` returns when the context is stopped or out of work,
which stops it. -/
def drainTurn (shared : State) : DrainStage → Outcome → State × List Party
  | .lock, _ =>
      if shared.state ≠ .joined then
        (shared, [.finished .drain
          (.error (.logicError "executor can only drain after Join"))])
      else (shared, [.drain .reset])
  | .reset, _ => ({ shared with guarded := false }, [.drain .stop])
  | .stop, _ => ({ shared with stopped := true }, [.drain .restart])
  | .restart, _ => ({ shared with stopped := false }, [.drain .run])
  | .run, .done => ({ shared with stopped := true }, [.drain .rethrow])
  | .run, .thrown exception | .run, .reported exception =>
      (shared, [.drain (.record exception)])
  | .record exception, _ => (shared.record exception, [.drain .stopAgain])
  | .stopAgain, _ => (shared.stop, [.drain .run])
  | .rethrow, _ => ({ shared with failure := none }, [.finished .drain shared.rethrown])

/-- One turn of a worker. -/
def workerTurn (shared : State) (thread : Thread) : WorkerStage → Outcome → State × List Party
  | .run, .done => ({ shared with stopped := true }, [.worker thread .exit])
  | .run, .thrown exception => (shared, [.worker thread (.record exception true)])
  | .run, .reported exception => (shared, [.worker thread (.record exception false)])
  | .record exception exits, _ => (shared.record exception, [.worker thread (.stop exits)])
  | .stop exits, _ => (shared.stop, [.worker thread (if exits then .exit else .run)])
  | .exit, _ => ({ shared with active := shared.active.erase thread }, [])

/-- One turn of a party; there is none behind the end of a call. -/
def turn (threads : Nat) (shared : State) : Party → Outcome → Option (State × List Party)
  | .run stage, outcome => runTurn threads shared stage outcome
  | .stop, _ => some (shared.stop, [.finished .stop (.ok ())])
  | .join stage, _ => joinTurn shared stage
  | .drain stage, outcome => some (drainTurn shared stage outcome)
  | .worker thread stage, outcome => some (workerTurn shared thread stage outcome)
  | .finished _ _, _ => none

/-- The call before its first section, made by a worker or by another thread. -/
def Call.party (caller : Option Thread) : Call → Party
  | .run => .run .lock
  | .stop => .stop
  | .join => .join (.lock caller)
  | .drain => .drain .lock

/-- An executor with a number of threads, and the calls that are made on it. -/
def system (threads : Nat) : System State Party Outcome (Option Thread × Call) where
  turn := turn threads
  outside shared call := some (shared, [call.2.party call.1])

/-- An executor that was just constructed. -/
def initial : Pool State Party :=
  ⟨⟨.created, false, true, false, [], [], 0, none, []⟩, []⟩

end Wan.Web.Executor
