import Wan.Web.Server.Model

/-!
# What a turn can do

For each kind of party there is a relation that lists its turns, with the checks that let
them pass and the state they leave.  The turns of the model are among these, and what is
shown about all runs is derived from the lists alone.
-/

namespace Wan.Web.Server

open Wan.Library

/-- The slot that the coroutine of `Run` has acquired and still answers for. -/
def RunStage.slots : RunStage → List Nat
  | .checkAgain slot | .reject slot | .construct slot | .drop slot | .prepare slot
  | .register slot | .spawn slot _ | .unregister slot _ | .releaseLaunch slot => [slot]
  | _ => []

/-- The id under which the coroutine of `Run` has registered what it launches. -/
def RunStage.registered : RunStage → List UInt64
  | .spawn _ id | .unregister _ id => [id]
  | _ => []

section Run

variable (settings : Settings) (state : State)

/-- The turns of `Run`. -/
inductive RunTurned : RunStage → Outcome → State → List Party → Prop where
  | goesOn {stage next : RunStage} {outcome : Outcome} {acceptor listening startComplete : Bool}
      {startFailure : Option Failure} (slots : next.slots = stage.slots)
      (registered : next.registered = stage.registered) :
      RunTurned stage outcome
        { state with
          acceptor := acceptor, listening := listening, startComplete := startComplete
          startFailure := startFailure }
        [.run next]
  | acquire {outcome : Outcome} (below : state.activeConnections < settings.maxConnections) :
      RunTurned (.acquire state.activeConnections) outcome
        { state with
          activeConnections := state.activeConnections + 1, acquired := state.acquired + 1 }
        [.run (.checkAgain state.acquired)]
  | release {stage next : RunStage} {outcome : Outcome} (slot : Nat)
      (holds : stage.slots = [slot]) (free : next.slots = [])
      (unregistered : stage.registered = []) (registered : next.registered = []) :
      RunTurned stage outcome (state.fetchSub slot) [.run next]
  | enter {outcome : Outcome} (slot : Nat) (normal : outcome ≠ .thrown)
      (available : state.registry.nextId ≠ 0) :
      RunTurned (.register slot) outcome
        { state with
          registry :=
            ⟨state.registry.nextId :: state.registry.connections, state.registry.nextId + 1⟩ }
        [.run (.spawn slot state.registry.nextId)]
  | skip {outcome : Outcome} (slot : Nat) (available : state.registry.nextId ≠ 0) :
      RunTurned (.register slot) outcome { state with registry := state.registry.skipId }
        [.run (.releaseLaunch slot)]
  | launch {outcome : Outcome} (slot : Nat) (id : UInt64) :
      RunTurned (.spawn slot id) outcome state [.run .accept, .connection slot id .begin]
  | unregister {outcome : Outcome} (slot : Nat) (id : UInt64) :
      RunTurned (.unregister slot id) outcome { state with registry := state.registry.remove id }
        [.run (.releaseLaunch slot)]
  | complete {outcome : Outcome} :
      RunTurned .markRunComplete outcome { state with runComplete := true }
        [.maybeFinish .finished .check]
  | fail {outcome : Outcome} :
      RunTurned .fail outcome state.failRun
        [.forceStop .finished
          (.dispatches (closeAcceptor state.acceptor ++ cancelDrainTimer state.drainTimer))]

end Run

/-- The turns of `HandleConnection`. -/
inductive ConnectionTurned (state : State) (slot : Nat) (id : UInt64) :
    ConnectionStage → State → List Party → Prop where
  | goesOn {stage next : ConnectionStage} (active : stage ≠ .release) (still : next ≠ .release) :
      ConnectionTurned state slot id stage state [.connection slot id next]
  | remove :
      ConnectionTurned state slot id .remove { state with registry := state.registry.remove id }
        [.connection slot id .release]
  | release :
      ConnectionTurned state slot id .release (state.fetchSub slot) [.maybeFinish .finished .check]

/-- The turns of `ForceStop`. -/
inductive ForceStopTurned (state : State) (resume : Resume) :
    StopStage → State → List Party → Prop where
  | unstarted (unstarted : state.started = false) :
      ForceStopTurned state resume .lock state resume.rest
  | lock {startFailure : Option Failure} (started : state.started = true) :
      ForceStopTurned state resume .lock
        { state with
          stopping := true, forceStopRequested := true, acceptor := false
          startFailure := startFailure, startComplete := true }
        [.forceStop resume
          (.dispatches (cancelDrainTimer state.drainTimer ++ closeAcceptor state.acceptor))]
  | dispatched : ForceStopTurned state resume (.dispatches []) state [.forceStop resume .closeAll]
  | dispatch (task : Task) (tasks : List Task) :
      ForceStopTurned state resume (.dispatches (task :: tasks)) state
        [.task task, .forceStop resume (.dispatches tasks)]
  | sweep :
      ForceStopTurned state resume .closeAll
        { state with registry := { state.registry with connections := [] }, swept := true }
        [.forceStop resume (.dispatch state.registry.connections)]
  | swept : ForceStopTurned state resume (.dispatch []) state [.maybeFinish resume .check]
  | close (id : UInt64) (todo : List UInt64) :
      ForceStopTurned state resume (.dispatch (id :: todo))
        { state with dispatched := id :: state.dispatched } [.forceStop resume (.dispatch todo)]

/-- The turns of `MaybeFinishGracefulStop`. -/
inductive MaybeFinishTurned (state : State) (resume : Resume) :
    FinishStage → State → List Party → Prop where
  | wake (drained : state.isDrained = true) (active : state.drainTimerActive = true) :
      MaybeFinishTurned state resume .check state [.maybeFinish resume (.cancel state.drainTimer)]
  | decide (drained : state.isDrained = true) (inactive : state.drainTimerActive = false) :
      MaybeFinishTurned state resume .check state [.maybeFinish resume .stop]
  | pass (undrained : state.isDrained = false) :
      MaybeFinishTurned state resume .check state resume.rest
  | cancel (timer : Bool) :
      MaybeFinishTurned state resume (.cancel timer) state
        ((cancelDrainTimer timer).map .task ++ resume.rest)
  | stop :
      MaybeFinishTurned state resume .stop { state with executorStopped := true } resume.rest

/-- The turns of `BeginGracefulStop`. -/
inductive GracefulTurned (state : State) : GracefulStage → State → List Party → Prop where
  | refused {stage : GracefulStage} (early : stage = .check ∨ stage = .lock) :
      GracefulTurned state stage state []
  | checked : GracefulTurned state .check state [.beginGracefulStop .lock]
  | lock {startFailure : Option Failure} (started : state.started = true)
      (running : state.stopping = false) :
      GracefulTurned state .lock
        { state with
          stopping := true
          drainTimer := state.drainTimer || decide (0 < state.activeConnections)
          drainTimerActive := state.drainTimerActive || decide (0 < state.activeConnections)
          startFailure := startFailure, startComplete := true }
        [.beginGracefulStop
          (.closeAcceptor state.acceptor (decide (0 < state.activeConnections)))]
  | finish (acceptor : Bool) :
      GracefulTurned state (.closeAcceptor acceptor false) state
        ((closeAcceptor acceptor).map .task ++ [.maybeFinish .finished .check])
  | schedule (acceptor : Bool) :
      GracefulTurned state (.closeAcceptor acceptor true) state
        ((closeAcceptor acceptor).map .task ++ [.beginGracefulStop .spawn])
  | unspawned : GracefulTurned state .spawn state [.completeDrainTimer .forceStop]
  | spawned : GracefulTurned state .spawn state [.drain .begin]

/-- The turns of `StopAfterDrainTimeout`. -/
inductive DrainTurned (state : State) : DrainStage → State → List Party → Prop where
  | forced (forced : state.forceStopRequested = true) :
      DrainTurned state .begin { state with wait := .passed } [.drain (.decide false)]
  | enter (unforced : state.forceStopRequested = false) :
      DrainTurned state .begin { state with wait := .entering } [.drain .wait]
  | fail : DrainTurned state .wait { state with wait := .passed } [.completeDrainTimer .rethrow]
  | wait :
      DrainTurned state .wait
        { state with wait := if state.deadlinePassed then .expired else .waiting }
        [.drain .resume]
  | resume (ec : Bool) (ended : state.wait = .cancelled ∨ state.wait = .expired) :
      DrainTurned state .resume { state with wait := .passed } [.drain (.decide ec)]
  | expire (ec : Bool) :
      DrainTurned state (.decide ec) state [.forceStop .completeDrainTimer .lock]
  | finish (ec : Bool) :
      DrainTurned state (.decide ec) state [.completeDrainTimer .finished]

/-- The turns of what is dispatched. -/
inductive TaskTurned (state : State) : Task → State → List Party → Prop where
  | wake (waiting : state.wait = .waiting) :
      TaskTurned state .timerCancel { state with wait := .cancelled } []
  | miss (free : state.wait ≠ .entering) (idle : state.wait ≠ .waiting) :
      TaskTurned state .timerCancel state []
  | close : TaskTurned state .acceptorClose { state with listening := false } []

/-- What comes from outside. -/
inductive OutsideTurned (state : State) : Call → State → List Party → Prop where
  | start (unstarted : state.started = false) :
      OutsideTurned state .start
        { state with
          started := true, startComplete := false, stopping := false, runComplete := false
          forceStopRequested := false, drainTimerActive := false, drainTimer := false
          startFailure := none, runFailure := none }
        [.run .startup]
  | forceStop : OutsideTurned state .forceStop state [.forceStop .finished .lock]
  | beginGracefulStop :
      OutsideTurned state .beginGracefulStop state [.beginGracefulStop .check]
  | deadline :
      OutsideTurned state .deadline
        { state with
          deadlinePassed := true
          wait := if state.wait = .waiting then .expired else state.wait }
        []

section Inversion

variable {settings : Settings} {state later : State} {left : List Party} {outcome : Outcome}

theorem runTurn_turned {stage : RunStage}
    (taken : runTurn settings state stage outcome = some (later, left)) :
    RunTurned settings state stage outcome later left := by
  cases stage with
  | acquire current =>
      simp only [runTurn] at taken
      split at taken
      next below =>
        split at taken
        next same =>
          cases taken
          rw [← same.1] at below ⊢
          exact .acquire below
        next =>
          cases taken
          exact .goesOn rfl rfl
      next =>
        cases taken
        exact .goesOn rfl rfl
  | reject slot | drop slot | releaseLaunch slot =>
      simp only [runTurn] at taken
      cases taken
      exact .release slot rfl rfl rfl rfl
  | register slot =>
      simp only [runTurn, ConnectionRegistry.registerClose] at taken
      by_cases exhausted : state.registry.nextId = 0
      · rw [if_pos exhausted] at taken
        cases taken
        exact .goesOn rfl rfl
      · rw [if_neg exhausted] at taken
        dsimp only at taken
        split at taken
        next =>
          cases taken
          exact .skip slot exhausted
        next normal =>
          cases taken
          exact .enter slot normal exhausted
  | spawn slot id =>
      cases outcome <;> cases taken
      · exact .launch slot id
      · exact .launch slot id
      · exact .launch slot id
      · exact .goesOn rfl rfl
  | unregister slot id =>
      simp only [runTurn] at taken
      cases taken
      exact .unregister slot id
  | markRunComplete =>
      simp only [runTurn] at taken
      cases taken
      exact .complete
  | fail =>
      simp only [runTurn] at taken
      cases taken
      exact .fail
  | _ =>
      cases outcome <;> simp only [runTurn] at taken <;> try split at taken
      all_goals
        cases taken
        try exact .goesOn rfl rfl

theorem connectionTurn_turned {slot : Nat} {id : UInt64} {stage : ConnectionStage}
    (taken : connectionTurn settings state slot id stage outcome = (later, left)) :
    ConnectionTurned state slot id stage later left := by
  cases stage with
  | remove =>
      cases taken
      exact .remove
  | release =>
      cases taken
      exact .release
  | _ =>
      cases outcome <;> simp only [connectionTurn] at taken <;> try split at taken
      all_goals
        cases taken
        exact .goesOn (by simp) (by simp)

theorem forceStopTurn_turned {resume : Resume} {stage : StopStage}
    (taken : forceStopTurn state resume stage = (later, left)) :
    ForceStopTurned state resume stage later left := by
  cases stage with
  | lock =>
      simp only [forceStopTurn] at taken
      split at taken
      next unstarted =>
        cases taken
        exact .unstarted (by simpa using unstarted)
      next started =>
        cases taken
        exact .lock (by simpa using started)
  | dispatches tasks =>
      cases tasks with
      | nil =>
          cases taken
          exact .dispatched
      | cons task tasks =>
          cases taken
          exact .dispatch task tasks
  | closeAll =>
      cases taken
      exact .sweep
  | dispatch todo =>
      cases todo with
      | nil =>
          cases taken
          exact .swept
      | cons id todo =>
          cases taken
          exact .close id todo

theorem maybeFinishTurn_turned {resume : Resume} {stage : FinishStage}
    (taken : maybeFinishTurn state resume stage = (later, left)) :
    MaybeFinishTurned state resume stage later left := by
  cases stage with
  | check =>
      cases drained : state.isDrained with
      | false =>
          simp only [maybeFinishTurn, drained] at taken
          cases taken
          exact .pass drained
      | true =>
          cases active : state.drainTimerActive with
          | false =>
              simp only [maybeFinishTurn, drained, active] at taken
              cases taken
              exact .decide drained active
          | true =>
              simp only [maybeFinishTurn, drained, active] at taken
              cases taken
              exact .wake drained active
  | cancel timer =>
      cases taken
      exact .cancel timer
  | stop =>
      cases taken
      exact .stop

theorem beginGracefulStopTurn_turned {stage : GracefulStage}
    (taken : beginGracefulStopTurn state stage outcome = (later, left)) :
    GracefulTurned state stage later left := by
  cases stage with
  | check =>
      simp only [beginGracefulStopTurn] at taken
      split at taken
      next =>
        cases taken
        exact .refused (.inl rfl)
      next =>
        cases taken
        exact .checked
  | lock =>
      simp only [beginGracefulStopTurn] at taken
      split at taken
      next =>
        cases taken
        exact .refused (.inr rfl)
      next running =>
        simp only [Bool.or_eq_true, Bool.not_eq_true', not_or, Bool.not_eq_false,
          Bool.not_eq_true] at running
        cases taken
        exact .lock running.1 running.2
  | closeAcceptor acceptor scheduleDrainTimer =>
      cases scheduleDrainTimer with
      | false =>
          cases taken
          exact .finish acceptor
      | true =>
          cases taken
          exact .schedule acceptor
  | spawn =>
      cases outcome with
      | thrown =>
          cases taken
          exact .unspawned
      | done | failed | aborted =>
          cases taken
          exact .spawned

theorem drainTurn_turned {stage : DrainStage}
    (taken : drainTurn state stage outcome = some (later, left)) :
    DrainTurned state stage later left := by
  cases stage with
  | begin =>
      simp only [drainTurn] at taken
      split at taken
      next forced =>
        cases taken
        exact .forced forced
      next unforced =>
        cases taken
        exact .enter (by simpa using unforced)
  | wait =>
      cases outcome with
      | thrown =>
          cases taken
          exact .fail
      | done | failed | aborted =>
          cases taken
          exact .wait
  | resume =>
      simp only [drainTurn] at taken
      split at taken
      next cancelled =>
        cases taken
        exact .resume true (.inl cancelled)
      next expired =>
        cases taken
        exact .resume false (.inr expired)
      next => cases taken
  | decide ec =>
      simp only [drainTurn] at taken
      split at taken
      next =>
        cases taken
        exact .expire ec
      next =>
        cases taken
        exact .finish ec

theorem taskTurn_turned {task : Task} (taken : taskTurn state task = some (later, left)) :
    TaskTurned state task later left := by
  cases task with
  | acceptorClose =>
      cases taken
      exact .close
  | timerCancel =>
      simp only [taskTurn] at taken
      split at taken
      next => cases taken
      next waiting =>
        cases taken
        exact .wake waiting
      next free idle =>
        cases taken
        exact .miss free idle

theorem outside_turned {call : Call} (taken : outside settings state call = some (later, left)) :
    OutsideTurned state call later left := by
  cases call with
  | start =>
      simp only [outside] at taken
      split at taken
      next => cases taken
      next unstarted =>
        simp only [Bool.or_eq_true, not_or, Bool.not_eq_true] at unstarted
        cases taken
        exact .start unstarted.1
  | forceStop =>
      cases taken
      exact .forceStop
  | beginGracefulStop =>
      cases taken
      exact .beginGracefulStop
  | deadline =>
      cases taken
      exact .deadline

end Inversion

end Wan.Web.Server
