import Mathlib.Data.Multiset.Count
import Wan.Web.Server.Slots

/-!
# The end of the accept loop and the state that is drained

There is one coroutine of `Run` until `MemberRunComplete` is set, and none after.  Once the
server is drained, it stays so: nothing is left that could acquire a slot.
-/

namespace Wan.Web.Server

open Wan.Library

/-- The party is the coroutine of `Run`. -/
def Party.isRun : Party → Bool
  | .run _ => true
  | _ => false

/-- How many coroutines of `Run` there are. -/
def runs (parties : List Party) : Nat := parties.countP Party.isRun

@[simp] theorem runs_nil : runs [] = 0 := rfl

@[simp] theorem runs_append (front back : List Party) :
    runs (front ++ back) = runs front + runs back := List.countP_append

@[simp] theorem runs_tasks (tasks : List Task) : runs (tasks.map .task) = 0 := by
  simp [runs, Party.isRun]

@[simp] theorem runs_rest (resume : Resume) : runs resume.rest = 0 := by
  cases resume <;> rfl

/-- `MaybeFinishGracefulStop` will be called and will look at the state. -/
def Party.checks : Party → Bool
  | .forceStop _ _ | .maybeFinish _ .check | .completeDrainTimer _ => true
  | .beginGracefulStop (.closeAcceptor _ scheduleDrainTimer) => !scheduleDrainTimer
  | _ => false

/-- The flags that are never cleared while the server runs. -/
structure Kept (state later : State) : Prop where
  started : later.started = state.started
  stopping : state.stopping = true → later.stopping = true
  forced : state.forceStopRequested = true → later.forceStopRequested = true
  stopped : state.executorStopped = true → later.executorStopped = true

theorem Kept.refl (state : State) : Kept state state := ⟨rfl, id, id, id⟩

/-- What a change does to the coroutine of `Run` and to the flags. -/
inductive LifecycleChange (state : State) (acting : List Party) (later : State)
    (left : List Party) : Prop where
  | start (before : state.started = false) (after : later.started = true)
      (incomplete : later.runComplete = false) (none : runs acting = 0) (one : runs left = 1)
      (stopped : later.executorStopped = state.executorStopped) :
      LifecycleChange state acting later left
  | quiet (kept : Kept state later) (same : later.runComplete = state.runComplete)
      (loops : runs left = runs acting) :
      LifecycleChange state acting later left
  | complete (kept : Kept state later) (finished : later.runComplete = true)
      (one : runs acting = 1) (none : runs left = 0)
      (checks : ∃ party ∈ left, party.checks = true) :
      LifecycleChange state acting later left

variable {settings : Settings} {condition : State → Party → Outcome → Prop}
  {state later : State} {acting left : List Party}

/-- A change to none of the flags. -/
theorem LifecycleChange.same (started : later.started = state.started)
    (stopping : later.stopping = state.stopping)
    (forced : later.forceStopRequested = state.forceStopRequested)
    (stopped : later.executorStopped = state.executorStopped)
    (complete : later.runComplete = state.runComplete) (loops : runs left = runs acting) :
    LifecycleChange state acting later left :=
  .quiet ⟨started, stopping.trans, forced.trans, stopped.trans⟩ complete loops

theorem RunTurned.lifecycle {stage : RunStage} {outcome : Outcome}
    (turned : RunTurned settings state stage outcome later left) :
    LifecycleChange state [.run stage] later left := by
  cases turned with
  | complete => exact .complete ⟨rfl, id, id, id⟩ rfl rfl rfl ⟨_, List.mem_singleton_self _, rfl⟩
  | fail =>
      refine .complete ⟨rfl, ?_, ?_, id⟩ rfl rfl rfl ⟨_, List.mem_singleton_self _, rfl⟩
      · exact fun _ => rfl
      · exact fun _ => rfl
  | goesOn | acquire | release | enter | skip | launch | unregister =>
      exact .same rfl rfl rfl rfl rfl rfl

theorem ConnectionTurned.lifecycle {slot : Nat} {id : UInt64} {stage : ConnectionStage}
    (turned : ConnectionTurned state slot id stage later left) :
    LifecycleChange state [.connection slot id stage] later left := by
  cases turned
  all_goals exact .same rfl rfl rfl rfl rfl rfl

theorem ForceStopTurned.lifecycle {resume : Resume} {stage : StopStage}
    (turned : ForceStopTurned state resume stage later left) :
    LifecycleChange state [.forceStop resume stage] later left := by
  cases turned with
  | unstarted => exact .same rfl rfl rfl rfl rfl (runs_rest resume)
  | lock => exact .quiet ⟨rfl, fun _ => rfl, fun _ => rfl, id⟩ rfl rfl
  | dispatched | dispatch | sweep | swept | close => exact .same rfl rfl rfl rfl rfl rfl

theorem MaybeFinishTurned.lifecycle {resume : Resume} {stage : FinishStage}
    (turned : MaybeFinishTurned state resume stage later left) :
    LifecycleChange state [.maybeFinish resume stage] later left := by
  cases turned with
  | wake | decide => exact .same rfl rfl rfl rfl rfl rfl
  | pass => exact .same rfl rfl rfl rfl rfl (runs_rest resume)
  | cancel timer =>
      apply LifecycleChange.quiet (.refl state) rfl
      rw [runs_append, runs_tasks, runs_rest]
      rfl
  | stop => exact .quiet ⟨rfl, id, id, fun _ => rfl⟩ rfl (runs_rest resume)

theorem GracefulTurned.lifecycle {stage : GracefulStage}
    (turned : GracefulTurned state stage later left) :
    LifecycleChange state [.beginGracefulStop stage] later left := by
  cases turned with
  | refused | checked | unspawned | spawned => exact .same rfl rfl rfl rfl rfl rfl
  | lock => exact .quiet ⟨rfl, fun _ => rfl, id, id⟩ rfl rfl
  | finish acceptor | schedule acceptor =>
      apply LifecycleChange.quiet (.refl state) rfl
      rw [runs_append, runs_tasks]
      rfl

theorem DrainTurned.lifecycle {stage : DrainStage} (turned : DrainTurned state stage later left) :
    LifecycleChange state [.drain stage] later left := by
  cases turned
  all_goals exact .same rfl rfl rfl rfl rfl rfl

theorem TaskTurned.lifecycle {task : Task} (turned : TaskTurned state task later left) :
    LifecycleChange state [.task task] later left := by
  cases turned
  all_goals exact .same rfl rfl rfl rfl rfl rfl

theorem OutsideTurned.lifecycle {call : Call} (turned : OutsideTurned state call later left) :
    LifecycleChange state [] later left := by
  cases turned with
  | start unstarted => exact .start unstarted rfl rfl rfl rfl rfl
  | forceStop | beginGracefulStop | deadline => exact .same rfl rfl rfl rfl rfl rfl

/-- Every change starts the coroutine of `Run`, completes it or leaves it alone. -/
theorem change_lifecycle (change : (system settings).Change condition state acting later left) :
    LifecycleChange state acting later left := by
  cases change with
  | turn party outcome allowed taken =>
      cases party with
      | run stage => exact (runTurn_turned taken).lifecycle
      | connection slot id stage => exact (connectionTurn_turned (Option.some.inj taken)).lifecycle
      | forceStop resume stage => exact (forceStopTurn_turned (Option.some.inj taken)).lifecycle
      | maybeFinish resume stage =>
          exact (maybeFinishTurn_turned (Option.some.inj taken)).lifecycle
      | beginGracefulStop stage =>
          exact (beginGracefulStopTurn_turned (Option.some.inj taken)).lifecycle
      | completeDrainTimer resume =>
          cases taken
          exact .same rfl rfl rfl rfl rfl rfl
      | drain stage => exact (drainTurn_turned taken).lifecycle
      | recordWorkerFailure =>
          cases taken
          exact .quiet ⟨rfl, id, id, fun _ => rfl⟩ rfl rfl
      | task task => exact (taskTurn_turned taken).lifecycle
  | outside call taken => exact (outside_turned taken).lifecycle

/-- How many coroutines of `Run` a multiset of parties has. -/
def runsOf (parties : Multiset Party) : Nat := parties.countP fun party => party.isRun = true

theorem runsOf_coe (parties : List Party) : runsOf parties = runs parties := by
  rw [runsOf, Multiset.coe_countP, runs]
  congr 1
  funext party
  cases party.isRun <;> rfl

theorem runsOf_add (front back : Multiset Party) :
    runsOf (front + back) = runsOf front + runsOf back := Multiset.countP_add ..

/-- A started server has one coroutine of `Run` or has completed it. -/
def RunsOnce (state : State) (parties : Multiset Party) : Prop :=
  runsOf parties + state.runComplete.toNat = state.started.toNat

/-- In every run there is at most one coroutine of `Run`. -/
theorem runsOnce_of_reachable {pool : Pool State Party}
    (reachable : (system settings).Reachable initial pool) :
    RunsOnce pool.shared pool.parties := by
  apply reachable.invariant (fun _ _ => True) RunsOnce
  · intros
    trivial
  · rfl
  · intro state later acting left others changed _ _ once
    rw [RunsOnce, runsOf_add, runsOf_coe] at once ⊢
    cases change_lifecycle changed with
    | start before after incomplete none one =>
        rw [before, none] at once
        rw [after, incomplete, one]
        simp only [Bool.toNat_false] at once ⊢
        simp only [Bool.toNat_true]
        omega
    | quiet kept same loops => rw [loops, same, kept.started, once]
    | complete kept finished one none =>
        rw [one] at once
        rw [none, finished, kept.started, ← once]
        have incomplete : state.runComplete.toNat = 0 := by
          have atMostOne := state.started.toNat_le
          omega
        rw [incomplete, Bool.toNat_true]
        omega

/-- What is known of the slots and of the coroutine of `Run` in every state that is reached. -/
structure Sound (settings : Settings) (state : State) (parties : Multiset Party) : Prop where
  accounted : Accounted settings state (slotsOf parties)
  once : RunsOnce state parties

theorem sound_of_reachable {pool : Pool State Party}
    (reachable : (system settings).Reachable initial pool) :
    Sound settings pool.shared pool.parties :=
  ⟨accounted_of_reachable reachable, runsOnce_of_reachable reachable⟩

/-- The stop has been requested, `Run` is complete and no connection is active. -/
theorem State.isDrained_iff : state.isDrained = true ↔
    state.stopping = true ∧ state.runComplete = true ∧ state.activeConnections = 0 := by
  simp [State.isDrained, and_assoc]

namespace Sound

variable {parties others : Multiset Party}

theorem started (sound : Sound settings state parties) (complete : state.runComplete = true) :
    state.started = true := by
  have once := sound.once
  rw [RunsOnce, complete] at once
  cases found : state.started with
  | true => rfl
  | false =>
      rw [found, Bool.toNat_true, Bool.toNat_false] at once
      omega

/-- In a drained state no party runs the accept loop. -/
theorem runs_eq_zero (sound : Sound settings state (acting + others))
    (complete : state.runComplete = true) : runs acting = 0 := by
  have once := sound.once
  rw [RunsOnce, runsOf_add, runsOf_coe, complete, sound.started complete] at once
  simp only [Bool.toNat_true] at once
  omega

/-- In a drained state no party holds a slot. -/
theorem held_eq_nil (sound : Sound settings state (acting + others))
    (inactive : state.activeConnections = 0) : held acting = [] := by
  have counted := sound.accounted.counted
  rw [slotsOf_add, slotsOf_coe, inactive, Multiset.card_add, Multiset.coe_card] at counted
  apply List.eq_nil_of_length_eq_zero
  simp only [UInt64.toNat_zero] at counted
  omega

/-- A drained server stays drained. -/
theorem isDrained_of_change (sound : Sound settings state (acting + others))
    (drained : state.isDrained = true)
    (change : (system settings).Change condition state acting later left) :
    later.isDrained = true := by
  rcases State.isDrained_iff.mp drained with ⟨stopping, complete, inactive⟩
  have noRun := sound.runs_eq_zero complete
  have noSlot := sound.held_eq_nil inactive
  have active : later.activeConnections = 0 := by
    cases change_slots change with
    | quiet active => rw [active, inactive]
    | acquire current acts =>
        rw [acts] at noRun
        cases noRun
    | release slot _ _ _ before =>
        rw [noSlot] at before
        cases before
  cases change_lifecycle change with
  | start before =>
      rw [sound.started complete] at before
      cases before
  | quiet kept same =>
      exact State.isDrained_iff.mpr ⟨kept.stopping stopping, same.trans complete, active⟩
  | complete kept finished =>
      exact State.isDrained_iff.mpr ⟨kept.stopping stopping, finished, active⟩

end Sound

end Wan.Web.Server
