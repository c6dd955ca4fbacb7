import Wan.Web.Server.DrainTimer

/-!
# Turns that are left

Apart from the accept loop and the connections every party comes to its end: each turn lowers
the number of turns that are left, with what is registered counted for the `CloseAll` to come.
-/

namespace Wan.Web.Server

open Wan.Library

/-- A bound on the turns of the caller's rest. -/
def Resume.weight : Resume → Nat
  | .finished => 0
  | .completeDrainTimer => 4
  | .forceStop => 11
  | .rethrow => 1

/-- A bound on the turns of a party and of what it leaves. -/
@[grind =] def Party.weight : Party → Nat
  | .run _ | .connection _ _ _ => 0
  | .task _ | .recordWorkerFailure => 1
  | .maybeFinish resume .stop => 1 + resume.weight
  | .maybeFinish resume (.cancel _) => 2 + resume.weight
  | .maybeFinish resume .check => 3 + resume.weight
  | .completeDrainTimer resume => 4 + resume.weight
  | .forceStop resume (.dispatch todo) => todo.length + 4 + resume.weight
  | .forceStop resume .closeAll => 5 + resume.weight
  | .forceStop resume (.dispatches tasks) => 2 * tasks.length + 6 + resume.weight
  | .forceStop resume .lock => 11 + resume.weight
  | .drain (.decide _) => 16
  | .drain .resume => 17
  | .drain .wait => 18
  | .drain .begin => 19
  | .beginGracefulStop .spawn => 20
  | .beginGracefulStop (.closeAcceptor _ _) => 22
  | .beginGracefulStop .lock => 23
  | .beginGracefulStop .check => 24

/-- A bound on the turns of parties. -/
def weight (parties : List Party) : Nat := (parties.map Party.weight).sum

@[simp] theorem weight_nil : weight [] = 0 := rfl

@[simp] theorem weight_cons (party : Party) (parties : List Party) :
    weight (party :: parties) = party.weight + weight parties := by
  simp [weight]

@[simp] theorem weight_append (front back : List Party) :
    weight (front ++ back) = weight front + weight back := by
  simp [weight]

@[simp] theorem weight_tasks (tasks : List Task) : weight (tasks.map .task) = tasks.length := by
  induction tasks with
  | nil => rfl
  | cons task tasks ih =>
      rw [List.map_cons, weight_cons, ih, List.length_cons, Nat.add_comm]
      rfl

@[simp] theorem weight_rest (resume : Resume) : weight resume.rest = resume.weight := by
  cases resume <;> rfl

/-- A bound on the turns of a multiset of parties. -/
def weightOf (parties : Multiset Party) : Nat := (parties.map Party.weight).sum

theorem weightOf_coe (parties : List Party) : weightOf parties = weight parties := by
  rw [weightOf, Multiset.map_coe, Multiset.sum_coe, weight]

theorem weightOf_add (front back : Multiset Party) :
    weightOf (front + back) = weightOf front + weightOf back := by
  rw [weightOf, Multiset.map_add, Multiset.sum_add]
  rfl

theorem length_cancelDrainTimer (timer : Bool) : (cancelDrainTimer timer).length = timer.toNat := by
  cases timer <;> rfl

theorem length_closeAcceptor (acceptor : Bool) :
    (closeAcceptor acceptor).length = acceptor.toNat := by
  cases acceptor <;> rfl

/-- The turn of a party lowers the bound. -/
def Falls (state : State) (party : Party) (later : State) (left : List Party) : Prop :=
  weight left + later.registry.connections.length <
    party.weight + state.registry.connections.length

variable {settings : Settings} {state later : State} {left : List Party}

theorem forceStopTurn_falls {resume : Resume} {stage : StopStage}
    (taken : forceStopTurn state resume stage = (later, left)) :
    Falls state (.forceStop resume stage) later left := by
  cases stage with
  | lock =>
      simp only [forceStopTurn] at taken
      split at taken <;> cases taken
      · simp [Falls, Party.weight]
      · have timer := state.drainTimer.toNat_le
        have acceptor := state.acceptor.toNat_le
        simp [Falls, Party.weight, length_cancelDrainTimer, length_closeAcceptor]
        omega
  | dispatches tasks =>
      cases tasks with
      | nil =>
          cases taken
          simp [Falls, Party.weight]
      | cons task tasks =>
          cases taken
          simp [Falls, Party.weight]
          omega
  | closeAll =>
      cases taken
      simp [Falls, Party.weight]
      omega
  | dispatch todo =>
      cases todo with
      | nil =>
          cases taken
          simp [Falls, Party.weight]
      | cons id todo =>
          cases taken
          simp [Falls, Party.weight]

theorem maybeFinishTurn_falls {resume : Resume} {stage : FinishStage}
    (taken : maybeFinishTurn state resume stage = (later, left)) :
    Falls state (.maybeFinish resume stage) later left := by
  cases stage with
  | check =>
      simp only [maybeFinishTurn] at taken
      split at taken
      next =>
        cases taken
        simp [Falls, Party.weight]
      next =>
        split at taken <;> cases taken
        all_goals simp [Falls, Party.weight]
  | cancel present =>
      cases taken
      have bound := present.toNat_le
      simp [Falls, Party.weight, length_cancelDrainTimer]
      omega
  | stop =>
      cases taken
      simp [Falls, Party.weight]

theorem beginGracefulStopTurn_falls {stage : GracefulStage} {outcome : Outcome}
    (taken : beginGracefulStopTurn state stage outcome = (later, left)) :
    Falls state (.beginGracefulStop stage) later left := by
  cases stage with
  | check | lock =>
      simp only [beginGracefulStopTurn] at taken
      split at taken
      all_goals
        cases taken
        simp [Falls, Party.weight]
  | closeAcceptor acceptor scheduleDrainTimer =>
      cases taken
      have bound := acceptor.toNat_le
      cases scheduleDrainTimer
      all_goals
        simp [Falls, Party.weight, Resume.weight, length_closeAcceptor]
        omega
  | spawn =>
      cases outcome
      all_goals
        cases taken
        simp [Falls, Party.weight, Resume.weight]

theorem drainTurn_falls {stage : DrainStage} {outcome : Outcome}
    (taken : drainTurn state stage outcome = some (later, left)) :
    Falls state (.drain stage) later left := by
  unfold drainTurn at taken
  split at taken
  all_goals try split at taken
  all_goals
    cases taken
    try simp [Falls, Party.weight, Resume.weight]

theorem taskTurn_falls {task : Task} (taken : taskTurn state task = some (later, left)) :
    Falls state (.task task) later left := by
  unfold taskTurn at taken
  split at taken
  all_goals try split at taken
  all_goals
    cases taken
    try simp [Falls, Party.weight]

/-- A turn of a party that comes to its end lowers the bound. -/
theorem turn_falls {party : Party} {outcome : Outcome} (loop : party.isRun = false)
    (free : party.slots = []) (taken : turn settings state party outcome = some (later, left)) :
    Falls state party later left := by
  cases party with
  | run stage => cases loop
  | connection slot id stage => cases free
  | forceStop resume stage => exact forceStopTurn_falls (Option.some.inj taken)
  | maybeFinish resume stage => exact maybeFinishTurn_falls (Option.some.inj taken)
  | beginGracefulStop stage => exact beginGracefulStopTurn_falls (Option.some.inj taken)
  | completeDrainTimer resume =>
      cases taken
      simp [Falls, Party.weight]
  | drain stage => exact drainTurn_falls taken
  | recordWorkerFailure =>
      cases taken
      simp [Falls, Party.weight]
  | task task => exact taskTurn_falls taken

end Wan.Web.Server
