import Wan.Web.Application.Model

/-!
# The order of the states of an application

Every section looks at the state before it changes it, but for the three `catch` sections:
these write `Failed` over whatever they find.  The states of a run go forward as long as no
`catch` section finds the application stopped.
-/

namespace Wan.Web.Application

open Wan.Library

/-- The place in the documented order; `Stopped` and `Failed` both come last. -/
def ApplicationState.rank : ApplicationState → Nat
  | .created => 0
  | .starting => 1
  | .running => 2
  | .stopping => 3
  | .stopped | .failed => 4

/-- `Stopped` and `Failed`. -/
def ApplicationState.terminal : ApplicationState → Bool
  | .stopped | .failed => true
  | _ => false

/-- The state has not moved backwards, and has not changed if it was terminal. -/
def Forward (before after : ApplicationState) : Prop :=
  before.rank ≤ after.rank ∧ (before.terminal = true → after = before)

instance (before after : ApplicationState) : Decidable (Forward before after) :=
  inferInstanceAs (Decidable (_ ∧ (_ → _)))

/-- The party is in the section of a `catch`, which records the failure. -/
def Party.records : Party → Bool
  | .start (.fail _) | .stop (.fail _) | .wait (.fail _) => true
  | _ => false

/-- No failure is recorded once the application is stopped. -/
def Timely (shared : State) (party : Party) (_ : Outcome) : Prop :=
  party.records = true → shared.state ≠ .stopped

instance (shared : State) (party : Party) (outcome : Outcome) :
    Decidable (Timely shared party outcome) :=
  inferInstanceAs (Decidable (_ → _))

section Moves

/-- What a turn does to the state of the application. -/
inductive Moved (party : Party) : ApplicationState → ApplicationState → Prop where
  | stays (state : ApplicationState) (silent : party.records = false) : Moved party state state
  | start (silent : party.records = false) : Moved party .created .starting
  | run (silent : party.records = false) : Moved party .starting .running
  | stop {state : ApplicationState} (silent : party.records = false)
      (active : state = .starting ∨ state = .running) : Moved party state .stopping
  | finish {state : ApplicationState} (silent : party.records = false)
      (active : state.terminal = false) : Moved party state .stopped
  | fail (state : ApplicationState) (records : party.records = true) : Moved party state .failed

variable {config : ApplicationConfig} {shared later : State} {party : Party} {outcome : Outcome}
variable {left : List Party}

theorem startTurn_moved {stage : StartStage} {rest : Party}
    (taken : startTurn config shared stage outcome = (later, rest)) :
    Moved (.start stage) shared.state later.state := by
  unfold startTurn at taken
  split at taken
  case h_1 =>
    split at taken
    · cases taken
      exact .stays _ rfl
    · split at taken <;> cases taken
      · exact .stays _ rfl
      next created =>
        rw [not_not.mp created]
        exact .start rfl
  case h_2 =>
    split at taken
    · cases taken
      exact .stays _ rfl
    · split at taken
      next stopping =>
        cases taken
        rw [stopping]
        exact .finish rfl rfl
      · split at taken
        · cases taken
          exact .stays _ rfl
        next starting =>
          split at taken <;> cases taken
          · exact .stays _ rfl
          · rw [not_not.mp starting]
            exact .run rfl
  case h_3 =>
    cases taken
    exact .fail _ rfl

theorem stopTurn_moved {stage : StopStage} {rest : Party}
    (taken : stopTurn shared stage outcome = (later, rest)) :
    Moved (.stop stage) shared.state later.state := by
  unfold stopTurn at taken
  split at taken
  case h_1 =>
    cases equal : shared.state <;> rw [equal] at taken <;> cases taken
    case created => exact .finish rfl rfl
    case starting => exact .stop rfl (.inl rfl)
    case running => exact .stop rfl (.inr rfl)
    all_goals
      rw [equal]
      exact .stays _ rfl
  case h_6 =>
    cases taken
    exact .fail _ rfl
  all_goals
    cases taken
    exact .stays _ rfl

theorem waitTurn_moved {stage : WaitStage} {rest : Party}
    (taken : waitTurn shared stage outcome = (later, rest)) :
    Moved (.wait stage) shared.state later.state := by
  unfold waitTurn at taken
  split at taken
  case h_1 =>
    cases equal : shared.state <;> rw [equal] at taken <;> cases taken
    case created => exact .finish rfl rfl
    all_goals
      rw [equal]
      exact .stays _ rfl
  case h_5 =>
    cases taken
    exact .fail _ rfl
  case h_6 =>
    cases equal : shared.state <;> rw [equal] at taken <;> cases taken
    case starting | running | stopping => exact .finish rfl rfl
    all_goals
      rw [equal]
      exact .stays _ rfl
  all_goals
    cases taken
    exact .stays _ rfl

theorem turn_moved (taken : turn config shared party outcome = some (later, left)) :
    Moved party shared.state later.state := by
  cases party with
  | start stage =>
      cases taken
      exact startTurn_moved rfl
  | stop stage =>
      cases taken
      exact stopTurn_moved rfl
  | wait stage =>
      cases taken
      exact waitTurn_moved rfl
  | finished result => cases taken

end Moves

theorem Forward.refl (state : ApplicationState) : Forward state state :=
  ⟨le_rfl, fun _ => rfl⟩

theorem Forward.trans {before middle after : ApplicationState} (earlier : Forward before middle)
    (later : Forward middle after) : Forward before after := by
  constructor
  · exact earlier.1.trans later.1
  · intro terminal
    have same := earlier.2 terminal
    subst same
    exact later.2 terminal

/-- A move goes forward unless a failure is recorded in a stopped application. -/
theorem Moved.forward_iff {party : Party} {before after : ApplicationState}
    (moved : Moved party before after) :
    Forward before after ↔ (party.records = true → before ≠ .stopped) := by
  have silentCase : party.records = false → Forward before after →
      (Forward before after ↔ (party.records = true → before ≠ .stopped)) := by
    intro silent forward
    simp [silent, forward]
  cases moved with
  | stays _ silent => exact silentCase silent (.refl before)
  | start silent => exact silentCase silent (by decide)
  | run silent => exact silentCase silent (by decide)
  | stop silent active =>
      apply silentCase silent
      rcases active with rfl | rfl
      · decide
      · decide
  | finish silent active =>
      apply silentCase silent
      cases before
      case stopped | failed => cases active
      all_goals decide
  | fail _ records =>
      rw [imp_iff_right records]
      cases before <;> decide

/-- A turn goes forward exactly if it does not record a failure in a stopped application. -/
theorem turn_forward_iff {config : ApplicationConfig} {shared later : State} {party : Party}
    {outcome : Outcome} {left : List Party}
    (taken : turn config shared party outcome = some (later, left)) :
    Forward shared.state later.state ↔ Timely shared party outcome :=
  (turn_moved taken).forward_iff

theorem change_forward {config : ApplicationConfig} {shared later : State}
    {acting left : List Party}
    (change : (system config).Change Timely shared acting later left) :
    Forward shared.state later.state := by
  cases change with
  | turn party outcome timely taken => exact (turn_forward_iff taken).mpr timely
  | outside call taken =>
      cases taken
      exact .refl _

/-- As long as no failure is recorded in a stopped application, the state never moves
backwards, and a terminal state stays. -/
theorem forward_of_timely {config : ApplicationConfig} {pool later : Pool State Party}
    (reaches : (system config).Reaches Timely pool later) :
    Forward pool.shared.state later.shared.state :=
  reaches.related (fun shared => .refl shared.state) .trans change_forward

/-- The application is started, stopped and waited for, one call after the other. -/
def startStopWait : List (Event Outcome Call) :=
  [.outside .start, .turn 0 .done, .turn 0 .done, .outside .stop, .turn 1 .done, .turn 1 .done,
    .outside .wait, .turn 2 .done, .turn 2 .done, .turn 2 .done]

/-- One thread waits while another is between the two sections of `Start`. -/
def waitWhileStarting : List (Event Outcome Call) :=
  [.outside .start, .turn 0 .done, .outside .wait, .turn 1 .done, .turn 1 .done, .turn 1 .done]

theorem forward_of_timely_example : ∃ pool,
    startStopWait.foldlM ((system {}).meetingStep Timely) initial = some pool ∧
      Forward .created pool.shared.state ∧ pool.shared.state = .stopped := by
  let stopped : Pool State Party :=
    ⟨⟨.stopped, none⟩, [.finished (.ok ()), .finished (.ok ()), .finished (.ok ())]⟩
  have run : startStopWait.foldlM ((system {}).meetingStep Timely) initial = some stopped := by
    decide
  exact ⟨stopped, run, forward_of_timely (System.reaches_of_meeting _ run), rfl⟩

theorem stopped_not_final : ¬∀ config pool later, (system config).Reachable initial pool →
    (system config).Reachable pool later → Forward pool.shared.state later.shared.state := by
  intro forward
  let superseded : Failure :=
    .logicError "application start was superseded by another lifecycle operation"
  let stopped : Pool State Party := ⟨⟨.stopped, none⟩, [.start .begin, .finished (.ok ())]⟩
  let failed : Pool State Party :=
    ⟨⟨.failed, some superseded⟩, [.finished (.error superseded), .finished (.ok ())]⟩
  have stops : waitWhileStarting.foldlM (system {}).step initial = some stopped := by decide
  have fails : [Event.turn 0 .done, .turn 0 .done].foldlM (system {}).step stopped =
      some failed := by
    decide
  have final := (forward {} stopped failed (System.reaches_of_run stops)
    (System.reaches_of_run fails)).2 rfl
  cases final

end Wan.Web.Application
