import Wan.Web.Server.Shutdown
import Wan.Web.Server.Weight

/-!
# The wake-up of the drain coroutine

The last release wakes the drain coroutine by cancelling its timer.  A cancellation that runs
before the coroutine has begun to wait has no effect, and the coroutine then waits for the
deadline.  As long as no cancellation comes so early, a drained server stops before it.
-/

namespace Wan.Web.Server

open Wan.Library

/-- The turn of a party does not cancel the timer before the drain coroutine has read
`ForceStopRequested`, unless it is going to read that a forced stop has been requested. -/
def Heard (state : State) (party : Party) (_ : Outcome) : Prop :=
  party = .task .timerCancel → state.wait = .notStarted → state.forceStopRequested = true

instance (state : State) (party : Party) (outcome : Outcome) :
    Decidable (Heard state party outcome) :=
  inferInstanceAs (Decidable (_ → _ → _))

/-- A server that is drained before the deadline comes to stop its executor, whatever turns
the parties take, without the deadline. -/
def Undelayed (settings : Settings) (condition : State → Party → Outcome → Prop)
    (pool : Pool State Party) : Prop :=
  pool.shared.isDrained = true → pool.shared.deadlinePassed = false →
    Inevitable ((system settings).Turns condition)
      (fun pool => pool.shared.executorStopped = true) pool

/-- The party is cancelling the drain timer. -/
def Party.cancels : Party → Bool
  | .maybeFinish _ (.cancel timer) => timer
  | .task .timerCancel => true
  | _ => false

/-- The party looks at a drained server or is cancelling the timer. -/
def Party.Wakes (party : Party) : Prop := party.checks = true ∨ party.cancels = true

/-- The wait has ended, or the drain coroutine will not wait. -/
def State.Settled (state : State) : Prop :=
  state.wait = .cancelled ∨ state.wait = .expired ∨ state.wait = .passed ∨
    state.wait = .notStarted ∧ state.forceStopRequested = true

variable {settings : Settings} {condition : State → Party → Outcome → Prop}
  {state later : State} {acting left : List Party}

/-- What a change leaves behind when the server is drained after it and the drain timer is
active. -/
inductive WakeChange (state : State) (acting : List Party) (later : State)
    (left : List Party) : Prop where
  | wakes (wakes : ∃ party ∈ left, party.Wakes) : WakeChange state acting later left
  | settled (settled : later.Settled) : WakeChange state acting later left
  | idle (drained : state.isDrained = true) (active : state.drainTimerActive = true)
      (idle : ∀ party ∈ acting, ¬party.Wakes) : WakeChange state acting later left

theorem WakeChange.head {party : Party} {others : List Party} (wakes : party.Wakes) :
    WakeChange state acting later (party :: others) := .wakes ⟨party, List.mem_cons_self, wakes⟩

theorem WakeChange.alone {party : Party} (drained : state.isDrained = true)
    (active : state.drainTimerActive = true) (looks : party.checks = false)
    (quiet : party.cancels = false) : WakeChange state [party] later left := by
  apply WakeChange.idle drained active
  intro other member
  cases List.mem_singleton.mp member
  simp [Party.Wakes, looks, quiet]

theorem WakeChange.of_checks (checks : ∃ party ∈ left, party.checks = true) :
    WakeChange state acting later left := by
  rcases checks with ⟨party, member, checks⟩
  exact .wakes ⟨party, member, .inl checks⟩

theorem maybeFinishTurn_wakes {resume : Resume} {stage : FinishStage}
    (drained : later.isDrained = true) (active : later.drainTimerActive = true)
    (timer : later.drainTimer = true)
    (taken : maybeFinishTurn state resume stage = (later, left)) :
    WakeChange state [.maybeFinish resume stage] later left := by
  cases stage with
  | check =>
      simp only [maybeFinishTurn] at taken
      split at taken
      next =>
        cases taken
        rw [timer]
        exact .head (.inr rfl)
      next unset =>
        split at taken <;> cases taken
        all_goals exact absurd (by rw [drained, active]; rfl) unset
  | cancel present =>
      cases taken
      cases present with
      | false => exact .alone drained active rfl rfl
      | true => exact .head (.inr rfl)
  | stop =>
      cases taken
      exact .alone drained active rfl rfl

theorem beginGracefulStopTurn_wakes {stage : GracefulStage} {outcome : Outcome}
    (drained : later.isDrained = true) (active : later.drainTimerActive = true)
    (taken : beginGracefulStopTurn state stage outcome = (later, left)) :
    WakeChange state [.beginGracefulStop stage] later left := by
  cases stage with
  | check =>
      simp only [beginGracefulStopTurn] at taken
      split at taken
      all_goals
        cases taken
        exact .alone drained active rfl rfl
  | lock =>
      simp only [beginGracefulStopTurn] at taken
      split at taken
      next =>
        cases taken
        exact .alone drained active rfl rfl
      next =>
        cases taken
        have inactive : state.activeConnections = 0 := (State.isDrained_iff.mp drained).2.2
        exact .head (.inl (by simp [Party.checks, inactive]))
  | closeAcceptor acceptor scheduleDrainTimer =>
      cases taken
      cases scheduleDrainTimer with
      | false => exact .wakes ⟨_, List.mem_append_right _ List.mem_cons_self, .inl rfl⟩
      | true => exact .alone drained active rfl rfl
  | spawn =>
      cases outcome
      all_goals
        cases taken
        exact .alone drained active rfl rfl

theorem taskTurn_wakes {task : Task} (drained : later.isDrained = true)
    (active : later.drainTimerActive = true) {outcome : Outcome}
    (heard : Heard state (.task task) outcome)
    (taken : taskTurn state task = some (later, left)) :
    WakeChange state [.task task] later left := by
  cases task with
  | acceptorClose =>
      cases taken
      exact .alone drained active rfl rfl
  | timerCancel =>
      simp only [taskTurn] at taken
      split at taken
      next => cases taken
      next =>
        cases taken
        exact .settled (.inl rfl)
      next notEntering notWaiting =>
        cases taken
        apply WakeChange.settled
        cases wait : state.wait with
        | notStarted => exact .inr (.inr (.inr ⟨wait, heard rfl wait⟩))
        | entering => exact absurd wait notEntering
        | waiting => exact absurd wait notWaiting
        | cancelled => exact .inl wait
        | expired => exact .inr (.inl wait)
        | passed => exact .inr (.inr (.inl wait))

theorem drainTurn_wakes {stage : DrainStage} {outcome : Outcome} (drained : later.isDrained = true)
    (active : later.drainTimerActive = true)
    (taken : drainTurn state stage outcome = some (later, left)) :
    WakeChange state [.drain stage] later left := by
  unfold drainTurn at taken
  split at taken
  all_goals try split at taken
  all_goals
    cases taken
    try exact .alone drained active rfl rfl

/-- A change after which the server is drained wakes the drain coroutine, if the change is
one of the party that was to wake it or the one that drained the server. -/
theorem change_wakes {others : Multiset Party}
    (change : (system settings).Change Heard state acting later left)
    (known : Known settings later (left + others))
    (drained : later.isDrained = true) (active : later.drainTimerActive = true) :
    WakeChange state acting later left := by
  cases change with
  | turn party outcome allowed taken =>
      have checks := turn_checks taken known.sound drained
      cases party with
      | run stage | connection slot id stage | forceStop resume stage => exact .of_checks checks
      | maybeFinish resume stage =>
          exact maybeFinishTurn_wakes drained active (known.draining.timer active)
            (Option.some.inj taken)
      | beginGracefulStop stage =>
          exact beginGracefulStopTurn_wakes drained active (Option.some.inj taken)
      | completeDrainTimer resume =>
          cases taken
          cases active
      | drain stage => exact drainTurn_wakes drained active taken
      | recordWorkerFailure =>
          cases taken
          exact .alone drained active rfl rfl
      | task task =>
          exact taskTurn_wakes drained active allowed taken
  | outside call taken =>
      cases call with
      | start =>
          change outside settings state .start = _ at taken
          simp only [outside] at taken
          split at taken <;> cases taken
          cases active
      | forceStop =>
          cases taken
          exact .head (.inl rfl)
      | beginGracefulStop | deadline =>
          cases taken
          exact .idle drained active (List.forall_mem_nil _)

/-- A drain coroutine that nothing has to wake goes on. -/
theorem drainTurn_settled {stage : DrainStage} {outcome : Outcome} (settled : state.Settled)
    (fits : (Party.drain stage).Fits state.wait)
    (taken : drainTurn state stage outcome = some (later, left)) : later.Settled := by
  cases stage with
  | begin =>
      have early : state.wait = .notStarted := fits
      have forced : state.forceStopRequested = true := by
        simpa [State.Settled, early] using settled
      simp only [drainTurn, forced, if_true] at taken
      cases taken
      exact .inr (.inr (.inl rfl))
  | wait =>
      have entering : state.wait = .entering := fits
      simp [State.Settled, entering] at settled
  | resume =>
      simp only [drainTurn] at taken
      split at taken <;> cases taken
      all_goals exact .inr (.inr (.inl rfl))
  | decide ec =>
      simp only [drainTurn] at taken
      split at taken
      all_goals
        cases taken
        exact settled

/-- An ended wait stays ended, and a coroutine that reads the request for a forced stop does
not wait. -/
theorem settled_of_change (change : (system settings).Change condition state acting later left)
    (settled : state.Settled) (fits : ∀ party ∈ acting, party.Fits state.wait)
    (forced : state.forceStopRequested = true → later.forceStopRequested = true) :
    later.Settled := by
  rcases (change_drain change).2.wait with same | ⟨stage, rfl⟩ | ⟨waiting, ended⟩
  · rcases settled with ended | ended | ended | ⟨early, requested⟩
    · exact .inl (same.trans ended)
    · exact .inr (.inl (same.trans ended))
    · exact .inr (.inr (.inl (same.trans ended)))
    · exact .inr (.inr (.inr ⟨same.trans early, forced requested⟩))
  · cases change with
    | turn _ outcome _ taken =>
        exact drainTurn_settled settled (fits _ (List.mem_singleton_self _)) taken
  · rcases ended with cancelled | expired
    · exact .inl cancelled
    · exact .inr (.inl expired)

/-- What wakes the drain coroutine of a drained server is under way, or nothing has to. -/
def Woken (state : State) (parties : Multiset Party) : Prop :=
  state.isDrained = true → state.drainTimerActive = true →
    (∃ party ∈ parties, party.Wakes) ∨ state.Settled

theorem woken_of_reaches {pool : Pool State Party}
    (reaches : (system settings).Reaches Heard initial pool) :
    Woken pool.shared pool.parties := by
  apply reaches.invariant (Known settings) Woken fun _ reached =>
    known_of_reachable reached.reachable
  · exact nofun
  · intro state later acting left others change before after woken drained active
    cases change_wakes change after drained active with
    | wakes wakes =>
        rcases wakes with ⟨party, member, wakes⟩
        exact .inl ⟨party, Multiset.mem_add.mpr (.inl (Multiset.mem_coe.mpr member)), wakes⟩
    | settled settled => exact .inr settled
    | idle drainedBefore activeBefore idle =>
        rcases woken drainedBefore activeBefore with ⟨party, member, wakes⟩ | settled
        · rcases Multiset.mem_add.mp member with inActing | inOthers
          · exact absurd wakes (idle party (Multiset.mem_coe.mp inActing))
          · exact .inl ⟨party, Multiset.mem_add.mpr (.inr inOthers), wakes⟩
        · right
          apply settled_of_change change settled
          · intro party member
            exact before.draining.fits party
              (Multiset.mem_add.mpr (.inl (Multiset.mem_coe.mpr member)))
          · cases change_lifecycle change with
            | start unstarted =>
                rw [before.draining.started activeBefore] at unstarted
                cases unstarted
            | quiet kept | complete kept => exact kept.forced

/-- What wakes the drain coroutine can take a turn when it waits. -/
theorem able_of_wakes (settings : Settings) {party : Party} (wakes : party.Wakes)
    (waiting : state.wait = .waiting) :
    Heard state party .done ∧ (turn settings state party .done).isSome := by
  constructor
  · intro _ early
    rw [waiting] at early
    cases early
  · cases party with
    | forceStop resume stage | maybeFinish resume stage | completeDrainTimer resume
    | beginGracefulStop stage => rfl
    | task task => cases task <;> simp [turn, taskTurn, waiting]
    | run stage | connection slot id stage | recordWorkerFailure | drain stage =>
        rcases wakes with checks | cancels
        · cases checks
        · cases cancels

/-- As long as the executor of a drained server is not stopped, some party can take a turn. -/
theorem exists_turn {pool : Pool State Party}
    (reaches : (system settings).Reaches Heard initial pool)
    (drained : pool.shared.isDrained = true)
    (running : ¬pool.shared.executorStopped = true) :
    ∃ later, (system settings).Turns Heard pool later := by
  have draining := draining_of_reachable reaches.reachable
  have able {party : Party} (member : party ∈ (pool.parties : Multiset Party))
      (heard : Heard pool.shared party .done)
      (possible : ((system settings).turn pool.shared party .done).isSome) :
      ∃ later, (system settings).Turns Heard pool later :=
    System.exists_turns (Multiset.mem_coe.mp member) heard possible
  have leading : ∃ party ∈ (pool.parties : Multiset Party), party.Leads := by
    rcases (owed_of_reachable reaches.reachable).leads drained with stopped | leads
    · exact absurd stopped running
    · exact leads
  rcases leading with ⟨party, member, leads⟩
  have quiet : Heard pool.shared party .done := by
    rintro rfl
    exact absurd leads (not_leads_iff.mpr ⟨rfl, rfl, rfl⟩)
  rcases able_of_leads settings leads (draining.fits party member) with ⟨waiting, rfl⟩ | possible
  · -- the drain coroutine waits, so that its timer is active and something wakes it
    have active : pool.shared.drainTimerActive = true := by
      have bound := drains_le_drainsOf member
      rw [draining.counted] at bound
      exact Bool.toNat_eq_one.mp (Nat.le_antisymm (Bool.toNat_le _) bound)
    rcases woken_of_reaches reaches drained active with ⟨waker, inPool, wakes⟩ | settled
    · rcases able_of_wakes settings wakes waiting with ⟨heard, possible⟩
      exact able inPool heard possible
    · simp [State.Settled, waiting] at settled
  · exact able member quiet possible

/-- A turn on a drained server lowers the bound on the turns that are left. -/
theorem turns_fall {condition : State → Party → Outcome → Prop} {pool later : Pool State Party}
    (reachable : (system settings).Reachable initial pool) (drained : pool.shared.isDrained = true)
    (turned : (system settings).Turns condition pool later) :
    weightOf later.parties + later.shared.registry.connections.length <
      weightOf pool.parties + pool.shared.registry.connections.length := by
  have sound := sound_of_reachable reachable
  rcases State.isDrained_iff.mp drained with ⟨-, complete, inactive⟩
  rcases turned.cases with ⟨party, outcome, left, others, before, taken, after, -⟩
  rw [before] at sound
  have loop : party.isRun = false := by
    simpa [runs] using sound.runs_eq_zero complete
  have free : party.slots = [] := by
    simpa [held] using sound.held_eq_nil inactive
  have falls : Falls pool.shared party later.shared left := turn_falls loop free taken
  rw [Falls] at falls
  rw [before, after, weightOf_add, weightOf_add, weightOf_coe, weightOf_coe, weight_cons,
    weight_nil]
  omega

/-- In a run in which every cancellation of the drain timer is heard, a server that is drained
before the deadline stops without it. -/
theorem undelayed_of_heard {pool : Pool State Party}
    (reaches : (system settings).Reaches Heard initial pool) :
    Undelayed settings Heard pool := by
  intro drained _
  apply Inevitable.of_measure
    (fun pool => (system settings).Reaches Heard initial pool ∧ pool.shared.isDrained = true)
    (fun pool => weightOf pool.parties + pool.shared.registry.connections.length)
  · rintro pool later ⟨reaches, drained⟩ _ ⟨index, outcome, meets, taken⟩
    refine ⟨.step reaches meets taken, ?_⟩
    exact stays_drained reaches.reachable drained (.step .start (System.meets_true _) taken)
  · rintro pool ⟨reaches, drained⟩ running
    exact exists_turn reaches drained running
  · rintro pool later ⟨reaches, drained⟩ _ turned
    exact turns_fall reaches.reachable drained turned
  · exact ⟨reaches, drained⟩

/-- The only connection ends. -/
def endConnection : List (Event Outcome Call) :=
  [.turn 0 .done, .turn 0 .failed] ++ List.replicate 3 (.turn 0 .done)

/-- While a connection is served, a graceful stop closes the acceptor and ends the accept loop,
and has yet to spawn the drain coroutine. -/
def beginDrain : List (Event Outcome Call) :=
  .outside .beginGracefulStop :: List.replicate 4 (.turn 2 .done) ++
    .turn 0 .aborted :: List.replicate 3 (.turn 0 .done)

/-- The drain coroutine begins to wait before the connection ends. -/
def drainInTime : List (Event Outcome Call) :=
  acceptOne ++ beginDrain ++ List.replicate 3 (.turn 1 .done) ++ endConnection

/-- The connection ends, and the timer is cancelled, before the drain coroutine begins to wait. -/
def drainTooLate : List (Event Outcome Call) :=
  acceptOne ++ beginDrain ++ endConnection ++ List.replicate 6 (.turn 0 .done)

/-- A server after a graceful stop, when its only connection has ended. -/
def afterDrain (parties : List Party) : Pool State Party where
  shared :=
    { serving.shared with
      stopping := true, runComplete := true, drainTimerActive := true, drainTimer := true
      activeConnections := 0, registry := ⟨[], 2⟩, listening := false, wait := .waiting
      released := [0] }
  parties := parties

theorem undelayed_of_heard_example :
    Inevitable ((system {}).Turns Heard) (fun pool => pool.shared.executorStopped = true)
      (afterDrain [.maybeFinish .finished .check, .drain .resume]) := by
  have run : drainInTime.foldlM ((system {}).meetingStep Heard) initial =
      some (afterDrain [.maybeFinish .finished .check, .drain .resume]) := by
    decide +kernel
  exact undelayed_of_heard (System.reaches_of_meeting _ run) rfl rfl

theorem delayed_when_unheard : ¬∀ settings pool, (system settings).Reachable initial pool →
    Undelayed settings (fun _ _ _ => True) pool := by
  intro undelayed
  have run : drainTooLate.foldlM (system {}).step initial = some (afterDrain [.drain .resume]) := by
    decide +kernel
  refine Inevitable.not_of_stuck nofun ?_ (undelayed {} _ (System.reaches_of_run run) rfl rfl)
  intro later turned
  rcases turned.cases with ⟨party, outcome, left, others, before, taken, -, -⟩
  have member : party ∈ (↑[Party.drain .resume] : Multiset Party) := by
    change party ∈ ((afterDrain [.drain .resume]).parties : Multiset Party)
    rw [before]
    exact Multiset.mem_add.mpr (.inl (Multiset.mem_coe.mpr List.mem_cons_self))
  cases List.mem_singleton.mp (Multiset.mem_coe.mp member)
  cases taken

end Wan.Web.Server
