import Wan.Web.Server.DrainTimer

/-!
# The end of the server

`MaybeFinishGracefulStop` decides to stop the executor only when the server is drained.  The
party that drains the server last, or that lets go of the drain timer last, looks again: as
long as the executor of a drained server is not stopped, some party leads to that.
-/

namespace Wan.Web.Server

open Wan.Library

/-- `MaybeFinishGracefulStop` has decided to stop the executor. -/
def Party.decided : Party → Bool
  | .maybeFinish _ .stop => true
  | _ => false

/-- The party leads to a look at a drained server, or stops the executor. -/
def Party.Leads (party : Party) : Prop :=
  party.checks = true ∨ 0 < party.drains ∨ party.decided = true

/-- No party can take a turn, and no timer is waited for. -/
def Quiescent (settings : Settings) (pool : Pool State Party) : Prop :=
  (∀ later, ¬(system settings).Turns (fun _ _ _ => True) pool later) ∧
    pool.shared.wait ≠ .waiting

variable {settings : Settings} {condition : State → Party → Outcome → Prop}
  {state later : State} {acting left : List Party}

/-- What a change leaves behind when the server is drained after it. -/
inductive LeadChange (state : State) (acting : List Party) (later : State)
    (left : List Party) : Prop where
  | stopped (stopped : later.executorStopped = true) : LeadChange state acting later left
  | timer (active : later.drainTimerActive = true) : LeadChange state acting later left
  | leads (leads : ∃ party ∈ left, party.Leads) : LeadChange state acting later left
  | idle (drained : state.isDrained = true) (idle : ∀ party ∈ acting, ¬party.Leads) :
      LeadChange state acting later left

theorem LeadChange.head {party : Party} {others : List Party} (leads : party.Leads) :
    LeadChange state acting later (party :: others) := .leads ⟨party, List.mem_cons_self, leads⟩

theorem not_leads_iff {party : Party} : ¬party.Leads ↔
    party.checks = false ∧ party.drains = 0 ∧ party.decided = false := by
  simp [Party.Leads]

/-- A connection that gives its slot back looks at the state afterwards. -/
theorem connectionTurn_checks {slot : Nat} {id : UInt64} {stage : ConnectionStage}
    {outcome : Outcome} (free : held left = [])
    (taken : connectionTurn settings state slot id stage outcome = (later, left)) :
    ∃ party ∈ left, party.checks = true := by
  cases stage with
  | release =>
      cases taken
      exact ⟨_, List.mem_singleton_self _, rfl⟩
  | _ =>
      cases outcome <;> simp only [connectionTurn] at taken <;> try split at taken
      all_goals
        cases taken
        cases free

/-- A call of `ForceStop` looks at the state in the end. -/
theorem forceStopTurn_checks {resume : Resume} {stage : StopStage} (started : state.started = true)
    (taken : forceStopTurn state resume stage = (later, left)) :
    ∃ party ∈ left, party.checks = true := by
  unfold forceStopTurn at taken
  split at taken
  case h_1 =>
    rw [started] at taken
    cases taken
    exact ⟨_, List.mem_singleton_self _, rfl⟩
  case h_3 task tasks =>
    cases taken
    exact ⟨_, List.mem_cons_of_mem _ List.mem_cons_self, rfl⟩
  all_goals
    cases taken
    exact ⟨_, List.mem_singleton_self _, rfl⟩

theorem LeadChange.of_checks (checks : ∃ party ∈ left, party.checks = true) :
    LeadChange state acting later left := by
  rcases checks with ⟨party, member, checks⟩
  exact .leads ⟨party, member, .inl checks⟩

theorem maybeFinishTurn_leads {resume : Resume} {stage : FinishStage}
    (drained : later.isDrained = true)
    (taken : maybeFinishTurn state resume stage = (later, left)) :
    LeadChange state [.maybeFinish resume stage] later left := by
  cases stage with
  | check =>
      simp only [maybeFinishTurn] at taken
      split at taken
      next active =>
        cases taken
        rw [Bool.and_eq_true] at active
        exact .timer active.2
      next =>
        split at taken
        next =>
          cases taken
          exact .head (.inr (.inr rfl))
        next undrained =>
          cases taken
          exact absurd drained undrained
  | cancel timer =>
      cases taken
      cases resume with
      | finished | rethrow =>
          apply LeadChange.idle drained
          intro party member
          cases List.mem_singleton.mp member
          exact not_leads_iff.mpr ⟨rfl, rfl, rfl⟩
      | completeDrainTimer | forceStop =>
          exact .leads ⟨_, List.mem_append_right _ List.mem_cons_self, .inl rfl⟩
  | stop =>
      cases taken
      exact .stopped rfl

theorem beginGracefulStopTurn_leads {stage : GracefulStage} {outcome : Outcome}
    (drained : later.isDrained = true)
    (taken : beginGracefulStopTurn state stage outcome = (later, left)) :
    LeadChange state [.beginGracefulStop stage] later left := by
  have idle : ∀ party ∈ [Party.beginGracefulStop .check, .beginGracefulStop .lock],
      ¬party.Leads := by
    simp [not_leads_iff, Party.checks, Party.drains, Party.decided]
  cases stage with
  | check =>
      simp only [beginGracefulStopTurn] at taken
      split at taken
      all_goals
        cases taken
        exact .idle drained (List.forall_mem_singleton.mpr (idle _ (by simp)))
  | lock =>
      simp only [beginGracefulStopTurn] at taken
      split at taken
      next =>
        cases taken
        exact .idle drained (List.forall_mem_singleton.mpr (idle _ (by simp)))
      next =>
        cases taken
        cases connections : decide (0 < state.activeConnections) with
        | false => exact .head (.inl rfl)
        | true => exact .head (.inr (.inl Nat.one_pos))
  | closeAcceptor acceptor scheduleDrainTimer =>
      cases taken
      cases scheduleDrainTimer with
      | false => exact .leads ⟨_, List.mem_append_right _ List.mem_cons_self, .inl rfl⟩
      | true =>
          exact .leads ⟨_, List.mem_append_right _ List.mem_cons_self, .inr (.inl Nat.one_pos)⟩
  | spawn =>
      cases outcome
      all_goals
        cases taken
        exact .head (.inr (.inl (by simp [Party.drains, Resume.drains])))

theorem drainTurn_leads {stage : DrainStage} {outcome : Outcome}
    (taken : drainTurn state stage outcome = some (later, left)) :
    LeadChange state [.drain stage] later left := by
  unfold drainTurn at taken
  split at taken
  all_goals try split at taken
  all_goals
    cases taken
    try exact .head (.inr (.inl (by simp [Party.drains, Resume.drains])))

theorem taskTurn_leads {task : Task} (drained : later.isDrained = true)
    (taken : taskTurn state task = some (later, left)) :
    LeadChange state [.task task] later left := by
  have idle : ∀ party ∈ [Party.task task], ¬party.Leads := by
    simp [not_leads_iff, Party.checks, Party.drains, Party.decided]
  unfold taskTurn at taken
  split at taken
  all_goals try split at taken
  all_goals
    cases taken
    try exact .idle drained idle

/-- The accept loop, a connection and a call of `ForceStop` whose turn leaves the server
drained look at it afterwards. -/
theorem turn_checks {party : Party} {outcome : Outcome} {others : Multiset Party}
    (taken : turn settings state party outcome = some (later, left))
    (sound : Sound settings later (left + others)) (drained : later.isDrained = true) :
    match party with
    | .run _ | .connection _ _ _ | .forceStop _ _ => ∃ party ∈ left, party.checks = true
    | _ => True := by
  rcases State.isDrained_iff.mp drained with ⟨stopping, complete, inactive⟩
  have noRun := sound.runs_eq_zero complete
  cases party with
  | run stage =>
      cases (runTurn_turned taken).lifecycle with
      | start before after incomplete none => cases none
      | quiet kept same loops =>
          rw [noRun] at loops
          cases loops
      | complete kept finished one none checks => exact checks
  | connection slot id stage =>
      exact connectionTurn_checks (sound.held_eq_nil inactive) (Option.some.inj taken)
  | forceStop resume stage =>
      have before : state.started = true := by
        cases (forceStopTurn_turned (Option.some.inj taken)).lifecycle with
        | start _ _ _ _ one =>
            rw [noRun] at one
            cases one
        | quiet kept => exact kept.started.symm.trans (sound.started complete)
        | complete _ _ one => cases one
      exact forceStopTurn_checks before (Option.some.inj taken)
  | _ => trivial

/-- A change after which the server is drained leaves a party that leads to the stop, if it
is one of that party or the one that drained the server. -/
theorem change_leads {others : Multiset Party}
    (change : (system settings).Change condition state acting later left)
    (sound : Sound settings later (left + others)) (drained : later.isDrained = true) :
    LeadChange state acting later left := by
  cases change with
  | turn party outcome allowed taken =>
      have checks := turn_checks taken sound drained
      cases party with
      | run stage | connection slot id stage | forceStop resume stage => exact .of_checks checks
      | maybeFinish resume stage => exact maybeFinishTurn_leads drained (Option.some.inj taken)
      | beginGracefulStop stage =>
          exact beginGracefulStopTurn_leads drained (Option.some.inj taken)
      | completeDrainTimer resume =>
          cases taken
          exact .head (.inl rfl)
      | drain stage => exact drainTurn_leads taken
      | recordWorkerFailure =>
          cases taken
          exact .stopped rfl
      | task task => exact taskTurn_leads drained taken
  | outside call taken =>
      cases call with
      | start =>
          change outside settings state .start = _ at taken
          simp only [outside] at taken
          split at taken <;> cases taken
          cases (State.isDrained_iff.mp drained).1
      | forceStop =>
          cases taken
          exact .head (.inl rfl)
      | beginGracefulStop | deadline =>
          cases taken
          exact .idle drained (List.forall_mem_nil _)

/-- What holds of the stop in every state that is reached: it is decided in a drained state,
and what leads to it is under way once the server is drained. -/
structure Owed (state : State) (parties : Multiset Party) : Prop where
  decided : ∀ party ∈ parties, party.decided = true → state.isDrained = true
  leads : state.isDrained = true → state.executorStopped = true ∨ ∃ party ∈ parties, party.Leads

theorem undecided_rest {resume : Resume} : ∀ party ∈ resume.rest, party.decided = false := by
  cases resume <;> simp [Resume.rest, Party.decided]

theorem runTurn_undecided {stage : RunStage} {outcome : Outcome}
    (taken : runTurn settings state stage outcome = some (later, left)) :
    ∀ party ∈ left, party.decided = false := by
  cases stage with
  | acquire current | register slot =>
      simp only [runTurn] at taken
      split at taken
      all_goals try split at taken
      all_goals
        cases taken
        simp [Party.decided]
  | _ =>
      cases outcome <;> simp only [runTurn] at taken <;> try split at taken
      all_goals
        cases taken
        try simp [Party.decided]

theorem connectionTurn_undecided {slot : Nat} {id : UInt64} {stage : ConnectionStage}
    {outcome : Outcome}
    (taken : connectionTurn settings state slot id stage outcome = (later, left)) :
    ∀ party ∈ left, party.decided = false := by
  cases stage <;> cases outcome <;> simp only [connectionTurn] at taken <;> try split at taken
  all_goals
    cases taken
    simp [Party.decided]

theorem forceStopTurn_undecided {resume : Resume} {stage : StopStage}
    (taken : forceStopTurn state resume stage = (later, left)) :
    ∀ party ∈ left, party.decided = false := by
  unfold forceStopTurn at taken
  split at taken
  case h_1 =>
    split at taken <;> cases taken
    · exact undecided_rest
    · simp [Party.decided]
  all_goals
    cases taken
    simp [Party.decided]

/-- Only a look at a drained server decides to stop the executor. -/
theorem maybeFinishTurn_decided {resume : Resume} {stage : FinishStage}
    (taken : maybeFinishTurn state resume stage = (later, left)) :
    ∀ party ∈ left, party.decided = true → later.isDrained = true := by
  have rest : ∀ party ∈ resume.rest, party.decided = true → later.isDrained = true := by
    intro party member decided
    rw [undecided_rest party member] at decided
    cases decided
  cases stage with
  | check =>
      simp only [maybeFinishTurn] at taken
      split at taken
      next =>
        cases taken
        simp [Party.decided]
      next =>
        split at taken
        next drained =>
          cases taken
          exact fun _ _ _ => drained
        next =>
          cases taken
          exact rest
  | cancel timer =>
      cases taken
      rw [List.forall_mem_append]
      exact ⟨by simp [Party.decided], rest⟩
  | stop =>
      cases taken
      exact rest

theorem beginGracefulStopTurn_undecided {stage : GracefulStage} {outcome : Outcome}
    (taken : beginGracefulStopTurn state stage outcome = (later, left)) :
    ∀ party ∈ left, party.decided = false := by
  cases stage with
  | closeAcceptor acceptor scheduleDrainTimer =>
      cases taken
      cases scheduleDrainTimer <;> simp [Party.decided, or_imp, forall_and]
  | check | lock =>
      simp only [beginGracefulStopTurn] at taken
      split at taken
      all_goals
        cases taken
        simp [Party.decided]
  | spawn =>
      cases outcome
      all_goals
        cases taken
        simp [Party.decided]

theorem drainTurn_undecided {stage : DrainStage} {outcome : Outcome}
    (taken : drainTurn state stage outcome = some (later, left)) :
    ∀ party ∈ left, party.decided = false := by
  unfold drainTurn at taken
  split at taken
  all_goals try split at taken
  all_goals
    cases taken
    try simp [Party.decided]

theorem taskTurn_undecided {task : Task} (taken : taskTurn state task = some (later, left)) :
    ∀ party ∈ left, party.decided = false := by
  unfold taskTurn at taken
  split at taken
  all_goals try split at taken
  all_goals
    cases taken
    try simp

theorem change_decided (change : (system settings).Change condition state acting later left) :
    ∀ party ∈ left, party.decided = true → later.isDrained = true := by
  have none (undecided : ∀ party ∈ left, party.decided = false) :
      ∀ party ∈ left, party.decided = true → later.isDrained = true := by
    intro party member decided
    rw [undecided party member] at decided
    cases decided
  cases change with
  | turn party outcome allowed taken =>
      cases party with
      | run stage => exact none (runTurn_undecided taken)
      | connection slot id stage => exact none (connectionTurn_undecided (Option.some.inj taken))
      | forceStop resume stage => exact none (forceStopTurn_undecided (Option.some.inj taken))
      | maybeFinish resume stage => exact maybeFinishTurn_decided (Option.some.inj taken)
      | beginGracefulStop stage =>
          exact none (beginGracefulStopTurn_undecided (Option.some.inj taken))
      | completeDrainTimer resume =>
          cases taken
          exact none (by simp [Party.decided])
      | drain stage => exact none (drainTurn_undecided taken)
      | recordWorkerFailure =>
          cases taken
          exact none (by simp)
      | task task => exact none (taskTurn_undecided taken)
  | outside call taken =>
      apply none
      cases call with
      | start =>
          change outside settings state .start = _ at taken
          simp only [outside] at taken
          split at taken <;> cases taken
          simp [Party.decided]
      | forceStop | beginGracefulStop | deadline =>
          cases taken
          simp [Party.decided]

/-- What is known of a state that is reached. -/
structure Known (settings : Settings) (state : State) (parties : Multiset Party) : Prop where
  sound : Sound settings state parties
  draining : Draining state parties

theorem known_of_reachable {pool : Pool State Party}
    (reachable : (system settings).Reachable initial pool) :
    Known settings pool.shared pool.parties :=
  ⟨sound_of_reachable reachable, draining_of_reachable reachable⟩

/-- An active drain timer has a party that leads to a look. -/
theorem Draining.leads {parties : Multiset Party} (draining : Draining state parties)
    (active : state.drainTimerActive = true) : ∃ party ∈ parties, party.Leads := by
  have some : 0 < drainsOf parties := by
    rw [draining.counted, active]
    exact Nat.one_pos
  rcases exists_drains some with ⟨party, member, drains⟩
  exact ⟨party, member, .inr (.inl drains)⟩

theorem Owed.change {others : Multiset Party} (owed : Owed state (acting + others))
    (change : (system settings).Change condition state acting later left)
    (before : Known settings state (acting + others))
    (after : Known settings later (left + others)) : Owed later (left + others) := by
  constructor
  · intro party member decided
    rcases Multiset.mem_add.mp member with inLeft | inOthers
    · exact change_decided change party (Multiset.mem_coe.mp inLeft) decided
    · have drained := owed.decided party (Multiset.mem_add.mpr (.inr inOthers)) decided
      exact before.sound.isDrained_of_change drained change
  · intro drained
    cases change_leads change after.sound drained with
    | stopped stopped => exact .inl stopped
    | timer active => exact .inr (after.draining.leads active)
    | leads leads =>
        rcases leads with ⟨party, member, leads⟩
        exact .inr ⟨party, Multiset.mem_add.mpr (.inl (Multiset.mem_coe.mpr member)), leads⟩
    | idle drainedBefore idle =>
        rcases owed.leads drainedBefore with stopped | ⟨party, member, leads⟩
        · left
          cases change_lifecycle change with
          | start _ _ _ _ _ same => rw [same, stopped]
          | quiet kept | complete kept => exact kept.stopped stopped
        · rcases Multiset.mem_add.mp member with inActing | inOthers
          · exact absurd leads (idle party (Multiset.mem_coe.mp inActing))
          · exact .inr ⟨party, Multiset.mem_add.mpr (.inr inOthers), leads⟩

theorem owed_of_reachable {pool : Pool State Party}
    (reachable : (system settings).Reachable initial pool) : Owed pool.shared pool.parties := by
  apply reachable.invariant (Known settings) Owed fun _ reached => known_of_reachable reached
  · exact ⟨nofun, nofun⟩
  · intro state later acting left others change before after owed
    exact owed.change change before after

/-- What leads to the stop can take a turn, unless it waits for the drain timer. -/
theorem able_of_leads (settings : Settings) {party : Party} (leads : party.Leads)
    (fits : party.Fits state.wait) :
    (state.wait = .waiting ∧ party = .drain .resume) ∨
      (turn settings state party .done).isSome := by
  cases party with
  | forceStop resume stage | maybeFinish resume stage | completeDrainTimer resume
  | beginGracefulStop stage => exact .inr rfl
  | drain stage =>
      cases stage with
      | begin =>
          right
          cases forced : state.forceStopRequested <;> simp [turn, drainTurn, forced]
      | wait => exact .inr rfl
      | resume =>
          rcases fits with waiting | ended | ended
          · exact .inl ⟨waiting, rfl⟩
          all_goals exact .inr (by simp [turn, drainTurn, ended])
      | decide ec =>
          right
          simp only [turn, drainTurn]
          split <;> rfl
  | run stage | connection slot id stage | recordWorkerFailure | task task =>
      exact absurd leads (not_leads_iff.mpr ⟨rfl, rfl, rfl⟩)

/-- Once a server is drained, it is drained in all that follows. -/
theorem stays_drained {pool later : Pool State Party}
    (reachable : (system settings).Reachable initial pool) (drained : pool.shared.isDrained = true)
    (continued : (system settings).Reachable pool later) : later.shared.isDrained = true := by
  induction continued with
  | start => exact drained
  | step earlier meets taken ih =>
      have sound := sound_of_reachable (reachable.trans earlier)
      rcases System.step_cases meets taken with ⟨acting, left, others, before, change, -⟩
      rw [before] at sound
      exact sound.isDrained_of_change ih change

/-- A turn of `MaybeFinishGracefulStop` that stops the executor is the one it has decided on. -/
theorem decided_of_stopped {resume : Resume} {stage : FinishStage} {left : List Party}
    (turned : MaybeFinishTurned state resume stage later left)
    (running : state.executorStopped = false) (stopped : later.executorStopped = true) :
    (Party.maybeFinish resume stage).decided = true := by
  cases turned with
  | stop => rfl
  | wake | decide | pass | cancel =>
      rw [running] at stopped
      cases stopped

/-- In every run, `MaybeFinishGracefulStop` stops the executor, and decides to do so, only when
the server is drained, and from then on it is drained; and a drained server on which nothing is
left to happen has been stopped. -/
theorem stops_when_drained {pool : Pool State Party}
    (reachable : (system settings).Reachable initial pool) :
    (∀ party ∈ pool.parties, party.decided = true →
        ∀ later, (system settings).Reachable pool later → later.shared.isDrained = true) ∧
      (∀ index outcome resume stage later,
        pool.parties[index]? = some (.maybeFinish resume stage) →
        (system settings).step pool (.turn index outcome) = some later →
        pool.shared.executorStopped = false → later.shared.executorStopped = true →
          (pool.shared.stopping = true ∧ pool.shared.runComplete = true ∧
            pool.shared.activeConnections = 0) ∧
          ∀ last, (system settings).Reachable later last →
            last.shared.activeConnections = 0) ∧
      (pool.shared.isDrained = true → Quiescent settings pool →
        pool.shared.executorStopped = true) := by
  have owed := owed_of_reachable reachable
  have decides : ∀ party ∈ pool.parties, party.decided = true →
      ∀ later, (system settings).Reachable pool later → later.shared.isDrained = true := by
    intro party member decided later continued
    exact stays_drained reachable (owed.decided party (Multiset.mem_coe.mpr member) decided)
      continued
  refine ⟨decides, ?_, ?_⟩
  · intro index outcome resume stage later found taken running stopped
    rcases System.turn_cases found taken with ⟨left, -, -, turned, -⟩
    have decided := decided_of_stopped (maybeFinishTurn_turned (Option.some.inj turned)) running
      stopped
    have drained := decides _ (List.mem_of_getElem? found) decided
    have now := drained pool .start
    simp only [State.isDrained, Bool.and_eq_true, beq_iff_eq] at now drained
    refine ⟨⟨now.1.1, now.1.2, now.2⟩, fun last continued => ?_⟩
    have first : (system settings).Reachable pool later := .step .start (System.meets_true _) taken
    exact (drained last (first.trans continued)).2
  · rintro drained ⟨silent, unwaited⟩
    rcases owed.leads drained with stopped | ⟨party, member, leads⟩
    · exact stopped
    · have fits := (draining_of_reachable reachable).fits party member
      rcases able_of_leads settings leads fits with ⟨waiting, -⟩ | able
      · exact absurd waiting unwaited
      · have possible : ((system settings).turn pool.shared party .done).isSome := able
        have turned : ∃ next, (system settings).Turns (fun _ _ _ => True) pool next :=
          System.exists_turns (Multiset.mem_coe.mp member) trivial possible
        exact absurd turned (not_exists.mpr silent)

/-- A forced stop while the first connection is served, the end of the connection, and that of the
accept loop up to its decision. -/
def stopServed : List (Event Outcome Call) :=
  acceptOne ++ .outside .forceStop :: List.replicate 8 (.turn 2 .done) ++
    [.turn 1 .done, .turn 1 .failed] ++ List.replicate 4 (.turn 1 .done) ++ [.turn 0 .aborted] ++
    List.replicate 3 (.turn 0 .done)

theorem stops_when_drained_example :
    ∃ pool later, stopServed.foldlM (system {}).step initial = some pool ∧
      pool.parties = [.maybeFinish .finished .stop] ∧
      (system {}).step pool (.turn 0 .done) = some later ∧
      (∀ last, (system {}).Reachable later last → last.shared.activeConnections = 0) ∧
      later.shared.executorStopped = true := by
  let deciding : Pool State Party :=
    { shared :=
        { serving.shared with
          stopping := true, runComplete := true, forceStopRequested := true, acceptor := false
          activeConnections := 0, registry := ⟨[], 2⟩, listening := false, dispatched := [1]
          swept := true, released := [0] }
      parties := [.maybeFinish .finished .stop] }
  let stopped : Pool State Party :=
    ⟨{ deciding.shared with executorStopped := true }, []⟩
  have run : stopServed.foldlM (system {}).step initial = some deciding := by decide +kernel
  have reachable : (system {}).Reachable initial deciding := System.reaches_of_run run
  have last : (system {}).step deciding (.turn 0 .done) = some stopped := rfl
  refine ⟨deciding, stopped, run, rfl, last, ?_, ?_⟩
  · exact ((stops_when_drained reachable).2.1 0 .done .finished .stop stopped rfl last rfl rfl).2
  · apply (stops_when_drained (.step reachable (System.meets_true _) last)).2.2 rfl ⟨?_, nofun⟩
    exact fun later => System.not_turns_of_nil rfl

end Wan.Web.Server
