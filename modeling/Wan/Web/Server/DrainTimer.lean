import Mathlib.Algebra.BigOperators.Group.Multiset.Basic
import Wan.Web.Server.Lifecycle

/-!
# The drain timer

`MemberDrainTimerActive` is set exactly as long as one party has the section of
`CompleteDrainTimer` ahead.  Up to that section the state of the wait tells where the drain
coroutine is.
-/

namespace Wan.Web.Server

open Wan.Library

/-- How many sections of `CompleteDrainTimer` the caller has ahead. -/
def Resume.drains : Resume → Nat
  | .completeDrainTimer => 1
  | _ => 0

/-- How many sections of `CompleteDrainTimer` a party has ahead. -/
def Party.drains : Party → Nat
  | .beginGracefulStop (.closeAcceptor _ scheduleDrainTimer) => scheduleDrainTimer.toNat
  | .beginGracefulStop .spawn => 1
  | .drain _ => 1
  | .completeDrainTimer resume => 1 + resume.drains
  | .forceStop resume _ => resume.drains
  | .maybeFinish resume _ => resume.drains
  | _ => 0

/-- How many sections of `CompleteDrainTimer` are ahead. -/
def drains (parties : List Party) : Nat := (parties.map Party.drains).sum

@[simp] theorem drains_nil : drains [] = 0 := rfl

@[simp] theorem drains_singleton (party : Party) : drains [party] = party.drains := by
  simp [drains]

@[simp] theorem drains_append (front back : List Party) :
    drains (front ++ back) = drains front + drains back := by
  simp [drains]

@[simp] theorem drains_tasks (tasks : List Task) : drains (tasks.map .task) = 0 := by
  simp [drains, Function.comp_def, Party.drains]

@[simp] theorem drains_rest (resume : Resume) : drains resume.rest = resume.drains := by
  cases resume <;> rfl

/-- Where the drain coroutine is, the wait has come as far as it should. -/
def Party.Fits (wait : DrainWait) : Party → Prop
  | .beginGracefulStop (.closeAcceptor _ scheduleDrainTimer) =>
      scheduleDrainTimer = true → wait = .notStarted
  | .beginGracefulStop .spawn => wait = .notStarted
  | .drain .begin => wait = .notStarted
  | .drain .wait => wait = .entering
  | .drain .resume => wait = .waiting ∨ wait = .cancelled ∨ wait = .expired
  | .drain (.decide _) => wait = .passed
  | _ => True

theorem fits_rest {resume : Resume} {wait : DrainWait} :
    ∀ party ∈ resume.rest, party.Fits wait := by
  cases resume <;> simp [Resume.rest, Party.Fits]

/-- What a change does to the drain timer. -/
inductive TimerChange (state : State) (acting : List Party) (later : State)
    (left : List Party) : Prop where
  | start (before : state.started = false) (after : later.drainTimerActive = false)
      (none : drains left = 0) :
      TimerChange state acting later left
  | quiet (active : later.drainTimerActive = state.drainTimerActive)
      (timer : later.drainTimer = state.drainTimer) (same : drains left = drains acting) :
      TimerChange state acting later left
  | schedule (before : state.stopping = false) (started : later.started = true)
      (stopping : later.stopping = true) (active : later.drainTimerActive = true)
      (timer : later.drainTimer = true) (connections : 0 < later.activeConnections)
      (none : drains acting = 0) (one : drains left = 1) :
      TimerChange state acting later left
  | complete (inactive : later.drainTimerActive = false)
      (one : drains acting = drains left + 1) :
      TimerChange state acting later left

/-- What a change does to the wait. -/
structure WaitChange (state : State) (acting : List Party) (later : State)
    (left : List Party) : Prop where
  fits : (∀ party ∈ acting, party.Fits state.wait) →
    (state.stopping = false → state.wait = .notStarted) → ∀ party ∈ left, party.Fits later.wait
  wait : later.wait = state.wait ∨ (∃ stage, acting = [.drain stage]) ∨
    state.wait = .waiting ∧ (later.wait = .cancelled ∨ later.wait = .expired)

variable {settings : Settings} {condition : State → Party → Outcome → Prop}
  {state later : State} {acting left : List Party}

/-- A turn that is none of the drain timer's. -/
theorem drain_quiet (active : later.drainTimerActive = state.drainTimerActive)
    (timer : later.drainTimer = state.drainTimer) (same : drains left = drains acting)
    (wait : later.wait = state.wait) (fits : ∀ party ∈ left, party.Fits later.wait) :
    TimerChange state acting later left ∧ WaitChange state acting later left :=
  ⟨.quiet active timer same, fun _ _ => fits, .inl wait⟩

theorem RunTurned.drain {stage : RunStage} {outcome : Outcome}
    (turned : RunTurned settings state stage outcome later left) :
    TimerChange state [.run stage] later left ∧ WaitChange state [.run stage] later left := by
  cases turned
  all_goals exact drain_quiet rfl rfl rfl rfl (by simp [Party.Fits])

theorem ConnectionTurned.drain {slot : Nat} {id : UInt64} {stage : ConnectionStage}
    (turned : ConnectionTurned state slot id stage later left) :
    TimerChange state [.connection slot id stage] later left ∧
      WaitChange state [.connection slot id stage] later left := by
  cases turned
  all_goals exact drain_quiet rfl rfl rfl rfl (by simp [Party.Fits])

theorem ForceStopTurned.drain {resume : Resume} {stage : StopStage}
    (turned : ForceStopTurned state resume stage later left) :
    TimerChange state [.forceStop resume stage] later left ∧
      WaitChange state [.forceStop resume stage] later left := by
  cases turned with
  | unstarted => exact drain_quiet rfl rfl (by simp [Party.drains]) rfl fits_rest
  | lock | dispatched | sweep | swept | close =>
      exact drain_quiet rfl rfl rfl rfl (by simp [Party.Fits])
  | dispatch =>
      exact drain_quiet rfl rfl (by simp [drains, Party.drains]) rfl (by simp [Party.Fits])

theorem MaybeFinishTurned.drain {resume : Resume} {stage : FinishStage}
    (turned : MaybeFinishTurned state resume stage later left) :
    TimerChange state [.maybeFinish resume stage] later left ∧
      WaitChange state [.maybeFinish resume stage] later left := by
  have restDrains : drains resume.rest = drains [.maybeFinish resume stage] := by
    simp [Party.drains]
  cases turned with
  | wake | decide => exact drain_quiet rfl rfl rfl rfl (by simp [Party.Fits])
  | pass | stop => exact drain_quiet rfl rfl restDrains rfl fits_rest
  | cancel timer =>
      apply drain_quiet rfl rfl _ rfl
      · rw [List.forall_mem_append]
        exact ⟨by simp [Party.Fits], fits_rest⟩
      · rw [drains_append, drains_tasks, Nat.zero_add, restDrains]

/-- `BeginGracefulStop` makes the timer active if there are connections. -/
theorem GracefulTurned.timer {stage : GracefulStage}
    (turned : GracefulTurned state stage later left) :
    TimerChange state [.beginGracefulStop stage] later left := by
  cases turned with
  | refused early =>
      refine .quiet rfl rfl ?_
      rcases early with rfl | rfl <;> rfl
  | lock started running =>
      by_cases connections : 0 < state.activeConnections
      · exact .schedule running started rfl (by simp [connections]) (by simp [connections])
          connections rfl (by simp [Party.drains, connections])
      · exact .quiet (by simp [connections]) (by simp [connections])
          (by simp [Party.drains, connections])
  | finish acceptor | schedule acceptor =>
      apply TimerChange.quiet rfl rfl
      rw [drains_append, drains_tasks]
      rfl
  | checked | unspawned | spawned => exact .quiet rfl rfl rfl

/-- The drain coroutine is spawned before the wait. -/
theorem GracefulTurned.wait {stage : GracefulStage}
    (turned : GracefulTurned state stage later left) :
    WaitChange state [.beginGracefulStop stage] later left := by
  cases turned with
  | refused | checked | unspawned => exact ⟨fun _ _ => by simp [Party.Fits], .inl rfl⟩
  | lock started running =>
      refine ⟨?_, .inl rfl⟩
      intro _ early
      exact List.forall_mem_singleton.mpr fun _ => early running
  | finish acceptor => exact ⟨fun _ _ => by simp [Party.Fits, or_imp, forall_and], .inl rfl⟩
  | schedule acceptor =>
      refine ⟨?_, .inl rfl⟩
      intro fits _
      rw [List.forall_mem_append]
      refine ⟨by simp [Party.Fits], ?_⟩
      exact List.forall_mem_singleton.mpr (List.forall_mem_singleton.mp fits rfl)
  | spawned =>
      refine ⟨?_, .inl rfl⟩
      intro fits _
      have early : state.wait = .notStarted := fits _ (List.mem_singleton_self _)
      simpa [Party.Fits] using early

theorem DrainTurned.drain {stage : DrainStage} (turned : DrainTurned state stage later left) :
    TimerChange state [.drain stage] later left ∧ WaitChange state [.drain stage] later left := by
  cases turned with
  | forced | enter | fail | resume =>
      exact ⟨.quiet rfl rfl rfl, fun _ _ => by simp [Party.Fits], .inr (.inl ⟨_, rfl⟩)⟩
  | wait =>
      refine ⟨.quiet rfl rfl rfl, ?_, .inr (.inl ⟨_, rfl⟩)⟩
      intro _ _
      cases state.deadlinePassed <;> simp [Party.Fits]
  | expire | finish => exact drain_quiet rfl rfl rfl rfl (by simp [Party.Fits])

theorem TaskTurned.drain {task : Task} (turned : TaskTurned state task later left) :
    TimerChange state [.task task] later left ∧ WaitChange state [.task task] later left := by
  cases turned with
  | wake waiting => exact ⟨.quiet rfl rfl rfl, fun _ _ => by simp, .inr (.inr ⟨waiting, .inl rfl⟩)⟩
  | miss | close => exact drain_quiet rfl rfl rfl rfl (by simp)

theorem OutsideTurned.drain {call : Call} (turned : OutsideTurned state call later left) :
    TimerChange state [] later left ∧ WaitChange state [] later left := by
  cases turned with
  | start unstarted =>
      exact ⟨.start unstarted rfl rfl, fun _ _ => by simp [Party.Fits], .inl rfl⟩
  | forceStop | beginGracefulStop => exact drain_quiet rfl rfl rfl rfl (by simp [Party.Fits])
  | deadline =>
      refine ⟨.quiet rfl rfl rfl, fun _ _ => by simp, ?_⟩
      by_cases waiting : state.wait = .waiting
      · exact .inr (.inr ⟨waiting, .inr (by simp [waiting])⟩)
      · exact .inl (by simp [waiting])

/-- What every change does to the drain timer and to the wait. -/
theorem change_drain (change : (system settings).Change condition state acting later left) :
    TimerChange state acting later left ∧ WaitChange state acting later left := by
  cases change with
  | turn party outcome allowed taken =>
      cases party with
      | run stage => exact (runTurn_turned taken).drain
      | connection slot id stage => exact (connectionTurn_turned (Option.some.inj taken)).drain
      | forceStop resume stage => exact (forceStopTurn_turned (Option.some.inj taken)).drain
      | maybeFinish resume stage => exact (maybeFinishTurn_turned (Option.some.inj taken)).drain
      | beginGracefulStop stage =>
          have turned := beginGracefulStopTurn_turned (Option.some.inj taken)
          exact ⟨turned.timer, turned.wait⟩
      | completeDrainTimer resume =>
          cases taken
          refine ⟨.complete rfl ?_, fun _ _ => by simp [Party.Fits], .inl rfl⟩
          simp [Party.drains, Nat.add_comm]
      | drain stage => exact (drainTurn_turned taken).drain
      | recordWorkerFailure =>
          cases taken
          exact drain_quiet rfl rfl rfl rfl (by simp)
      | task task => exact (taskTurn_turned taken).drain
  | outside call taken => exact (outside_turned taken).drain

/-- How many sections of `CompleteDrainTimer` a multiset of parties has ahead. -/
def drainsOf (parties : Multiset Party) : Nat := (parties.map Party.drains).sum

theorem drainsOf_coe (parties : List Party) : drainsOf parties = drains parties := by
  rw [drainsOf, Multiset.map_coe, Multiset.sum_coe, drains]

theorem drainsOf_add (front back : Multiset Party) :
    drainsOf (front + back) = drainsOf front + drainsOf back := by
  rw [drainsOf, Multiset.map_add, Multiset.sum_add]
  rfl

theorem drains_le_drainsOf {parties : Multiset Party} {party : Party} (member : party ∈ parties) :
    party.drains ≤ drainsOf parties := by
  rcases Multiset.exists_cons_of_mem member with ⟨others, rfl⟩
  rw [drainsOf, Multiset.map_cons, Multiset.sum_cons]
  exact Nat.le_add_right ..

theorem exists_drains {parties : Multiset Party} (some : 0 < drainsOf parties) :
    ∃ party ∈ parties, 0 < party.drains := by
  by_contra none
  push Not at none
  have zero : parties.map Party.drains = parties.map fun _ => 0 :=
    Multiset.map_congr rfl fun party member => Nat.le_zero.mp (none party member)
  rw [drainsOf, zero] at some
  simp at some

/-- The drain timer is active as long as its section of `CompleteDrainTimer` is ahead, and
the wait has come as far as its party has. -/
structure Draining (state : State) (parties : Multiset Party) : Prop where
  counted : drainsOf parties = state.drainTimerActive.toNat
  timer : state.drainTimerActive = true → state.drainTimer = true
  stopping : state.drainTimerActive = true → state.stopping = true
  started : state.drainTimerActive = true → state.started = true
  early : state.wait ≠ .notStarted → state.stopping = true ∧ state.started = true
  fits : ∀ party ∈ parties, party.Fits state.wait

theorem fits_of_drains_eq_zero {party : Party} (none : party.drains = 0) (wait : DrainWait) :
    party.Fits wait := by
  cases party with
  | beginGracefulStop stage =>
      cases stage with
      | closeAcceptor acceptor scheduleDrainTimer =>
          cases scheduleDrainTimer with
          | false => exact nofun
          | true => cases none
      | spawn => cases none
      | check | lock => trivial
  | drain stage => cases none
  | _ => trivial

/-- A wait that ends stays where its party is. -/
theorem fits_of_ended {party : Party} {ended : DrainWait} (fits : party.Fits .waiting)
    (after : ended = .cancelled ∨ ended = .expired) : party.Fits ended := by
  cases party with
  | beginGracefulStop stage =>
      cases stage with
      | closeAcceptor acceptor scheduleDrainTimer => exact fun schedule => nomatch fits schedule
      | spawn => cases fits
      | check | lock => trivial
  | drain stage =>
      cases stage with
      | resume => exact .inr after
      | begin | wait | decide ec => cases fits
  | _ => trivial

namespace Draining

variable {others : Multiset Party}

/-- A party that drains is the only one that does. -/
theorem others_eq_zero (draining : Draining state (acting + others))
    (drains_pos : 0 < drains acting) :
    state.drainTimerActive = true ∧ drainsOf others = 0 := by
  have counted := draining.counted
  rw [drainsOf_add, drainsOf_coe] at counted
  have atMostOne := state.drainTimerActive.toNat_le
  constructor
  · apply Bool.toNat_eq_one.mp
    omega
  · omega

/-- Every change keeps the drain timer in step with its party. -/
theorem change (draining : Draining state (acting + others))
    (timer : TimerChange state acting later left)
    (wait : WaitChange state acting later left)
    (lifecycle : LifecycleChange state acting later left) :
    Draining later (left + others) := by
  have stays : state.stopping = true ∧ state.started = true →
      later.stopping = true ∧ later.started = true := by
    rintro ⟨stopping, started⟩
    cases lifecycle with
    | start before =>
        rw [started] at before
        cases before
    | quiet kept | complete kept => exact ⟨kept.stopping stopping, kept.started.trans started⟩
  have before := draining.counted
  rw [drainsOf_add, drainsOf_coe] at before
  have fits : ∀ party ∈ left, party.Fits later.wait := by
    apply wait.fits
    · intro party member
      exact draining.fits party (Multiset.mem_add.mpr (.inl (Multiset.mem_coe.mpr member)))
    · intro running
      by_contra begun
      rw [(draining.early begun).1] at running
      cases running
  have others_fit : ∀ party ∈ others, party.Fits later.wait := by
    intro party member
    have fit := draining.fits party (Multiset.mem_add.mpr (.inr member))
    rcases wait.wait with same | ⟨stage, own⟩ | ⟨waiting, ended⟩
    · rw [same]
      exact fit
    · apply fits_of_drains_eq_zero
      have none := (draining.others_eq_zero (own ▸ Nat.one_pos)).2
      have bound := drains_le_drainsOf member
      omega
    · rw [waiting] at fit
      exact fits_of_ended fit ended
  have early : later.wait ≠ .notStarted → later.stopping = true ∧ later.started = true := by
    intro begun
    apply stays
    rcases wait.wait with same | ⟨stage, own⟩ | ⟨waiting, ended⟩
    · exact draining.early (same ▸ begun)
    · have active := (draining.others_eq_zero (own ▸ Nat.one_pos)).1
      exact ⟨draining.stopping active, draining.started active⟩
    · apply draining.early
      rw [waiting]
      exact nofun
  have all_fit : ∀ party ∈ left + others, party.Fits later.wait := by
    intro party member
    rcases Multiset.mem_add.mp member with inLeft | inOthers
    · exact fits party (Multiset.mem_coe.mp inLeft)
    · exact others_fit party inOthers
  cases timer with
  | start unstarted inactive none =>
      have unset : state.drainTimerActive = false := by
        by_contra set
        rw [draining.started (Bool.not_eq_false _ ▸ set)] at unstarted
        cases unstarted
      refine ⟨?_, ?_, ?_, ?_, early, all_fit⟩
      · rw [unset, Bool.toNat_false] at before
        rw [drainsOf_add, drainsOf_coe, none, inactive, Bool.toNat_false]
        omega
      all_goals
        rw [inactive]
        exact nofun
  | quiet active timer same =>
      refine ⟨?_, ?_, ?_, ?_, early, all_fit⟩
      · rw [drainsOf_add, drainsOf_coe, same, active, before]
      · rw [active, timer]
        exact draining.timer
      · rw [active]
        exact fun set => (stays ⟨draining.stopping set, draining.started set⟩).1
      · rw [active]
        exact fun set => (stays ⟨draining.stopping set, draining.started set⟩).2
  | schedule running started stopping active timer connections none one =>
      have unset : state.drainTimerActive = false := by
        by_contra set
        rw [draining.stopping (Bool.not_eq_false _ ▸ set)] at running
        cases running
      refine ⟨?_, fun _ => timer, fun _ => stopping, fun _ => started, early, all_fit⟩
      rw [none, unset] at before
      rw [drainsOf_add, drainsOf_coe, one, active]
      simp only [Bool.toNat_false] at before
      simp only [Bool.toNat_true]
      omega
  | complete inactive one =>
      refine ⟨?_, ?_, ?_, ?_, early, all_fit⟩
      · have atMostOne := state.drainTimerActive.toNat_le
        rw [drainsOf_add, drainsOf_coe, inactive, Bool.toNat_false]
        omega
      all_goals
        rw [inactive]
        exact nofun

end Draining

/-- In every run the drain timer is in step with its party. -/
theorem draining_of_reachable {pool : Pool State Party}
    (reachable : (system settings).Reachable initial pool) :
    Draining pool.shared pool.parties := by
  apply reachable.invariant (fun _ _ => True) Draining
  · intros
    trivial
  · exact ⟨rfl, nofun, nofun, nofun, fun begun => absurd rfl begun, nofun⟩
  · intro state later acting left others changed _ _ draining
    have drain := change_drain changed
    exact draining.change drain.1 drain.2 (change_lifecycle changed)

end Wan.Web.Server
