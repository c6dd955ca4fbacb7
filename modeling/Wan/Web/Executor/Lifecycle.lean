import Wan.Web.Executor.Turns

/-!
# The lifecycle of an executor

One call of `Run` holds the executor in `Starting` and one call of `Join` holds it in
`Joining`; nobody else leaves these states.  From this follow the order of the states, that
a stop is kept, and that `Run` succeeds once.
-/

namespace Wan.Web.Executor

open Wan.Library

/-- The place in the order `Created`, `Starting`, `Running`, `Stopping`, `Joining`, `Joined`. -/
def Lifecycle.rank : Lifecycle → Nat
  | .created => 0
  | .starting => 1
  | .running => 2
  | .stopping => 3
  | .joining => 4
  | .joined => 5

/-- The parties in the middle of a call agree with the state. -/
structure Consistent (shared : State) (parties : Multiset Party) : Prop where
  starting : holders .starting parties = if shared.state = .starting then 1 else 0
  joining : holders .joining parties = if shared.state = .joining then 1 else 0
  joined : 0 < holders .joined parties → shared.state = .joined
  once : successes parties + holders .starting parties ≤ 1
  before : shared.state = .created → successes parties = 0

section Stop

variable {shared : State}

theorem stop_starting : shared.stop.state = .starting ↔ shared.state = .starting := by
  unfold State.stop
  cases equal : shared.state <;> simp [equal]

theorem stop_joining : shared.stop.state = .joining ↔ shared.state = .joining := by
  unfold State.stop
  cases equal : shared.state <;> simp [equal]

theorem stop_joined : shared.stop.state = .joined ↔ shared.state = .joined := by
  unfold State.stop
  cases equal : shared.state <;> simp [equal]

theorem stop_created : shared.stop.state ≠ .created := by
  unfold State.stop
  cases equal : shared.state <;> simp [equal]

theorem stop_rank : shared.state.rank ≤ shared.stop.state.rank := by
  unfold State.stop
  cases equal : shared.state <;> simp [equal, Lifecycle.rank]

end Stop

section Consistent

variable {shared later : State} {party : Party} {left : List Party} {others : Multiset Party}

/-- A party that goes on in an unchanged state. -/
theorem Consistent.continue (consistent : Consistent shared (↑[party] + others))
    (continues : Continues party left)
    (starting : later.state = .starting ↔ shared.state = .starting)
    (joining : later.state = .joining ↔ shared.state = .joining)
    (joined : later.state = .joined ↔ shared.state = .joined)
    (created : later.state = .created → shared.state = .created) :
    Consistent later (left + others) := by
  rcases consistent with ⟨started, joins, behind, once, before⟩
  constructor
  all_goals simp only [holders_add, successes_add, continues.holders, continues.successes] at *
  · simpa only [starting] using started
  · simpa only [joining] using joins
  · simpa only [joined] using behind
  · exact once
  · exact fun unchanged => before (created unchanged)

theorem Consistent.unchanged (consistent : Consistent shared (↑[party] + others))
    (continues : Continues party left) (same : later.state = shared.state) :
    Consistent later (left + others) := by
  apply consistent.continue continues
  all_goals rw [same]
  exact id

theorem Consistent.state_starting (consistent : Consistent shared (↑[party] + others))
    (pins : party.pins = some .starting) : shared.state = .starting := by
  have count := consistent.starting
  simp only [Multiset.coe_singleton, Multiset.singleton_add, holders_cons, pins, if_true] at count
  by_contra different
  rw [if_neg different] at count
  exact Nat.succ_ne_zero _ count

theorem Consistent.state_joining (consistent : Consistent shared (↑[party] + others))
    (pins : party.pins = some .joining) : shared.state = .joining := by
  have count := consistent.joining
  simp only [Multiset.coe_singleton, Multiset.singleton_add, holders_cons, pins, if_true] at count
  by_contra different
  rw [if_neg different] at count
  exact Nat.succ_ne_zero _ count

theorem Consistent.state_joined (consistent : Consistent shared (↑[party] + others))
    (pins : party.pins = some .joined) : shared.state = .joined := by
  apply consistent.joined
  simp [pins]

theorem Turned.consistent (turned : Turned shared party later left)
    (consistent : Consistent shared (↑[party] + others)) : Consistent later (left + others) := by
  have pinnedStarting := consistent.state_starting
  have pinnedJoining := consistent.state_joining
  have pinnedJoined := consistent.state_joined
  cases turned with
  | goesOn quiet continues => exact consistent.unchanged continues quiet.state
  | restarts => exact consistent.unchanged (.of_pins rfl rfl rfl) rfl
  | stops stops continues =>
      exact consistent.continue continues stop_starting stop_joining stop_joined
        fun created => absurd created stop_created
  | records continues =>
      apply consistent.unchanged continues
      unfold State.record
      split <;> rfl
  | starts created =>
      rcases consistent with ⟨starting, joining, joined, once, before⟩
      simp [Party.pins, Party.succeeded, created] at starting joining joined once before
      constructor <;> simp [Party.pins, Party.succeeded, *]
  | publishes =>
      have state := pinnedStarting rfl
      rcases consistent with ⟨starting, joining, joined, once, before⟩
      simp [Party.pins, Party.succeeded, state] at starting joining joined once before
      constructor <;> cases shared.stopRequested <;> simp [Party.pins, Party.succeeded, *] <;> omega
  | abandons =>
      have state := pinnedStarting rfl
      rcases consistent with ⟨starting, joining, joined, once, before⟩
      simp [Party.pins, Party.succeeded, state] at starting joining joined once before
      constructor <;> simp [Party.pins, Party.succeeded, *]
      omega
  | joins unstarted unjoined alone =>
      rcases consistent with ⟨starting, joining, joined, once, before⟩
      simp [Party.pins, Party.succeeded, unstarted, unjoined, alone] at starting joining joined once
      constructor <;> simp [Party.pins, Party.succeeded, *]
      omega
  | joined =>
      have state := pinnedJoining rfl
      rcases consistent with ⟨starting, joining, joined, once, before⟩
      simp [Party.pins, Party.succeeded, state] at starting joining joined once before
      constructor <;> simp [Party.pins, Party.succeeded, *]
      omega
  | entersJoin state | entersDrain state =>
      rcases consistent with ⟨starting, joining, joined, once, before⟩
      simp [Party.pins, Party.succeeded, state] at starting joining joined once
      constructor <;> simp [Party.pins, Party.succeeded, *]
      omega
  | rethrowsJoin | rethrowsDrain =>
      have state := pinnedJoined rfl
      rcases consistent with ⟨starting, joining, joined, once, before⟩
      simp [Party.pins, Party.succeeded, state] at starting joining joined once before
      constructor <;> simp [Party.pins, Party.succeeded, *]
      omega

/-- A turn never moves the state backwards. -/
theorem Turned.rank_le (turned : Turned shared party later left)
    (consistent : Consistent shared (↑[party] + others)) :
    shared.state.rank ≤ later.state.rank := by
  have starting := consistent.state_starting
  have joining := consistent.state_joining
  cases turned with
  | goesOn quiet => rw [quiet.state]
  | stops => exact stop_rank
  | starts created =>
      simp [created, Lifecycle.rank]
  | publishes =>
      cases shared.stopRequested <;> simp [starting rfl, Lifecycle.rank]
  | abandons =>
      simp [starting rfl, Lifecycle.rank]
  | joins unstarted unjoined alone =>
      cases equal : shared.state <;> simp_all [Lifecycle.rank]
  | joined =>
      simp [joining rfl, Lifecycle.rank]
  | records =>
      unfold State.record
      split <;> rfl
  | restarts | entersJoin | entersDrain | rethrowsJoin | rethrowsDrain => exact le_rfl

/-- Nothing but the restart of `DrainStopped` starts the context again. -/
theorem Turned.stopped (turned : Turned shared party later left)
    (unrestarted : party ≠ .drain .restart) (stopped : shared.stopped = true) :
    later.stopped = true := by
  cases turned with
  | goesOn quiet => exact quiet.stopped stopped
  | restarts => exact absurd rfl unrestarted
  | stops =>
      unfold State.stop
      split <;> first | rfl | exact stopped
  | records =>
      unfold State.record
      split <;> exact stopped
  | starts | publishes | abandons | joins | joined | entersJoin | entersDrain | rethrowsJoin
  | rethrowsDrain => exact stopped

/-- No turn drops what is recorded. -/
theorem Turned.recorded (turned : Turned shared party later left) :
    shared.recorded <+: later.recorded := by
  cases turned with
  | goesOn quiet => rw [quiet.recorded]
  | stops =>
      unfold State.stop
      split <;> exact List.prefix_refl _
  | records =>
      unfold State.record
      split
      · exact List.prefix_append ..
      · exact List.prefix_refl _
  | restarts | starts | publishes | abandons | joins | joined | entersJoin | entersDrain
  | rethrowsJoin | rethrowsDrain => exact List.prefix_refl _

/-- The executor has been stopped, and no call will publish that it is running. -/
structure Idle (shared : State) : Prop where
  uncreated : shared.state ≠ .created
  unrunning : shared.state ≠ .running
  requested : shared.state = .starting → shared.stopRequested = true

theorem idle_stop (shared : State) : Idle shared.stop := by
  unfold State.stop
  constructor <;> cases equal : shared.state <;> simp [equal]

theorem stopped_stop (unjoined : shared.state ≠ .joined) : shared.stop.stopped = true := by
  unfold State.stop
  split
  case h_6 joined => exact absurd joined unjoined
  all_goals rfl

theorem Turned.idle (turned : Turned shared party later left)
    (consistent : Consistent shared (↑[party] + others)) (idle : Idle shared) : Idle later := by
  cases turned with
  | goesOn quiet =>
      rcases idle with ⟨uncreated, unrunning, requested⟩
      rw [← quiet.state] at uncreated unrunning requested
      rw [← quiet.stopRequested] at requested
      exact ⟨uncreated, unrunning, requested⟩
  | stops => exact idle_stop shared
  | starts created => exact absurd created idle.uncreated
  | publishes =>
      have publishedStop := idle.requested (consistent.state_starting rfl)
      constructor <;> simp [publishedStop]
  | records =>
      unfold State.record
      split <;> exact ⟨idle.uncreated, idle.unrunning, idle.requested⟩
  | abandons | joins | joined => constructor <;> simp
  | restarts | entersJoin | entersDrain | rethrowsJoin | rethrowsDrain =>
      exact ⟨idle.uncreated, idle.unrunning, idle.requested⟩

/-- Every exception that was recorded is pending, or one call has thrown it again. -/
def Accounted (shared : State) (parties : Multiset Party) : Prop :=
  (shared.recorded : Multiset Nat) = rethrown parties + shared.failure.toList

theorem Turned.accounted (turned : Turned shared party later left)
    (accounted : Accounted shared (↑[party] + others)) : Accounted later (left + others) := by
  unfold Accounted at *
  cases turned with
  | goesOn quiet continues =>
      rw [quiet.recorded, quiet.failure, accounted, rethrown_add, rethrown_add,
        continues.rethrown]
  | stops stops continues =>
      have same :
          shared.stop.recorded = shared.recorded ∧ shared.stop.failure = shared.failure := by
        unfold State.stop
        split <;> exact ⟨rfl, rfl⟩
      rw [same.1, same.2, accounted, rethrown_add, rethrown_add, continues.rethrown]
  | records continues =>
      rw [rethrown_add, continues.rethrown, ← rethrown_add]
      unfold State.record
      split
      next empty =>
        rw [empty] at accounted
        rw [← Multiset.coe_add, accounted, add_assoc]
        rfl
      next => exact accounted
  | rethrowsJoin | rethrowsDrain =>
      unfold State.rethrown
      split
      next empty =>
        rw [empty] at accounted
        simpa [Party.rethrown] using accounted
      next exception pending =>
        rw [pending, add_comm] at accounted
        simpa [Party.rethrown] using accounted
  | restarts | starts | publishes | abandons | joins | joined | entersJoin | entersDrain =>
      simpa [Party.rethrown] using accounted

end Consistent

section Runs

variable {threads : Nat} {pool last : Pool State Party}
  {condition : State → Party → Outcome → Prop}

theorem consistent_of_reaches (reaches : (system threads).Reaches condition initial pool) :
    Consistent pool.shared pool.parties := by
  apply reaches.invariant (fun _ _ => True) Consistent (fun _ _ => trivial)
  · exact ⟨rfl, rfl, nofun, Nat.zero_le _, fun _ => rfl⟩
  · intro shared later acting left others change _ _ consistent
    cases change with
    | turn party outcome allowed taken => exact (turn_turned taken).consistent consistent
    | outside call taken =>
        cases taken
        rcases call with ⟨caller, call⟩
        rw [Multiset.coe_nil, zero_add] at consistent
        rcases consistent with ⟨starting, joining, joined, once, before⟩
        cases call
        all_goals
          constructor <;> simpa [Call.party, Party.pins, Party.succeeded]

theorem accounted_of_reaches (reaches : (system threads).Reaches condition initial pool) :
    Accounted pool.shared pool.parties := by
  apply reaches.invariant (fun _ _ => True) Accounted (fun _ _ => trivial) rfl
  intro shared later acting left others change _ _ accounted
  cases change with
  | turn party outcome allowed taken => exact (turn_turned taken).accounted accounted
  | outside call taken =>
      cases taken
      rcases call with ⟨caller, call⟩
      cases call
      all_goals simpa [Accounted, Call.party, Party.rethrown] using accounted

/-- What every turn of a run keeps, when the parties agree with the state, holds to its end. -/
theorem keeps_of_reaches (holds : State → Prop)
    (reachable : (system threads).Reachable initial pool)
    (start : holds pool.shared)
    (kept : ∀ {shared later party outcome left} {others : Multiset Party},
      condition shared party outcome → Turned shared party later left →
      Consistent shared (↑[party] + others) → holds shared → holds later)
    (reaches : (system threads).Reaches condition pool last) : holds last.shared := by
  apply reaches.invariant Consistent (fun shared _ => holds shared)
  · intro pool reached
    exact consistent_of_reaches (reachable.trans reached.reachable)
  · exact start
  · intro shared later acting left others change consistent _ holds
    cases change with
    | turn party outcome allowed taken => exact kept allowed (turn_turned taken) consistent holds
    | outside call taken =>
        cases taken
        exact holds

end Runs

/-- The turn is not the restart of the context by `DrainStopped`. -/
def Unrestarted (_ : State) (party : Party) (_ : Outcome) : Prop := party ≠ .drain .restart

/-- The turn of a party of the pool. -/
def Takes (threads : Nat) (pool : Pool State Party) (party : Party) (later : Pool State Party) :
    Prop :=
  ∃ index outcome, pool.parties[index]? = some party ∧
    (system threads).step pool (.turn index outcome) = some later

/-- The turn of a party of the pool, and what is left of the party. -/
def Leaves (threads : Nat) (pool : Pool State Party) (party : Party) (outcome : Outcome)
    (left : List Party) (later : Pool State Party) : Prop :=
  ∃ index, pool.parties[index]? = some party ∧
    turn threads pool.shared party outcome = some (later.shared, left) ∧
    (system threads).step pool (.turn index outcome) = some later

/-- What an executor guarantees from now on. -/
structure Guaranteed (threads : Nat) (pool : Pool State Party) : Prop where
  /-- The state only moves forward. -/
  forward : ∀ last, (system threads).Reachable pool last →
    pool.shared.state.rank ≤ last.shared.state.rank
  /-- A stop before `Joined` keeps the context stopped until it is restarted, and the executor
  never runs again. -/
  halts : ∀ party later, Takes threads pool party later → party.stops = true →
    pool.shared.state ≠ .joined →
      (∀ last, (system threads).Reaches Unrestarted later last → last.shared.stopped = true) ∧
      (∀ last, (system threads).Reachable later last → last.shared.state ≠ .running)
  /-- It is restarted only behind `Joined`. -/
  restarts : .drain .restart ∈ pool.parties → pool.shared.state = .joined
  /-- `Run` succeeds at most once. -/
  once : successes pool.parties ≤ 1
  /-- Every recorded failure is pending or was thrown again by one call. -/
  accounted : Accounted pool.shared pool.parties
  /-- What a handler or a coroutine throws goes to `RecordWorkerFailure`, by a worker and by
  `DrainStopped`. -/
  fails : ∀ party outcome left later exception, Leaves threads pool party outcome left later →
    party.runs = true → outcome.exception = some exception →
      ∃ next, left = [next] ∧ next.records = some exception
  /-- It is recorded unless a failure is pending. -/
  records : ∀ party outcome left later exception, Leaves threads pool party outcome left later →
    party.records = some exception → pool.shared.failure = none →
      later.shared.failure = some exception ∧
      later.shared.recorded = pool.shared.recorded ++ [exception]
  /-- What is recorded stays so. -/
  keeps : ∀ last, (system threads).Reachable pool last →
    pool.shared.recorded <+: last.shared.recorded
  /-- A call of `Join` or `DrainStopped` that ends, other than with a logic error, throws the
  pending failure if there is one.  Then none is pending: each was thrown again by one call. -/
  completes : ∀ party outcome left later call result,
    Leaves threads pool party outcome left later → .finished call result ∈ left →
    call = .join ∨ call = .drain → (∀ what, result ≠ .error (.logicError what)) →
      (∀ exception, pool.shared.failure = some exception →
        result = .error (.worker exception)) ∧
      (pool.shared.failure = none → result = .ok ()) ∧
      (later.shared.recorded : Multiset Nat) = rethrown later.parties
  /-- A call ends with a logic error only when it comes at a wrong time, and changes nothing. -/
  refuses : ∀ party outcome left later call what,
    Leaves threads pool party outcome left later →
    .finished call (.error (.logicError what)) ∈ left →
      party.refused pool.shared ∧ later.shared = pool.shared

section Takes

variable {threads : Nat} {pool later last : Pool State Party} {party : Party}

theorem Takes.reachable (takes : Takes threads pool party later)
    (reachable : (system threads).Reachable initial pool) :
    (system threads).Reachable initial later := by
  rcases takes with ⟨index, outcome, -, taken⟩
  exact .step reachable (System.meets_true _) taken

theorem Takes.turn (takes : Takes threads pool party later) :
    ∃ outcome left, turn threads pool.shared party outcome = some (later.shared, left) := by
  rcases takes with ⟨index, outcome, found, taken⟩
  rcases System.turn_cases found taken with ⟨left, _, -, turned, -⟩
  exact ⟨outcome, left, turned⟩

/-- The turn of a party that stops is the section of `Stop`. -/
theorem Takes.stops (takes : Takes threads pool party later) (stops : party.stops = true) :
    later.shared = pool.shared.stop := by
  rcases takes.turn with ⟨outcome, left, taken⟩
  generalize later.shared = shared at taken ⊢
  unfold Party.stops at stops
  split at stops
  case h_5 => cases stops
  all_goals
    cases taken
    rfl

/-- A call of `Join` or `DrainStopped` that does not refuse throws the pending failure. -/
theorem Finishes.rethrown {shared after : State} {call : Call} {result : Except Failure Unit}
    (finishes : Finishes shared party after call result) (completes : call = .join ∨ call = .drain)
    (unrefused : ∀ what, result ≠ .error (.logicError what)) :
    result = shared.rethrown ∧ after.failure = none := by
  cases finishes with
  | stops | abandons | publishes => simp at completes
  | refuses => exact absurd rfl (unrefused _)
  | rethrows => exact ⟨rfl, rfl⟩

/-- A call refuses in a state in which it is a logic error, which it leaves as it is. -/
theorem Finishes.refused {shared after : State} {call : Call} {what : String}
    (finishes : Finishes shared party after call (.error (.logicError what))) :
    party.refused shared ∧ after = shared := by
  generalize refusal : Except.error (Failure.logicError what) = result at finishes
  cases finishes with
  | stops | abandons | publishes => cases refusal
  | refuses refused => exact ⟨refused, rfl⟩
  | rethrows =>
      unfold State.rethrown at refusal
      split at refusal <;> cases refusal

theorem Leaves.reachable {outcome : Outcome} {left : List Party}
    (leaves : Leaves threads pool party outcome left later)
    (reachable : (system threads).Reachable initial pool) :
    (system threads).Reachable initial later := by
  rcases leaves with ⟨index, -, -, taken⟩
  exact .step reachable (System.meets_true _) taken

/-- What is recorded is never dropped. -/
theorem recorded_of_reaches (reachable : (system threads).Reachable initial pool)
    (reaches : (system threads).Reachable pool last) :
    pool.shared.recorded <+: last.shared.recorded := by
  apply keeps_of_reaches (fun shared => pool.shared.recorded <+: shared.recorded) reachable
    (List.prefix_refl _) _ reaches
  intro shared later party outcome left others _ turned _ kept
  exact kept.trans turned.recorded

/-- The state of a run never moves backwards. -/
theorem forward_of_reaches (reachable : (system threads).Reachable initial pool)
    (reaches : (system threads).Reachable pool last) :
    pool.shared.state.rank ≤ last.shared.state.rank := by
  apply keeps_of_reaches (fun shared => pool.shared.state.rank ≤ shared.state.rank) reachable
    le_rfl _ reaches
  intro shared later party outcome left others _ turned consistent forward
  exact forward.trans (turned.rank_le consistent)

/-- An executor that was stopped never runs again. -/
theorem idle_of_reaches (reachable : (system threads).Reachable initial pool)
    (idle : Idle pool.shared) (reaches : (system threads).Reachable pool last) :
    Idle last.shared := by
  apply keeps_of_reaches Idle reachable idle _ reaches
  intro shared later party outcome left others _ turned consistent idle
  exact turned.idle consistent idle

/-- The context of an executor that was stopped stays so until it is restarted. -/
theorem stopped_of_reaches (reachable : (system threads).Reachable initial pool)
    (stopped : pool.shared.stopped = true)
    (reaches : (system threads).Reaches Unrestarted pool last) : last.shared.stopped = true := by
  apply keeps_of_reaches (fun shared => shared.stopped = true) reachable stopped _ reaches
  intro shared later party outcome left others unrestarted turned _ stopped
  exact turned.stopped unrestarted stopped

end Takes

/-- In every run of an executor the state only moves forward, no stop is lost, `Run` succeeds
at most once, and every recorded failure is thrown again by one call. -/
theorem guaranteed_of_reachable {threads : Nat} {pool : Pool State Party}
    (reachable : (system threads).Reachable initial pool) : Guaranteed threads pool where
  forward _ := forward_of_reaches reachable
  halts := by
    intro party later takes stops unjoined
    have stopped := takes.stops stops
    constructor
    · intro last reaches
      apply stopped_of_reaches (takes.reachable reachable) _ reaches
      rw [stopped]
      exact stopped_stop unjoined
    · intro last reaches
      have idle := idle_of_reaches (takes.reachable reachable) (by
        rw [stopped]
        exact idle_stop _) reaches
      exact idle.unrunning
  restarts := by
    intro member
    rcases Multiset.exists_cons_of_mem (Multiset.mem_coe.mpr member) with ⟨others, split⟩
    have consistent := consistent_of_reaches reachable
    rw [split, ← Multiset.singleton_add, ← Multiset.coe_singleton] at consistent
    exact consistent.state_joined rfl
  once := (Nat.le_add_right ..).trans (consistent_of_reaches reachable).once
  accounted := accounted_of_reaches reachable
  fails := by
    rintro party outcome left later exception ⟨index, -, taken, -⟩ runs throws
    exact turn_fails runs throws taken
  records := by
    rintro party outcome left later exception ⟨index, -, taken, -⟩ records empty
    rw [turn_records records taken, State.record, empty]
    exact ⟨rfl, rfl⟩
  keeps _ := recorded_of_reaches reachable
  completes := by
    intro party outcome left later call result leaves finished completes unrefused
    have accounted := accounted_of_reaches (leaves.reachable reachable)
    rcases leaves with ⟨index, -, taken, -⟩
    obtain ⟨thrown, empty⟩ := (turn_finishes taken finished).rethrown completes unrefused
    rw [Accounted, empty] at accounted
    refine ⟨fun exception pending => ?_, fun pending => ?_, by simpa using accounted⟩
    · rw [thrown, State.rethrown, pending]
    · rw [thrown, State.rethrown, pending]
  refuses := by
    rintro party outcome left later call what ⟨index, -, taken, -⟩ finished
    exact (turn_finishes taken finished).refused

/-- An executor with one worker is stopped while it starts; its worker fails and is joined. -/
def stoppedWhileStarting : List (Event Outcome (Option Thread × Call)) :=
  [.outside (none, .run), .turn 0 .done, .turn 0 .done, .outside (none, .stop), .turn 1 .done,
    .turn 0 .done, .turn 0 .done, .turn 0 .done, .turn 1 (.thrown 7), .turn 1 .done, .turn 1 .done,
    .turn 1 .done, .outside (none, .join), .turn 2 .done, .turn 2 .done, .turn 2 .done,
    .turn 2 .done]

theorem guaranteed_of_reachable_example : ∃ pool,
    stoppedWhileStarting.foldlM (system 1).step initial = some pool ∧
      pool.parties = [.finished .run (.ok ()), .finished .stop (.ok ()),
        .finished .join (.error (.worker 7))] ∧
      Guaranteed 1 pool := by
  let joined : Pool State Party :=
    ⟨⟨.joined, true, false, true, [], [], 1, none, [7]⟩,
      [.finished .run (.ok ()), .finished .stop (.ok ()), .finished .join (.error (.worker 7))]⟩
  have run : stoppedWhileStarting.foldlM (system 1).step initial = some joined := by decide
  exact ⟨joined, run, rfl, guaranteed_of_reachable (System.reaches_of_run run)⟩

end Wan.Web.Executor
