import Wan.Web.Executor.Model

/-!
# What a turn does to the executor

A party in the middle of a call may rely on the state that the call has put the executor
in, which it pins.
-/

namespace Wan.Web.Executor

open Wan.Library

/-- The state that the party relies on: a call of `Run` behind its first section, a call of
`Join` that waits for the workers, and one that comes behind `Joined`. -/
def Party.pins : Party → Option Lifecycle
  | .run .lock | .stop | .join (.lock _) | .drain .lock | .worker _ _ | .finished _ _ => none
  | .run _ => some .starting
  | .join (.joinWorkers _) => some .joining
  | .join .rethrow | .drain _ => some .joined

/-- The turn of the party is the section of `Stop`. -/
def Party.stops : Party → Bool
  | .stop | .run (.stop _) | .worker _ (.stop _) | .drain .stopAgain => true
  | _ => false

/-- The party runs the context. -/
def Party.runs : Party → Bool
  | .worker _ .run | .drain .run => true
  | _ => false

/-- What the party records with its next turn. -/
def Party.records : Party → Option Nat
  | .worker _ (.record exception _) | .drain (.record exception) => some exception
  | _ => none

/-- What the handler or the coroutine of a turn has thrown. -/
def Outcome.exception : Outcome → Option Nat
  | .done => none
  | .thrown exception | .reported exception => some exception

/-- The call comes at a time when it is a logic error. -/
def Party.refused (shared : State) : Party → Prop
  | .run .lock => shared.state ≠ .created
  | .join (.lock caller) =>
      shared.state = .joining ∨ ∃ worker ∈ shared.workers, caller = some worker
  | .drain .lock => shared.state ≠ .joined
  | _ => False

/-- A call of `Run` that has succeeded. -/
def Party.succeeded (party : Party) : Bool := party = .finished .run (.ok ())

/-- The exception that a call of `Join` or `DrainStopped` has thrown again. -/
def Party.rethrown : Party → Multiset Nat
  | .finished .join (.error (.worker exception))
  | .finished .drain (.error (.worker exception)) => {exception}
  | _ => 0

/-- How many parties pin a state. -/
def holders (state : Lifecycle) (parties : Multiset Party) : Nat :=
  parties.countP fun party => party.pins = some state

/-- How many calls of `Run` have succeeded. -/
def successes (parties : Multiset Party) : Nat := parties.countP fun party => party.succeeded

/-- The exceptions that calls have thrown again. -/
def rethrown (parties : Multiset Party) : Multiset Nat := parties.bind Party.rethrown

section Sums

variable {state : Lifecycle} {party : Party} {parties others : Multiset Party}

@[simp] theorem holders_cons : holders state (party ::ₘ parties) =
    holders state parties + if party.pins = some state then 1 else 0 := by
  rw [holders, Multiset.countP_cons, holders]

@[simp] theorem successes_cons : successes (party ::ₘ parties) =
    successes parties + if party.succeeded = true then 1 else 0 := by
  rw [successes, Multiset.countP_cons, successes]

@[simp] theorem rethrown_cons :
    rethrown (party ::ₘ parties) = party.rethrown + rethrown parties :=
  Multiset.cons_bind ..

@[simp] theorem holders_add :
    holders state (parties + others) = holders state parties + holders state others :=
  Multiset.countP_add ..

@[simp] theorem successes_add :
    successes (parties + others) = successes parties + successes others :=
  Multiset.countP_add ..

@[simp] theorem rethrown_add : rethrown (parties + others) = rethrown parties + rethrown others :=
  Multiset.add_bind ..

end Sums

/-- What is left of the party relies on the same state and has returned nothing that counts. -/
structure Continues (party : Party) (left : List Party) : Prop where
  holders : ∀ state, holders state left = holders state [party]
  successes : successes left = successes [party]
  rethrown : rethrown left = rethrown [party]

/-- Nothing has changed that concerns the lifecycle or the failure. -/
structure Quiet (shared later : State) : Prop where
  state : later.state = shared.state
  stopRequested : later.stopRequested = shared.stopRequested
  stopped : shared.stopped = true → later.stopped = true
  failure : later.failure = shared.failure
  recorded : later.recorded = shared.recorded

/-- What a turn does. -/
inductive Turned (shared : State) : Party → State → List Party → Prop where
  | goesOn {party later left} (quiet : Quiet shared later) (continues : Continues party left) :
      Turned shared party later left
  | restarts : Turned shared (.drain .restart) { shared with stopped := false } [.drain .run]
  | stops {party left} (stops : party.stops = true) (continues : Continues party left) :
      Turned shared party shared.stop left
  | starts (created : shared.state = .created) :
      Turned shared (.run .lock) { shared with state := .starting } [.run .reserve]
  | publishes : Turned shared (.run .publish)
      { shared with state := if shared.stopRequested then .stopping else .running }
      [.finished .run (.ok ())]
  | abandons {exception} : Turned shared (.run (.joinWorkers exception))
      { shared with state := .joined } [.finished .run (.error (.launch exception))]
  | joins {caller} (unstarted : shared.state ≠ .starting) (unjoined : shared.state ≠ .joined)
      (alone : shared.state ≠ .joining) :
      Turned shared (.join (.lock caller)) { shared with state := .joining, workers := [] }
        [.join (.joinWorkers shared.workers)]
  | joined : Turned shared (.join (.joinWorkers []))
      { shared with state := .joined } [.join .rethrow]
  | entersJoin {caller} (joined : shared.state = .joined) :
      Turned shared (.join (.lock caller)) shared [.join .rethrow]
  | entersDrain (joined : shared.state = .joined) :
      Turned shared (.drain .lock) shared [.drain .reset]
  | records {party left exception} (continues : Continues party left) :
      Turned shared party (shared.record exception) left
  | rethrowsJoin : Turned shared (.join .rethrow) { shared with failure := none }
      [.finished .join shared.rethrown]
  | rethrowsDrain : Turned shared (.drain .rethrow) { shared with failure := none }
      [.finished .drain shared.rethrown]

section Turn

variable {threads : Nat} {shared later : State} {party next : Party} {outcome : Outcome}
  {left : List Party}

/-- A party that goes on as another one with the same pin. -/
theorem Continues.of_pins (same : next.pins = party.pins)
    (unsuccessful : next.succeeded = party.succeeded) (quiet : next.rethrown = party.rethrown) :
    Continues party [next] where
  holders state := by
    rw [← Multiset.cons_coe, ← Multiset.cons_coe, holders_cons, holders_cons, same]
  successes := by
    rw [← Multiset.cons_coe, ← Multiset.cons_coe, successes_cons, successes_cons, unsuccessful]
  rethrown := by
    rw [← Multiset.cons_coe, ← Multiset.cons_coe, rethrown_cons, rethrown_cons, quiet]

theorem Quiet.refl (shared : State) : Quiet shared shared := ⟨rfl, rfl, id, rfl, rfl⟩

theorem Turned.silent (continues : Continues party left) : Turned shared party shared left :=
  .goesOn (.refl shared) continues

theorem runTurn_turned {stage : RunStage}
    (taken : runTurn threads shared stage outcome = some (later, left)) :
    Turned shared (.run stage) later left := by
  unfold runTurn at taken
  split at taken
  case h_1 =>
    split at taken <;> cases taken
    · exact .silent (.of_pins rfl rfl rfl)
    next created => exact .starts (not_not.mp created)
  case h_5 =>
    cases taken
    refine .goesOn ⟨rfl, rfl, id, rfl, rfl⟩ ⟨?_, rfl, rfl⟩
    intro state
    cases state <;> rfl
  case h_7 | h_8 => cases taken
  case h_9 =>
    cases taken
    exact .stops rfl (.of_pins rfl rfl rfl)
  case h_10 =>
    split at taken
    · cases taken
      exact .abandons
    · split at taken <;> cases taken
      exact .goesOn ⟨rfl, rfl, id, rfl, rfl⟩ (.of_pins rfl rfl rfl)
  case h_11 =>
    cases taken
    exact .publishes
  all_goals
    cases taken
    exact .silent (.of_pins rfl rfl rfl)

theorem joinTurn_turned {stage : JoinStage} (taken : joinTurn shared stage = some (later, left)) :
    Turned shared (.join stage) later left := by
  unfold joinTurn at taken
  split at taken
  case h_1 =>
    split at taken
    · cases taken
    next unstarted =>
      split at taken
      next joined =>
        cases taken
        exact .entersJoin joined
      next unjoined =>
        split at taken
        · cases taken
          exact .silent (.of_pins rfl rfl rfl)
        next alone =>
          split at taken <;> cases taken
          · exact .silent (.of_pins rfl rfl rfl)
          · exact .joins unstarted unjoined alone
  case h_2 =>
    split at taken <;> cases taken
    exact .silent (.of_pins rfl rfl rfl)
  case h_3 =>
    cases taken
    exact .joined
  case h_4 =>
    cases taken
    exact .rethrowsJoin

theorem drainTurn_turned {stage : DrainStage}
    (taken : drainTurn shared stage outcome = (later, left)) :
    Turned shared (.drain stage) later left := by
  unfold drainTurn at taken
  split at taken
  case h_1 =>
    split at taken <;> cases taken
    · exact .silent (.of_pins rfl rfl rfl)
    next joined => exact .entersDrain (not_not.mp joined)
  case h_2 =>
    cases taken
    exact .goesOn ⟨rfl, rfl, id, rfl, rfl⟩ (.of_pins rfl rfl rfl)
  case h_3 | h_5 =>
    cases taken
    exact .goesOn ⟨rfl, rfl, fun _ => rfl, rfl, rfl⟩ (.of_pins rfl rfl rfl)
  case h_4 =>
    cases taken
    exact .restarts
  case h_6 | h_7 =>
    cases taken
    exact .silent (.of_pins rfl rfl rfl)
  case h_8 =>
    cases taken
    exact .records (.of_pins rfl rfl rfl)
  case h_9 =>
    cases taken
    exact .stops rfl (.of_pins rfl rfl rfl)
  case h_10 =>
    cases taken
    exact .rethrowsDrain

theorem workerTurn_turned {thread : Thread} {stage : WorkerStage}
    (taken : workerTurn shared thread stage outcome = (later, left)) :
    Turned shared (.worker thread stage) later left := by
  unfold workerTurn at taken
  split at taken <;> cases taken
  case h_1 => exact .goesOn ⟨rfl, rfl, fun _ => rfl, rfl, rfl⟩ (.of_pins rfl rfl rfl)
  case h_2 | h_3 => exact .silent (.of_pins rfl rfl rfl)
  case h_4 => exact .records (.of_pins rfl rfl rfl)
  case h_5 => exact .stops rfl (.of_pins rfl rfl rfl)
  case h_6 =>
    exact .goesOn ⟨rfl, rfl, id, rfl, rfl⟩ ⟨fun state => rfl, rfl, rfl⟩

theorem turn_turned (taken : turn threads shared party outcome = some (later, left)) :
    Turned shared party later left := by
  cases party with
  | run stage => exact runTurn_turned taken
  | stop =>
      cases taken
      exact .stops rfl (.of_pins rfl rfl rfl)
  | join stage => exact joinTurn_turned taken
  | drain stage => exact drainTurn_turned (Option.some.inj taken)
  | worker thread stage => exact workerTurn_turned (Option.some.inj taken)
  | finished call result => cases taken

/-- How a call ends. -/
inductive Finishes (shared : State) : Party → State → Call → Except Failure Unit → Prop where
  | stops : Finishes shared .stop shared.stop .stop (.ok ())
  | refuses {party call what} (refused : party.refused shared) :
      Finishes shared party shared call (.error (.logicError what))
  | abandons {exception} : Finishes shared (.run (.joinWorkers exception))
      { shared with state := .joined } .run (.error (.launch exception))
  | publishes : Finishes shared (.run .publish)
      { shared with state := if shared.stopRequested then .stopping else .running } .run (.ok ())
  | rethrows {party call} :
      Finishes shared party { shared with failure := none } call shared.rethrown

theorem runTurn_finishes {stage : RunStage} {call : Call} {result : Except Failure Unit}
    (taken : runTurn threads shared stage outcome = some (later, left))
    (finished : .finished call result ∈ left) :
    Finishes shared (.run stage) later call result := by
  unfold runTurn at taken
  split at taken
  case h_1 =>
    split at taken <;> cases taken
    next started =>
      rw [List.mem_singleton] at finished
      cases finished
      exact .refuses started
    next => simp at finished
  case h_7 | h_8 => cases taken
  case h_10 =>
    split at taken
    · cases taken
      rw [List.mem_singleton] at finished
      cases finished
      exact .abandons
    · split at taken <;> cases taken
      simp at finished
  case h_11 =>
    cases taken
    rw [List.mem_singleton] at finished
    cases finished
    exact .publishes
  all_goals
    cases taken
    simp at finished

theorem joinTurn_finishes {stage : JoinStage} {call : Call} {result : Except Failure Unit}
    (taken : joinTurn shared stage = some (later, left)) (finished : .finished call result ∈ left) :
    Finishes shared (.join stage) later call result := by
  unfold joinTurn at taken
  split at taken
  case h_1 =>
    split at taken
    · cases taken
    split at taken
    · cases taken
      simp at finished
    split at taken
    next joining =>
      cases taken
      rw [List.mem_singleton] at finished
      cases finished
      exact .refuses (.inl joining)
    split at taken <;> cases taken
    next isWorker =>
      rw [List.mem_singleton] at finished
      cases finished
      exact .refuses (.inr isWorker)
    next => simp at finished
  case h_2 =>
    split at taken <;> cases taken
    simp at finished
  case h_3 =>
    cases taken
    simp at finished
  case h_4 =>
    cases taken
    rw [List.mem_singleton] at finished
    cases finished
    exact .rethrows

theorem drainTurn_finishes {stage : DrainStage} {call : Call} {result : Except Failure Unit}
    (taken : drainTurn shared stage outcome = (later, left))
    (finished : .finished call result ∈ left) :
    Finishes shared (.drain stage) later call result := by
  unfold drainTurn at taken
  split at taken
  case h_1 =>
    split at taken <;> cases taken
    next unjoined =>
      rw [List.mem_singleton] at finished
      cases finished
      exact .refuses unjoined
    next => simp at finished
  case h_10 =>
    cases taken
    rw [List.mem_singleton] at finished
    cases finished
    exact .rethrows
  all_goals
    cases taken
    simp at finished

theorem workerTurn_unfinished {thread : Thread} {stage : WorkerStage} {call : Call}
    {result : Except Failure Unit}
    (taken : workerTurn shared thread stage outcome = (later, left)) :
    .finished call result ∉ left := by
  unfold workerTurn at taken
  split at taken <;> cases taken <;> simp

/-- A call ends in one of these ways. -/
theorem turn_finishes {call : Call} {result : Except Failure Unit}
    (taken : turn threads shared party outcome = some (later, left))
    (finished : .finished call result ∈ left) : Finishes shared party later call result := by
  cases party with
  | run stage => exact runTurn_finishes taken finished
  | stop =>
      cases taken
      rw [List.mem_singleton] at finished
      cases finished
      exact .stops
  | join stage => exact joinTurn_finishes taken finished
  | drain stage => exact drainTurn_finishes (Option.some.inj taken) finished
  | worker thread stage => exact absurd finished (workerTurn_unfinished (Option.some.inj taken))
  | finished call result => cases taken

/-- What a handler or a coroutine throws goes to `RecordWorkerFailure`. -/
theorem turn_fails {exception : Nat} (runs : party.runs = true)
    (throws : outcome.exception = some exception)
    (taken : turn threads shared party outcome = some (later, left)) :
    ∃ next, left = [next] ∧ next.records = some exception := by
  unfold Party.runs at runs
  split at runs
  case h_3 => cases runs
  all_goals
    cases outcome <;> cases throws <;> cases taken
    · exact ⟨_, rfl, rfl⟩
    · exact ⟨_, rfl, rfl⟩

/-- The first section of `RecordWorkerFailure`. -/
theorem turn_records {exception : Nat} (records : party.records = some exception)
    (taken : turn threads shared party outcome = some (later, left)) :
    later = shared.record exception := by
  unfold Party.records at records
  split at records
  case h_3 => cases records
  all_goals
    cases records
    cases taken
    rfl

end Turn

end Wan.Web.Executor
