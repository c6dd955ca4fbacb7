import Wan.Web.ConnectionRegistry.Bookkeeping

/-!
# What was taken is closed

Every turn brings the calls and the dispatched operations closer to their end, and whoever
has taken a connection can go on.  So whatever `CloseAll` or `CloseAllNow` has taken is closed
once the parties that are under way have run.
-/

namespace Wan.Web.ConnectionRegistry

open Wan.Library

/-- A bound on the turns of a party, and of what it dispatches. -/
def Party.weight : Party → Nat
  | .registerClose _ => 3
  | .remove _ => 1
  | .closeAll .lock | .closeAllNow .lock => 2
  | .closeAll (.loop connections) | .closeAllNow (.loop connections) => 2 * connections.length + 1
  | .closeConnection _ => 1
  | .finished _ => 0

/-- A bound on the turns of the parties. -/
def weight (parties : Multiset Party) : Nat := (parties.map Party.weight).sum

theorem weight_add (parties others : Multiset Party) :
    weight (parties + others) = weight parties + weight others := by
  rw [weight, Multiset.map_add, Multiset.sum_add]
  rfl

/-- A bound on the turns that are left when no call arrives. -/
def remaining (shared : State) (parties : Multiset Party) : Nat :=
  weight parties + 2 * shared.connections.size

section Turn

variable {shared later : State} {party : Party} {left : List Party} {others : Multiset Party}

theorem size_insert_le (connections : InsertionMap Connection.id) (connection : Connection) :
    (connections.insert connection).size ≤ connections.size + 1 := by
  rw [InsertionMap.size, InsertionMap.insert]
  split
  · rw [List.length_append, List.length_singleton, InsertionMap.size]
  · exact Nat.le_succ _

theorem length_eraseIdx {connections : List Connection} {connection : Connection} {index : Nat}
    (found : connections[index]? = some connection) :
    (connections.eraseIdx index).length + 1 = connections.length := by
  rcases List.getElem?_eq_some_iff.mp found with ⟨bound, -⟩
  rw [List.length_eraseIdx_of_lt bound]
  omega

theorem Turned.falls (turned : Turned shared party later left) :
    remaining later left < remaining shared ↑[party] := by
  simp only [remaining, weight, Multiset.map_coe, Multiset.sum_coe, List.map_cons, List.map_nil,
    List.sum_cons, List.sum_nil]
  cases turned with
  | refused | skips | ends | endsNow => simp [Party.weight]
  | @registers registration close available given =>
      have grown := size_insert_le shared.connections
        (registration.connection shared.nextId close)
      simp only [List.map_cons, List.map_nil, List.sum_cons, List.sum_nil, Party.weight]
      omega
  | @removes id =>
      have shrunk : (shared.remove id).connections.size ≤ shared.connections.size := by
        unfold State.remove
        split
        · exact Nat.le_refl _
        · exact InsertionMap.size_erase_le
      simp only [List.map_cons, List.map_nil, List.sum_cons, List.sum_nil, Party.weight]
      omega
  | takes | takesNow =>
      simp only [List.map_cons, List.map_nil, List.sum_cons, List.sum_nil, Party.weight,
        InsertionMap.size, InsertionMap.empty, List.length_nil]
      omega
  | dispatches found | closesNow found =>
      have length := length_eraseIdx found
      simp only [List.map_cons, List.map_nil, List.sum_cons, List.sum_nil, Party.weight,
        State.close]
      omega
  | closes =>
      simp only [List.map_nil, List.sum_nil, Party.weight, State.close]
      omega

/-- A party that has taken a connection can take a turn. -/
theorem exists_outcome {connection : Connection} (held : connection ∈ party.held) :
    ∃ outcome, (turn shared party outcome).isSome := by
  cases party with
  | closeAll stage =>
      cases stage with
      | lock => cases held
      | loop connections =>
          cases connections with
          | nil => cases held
          | cons first rest => exact ⟨{}, rfl⟩
  | closeAllNow stage =>
      cases stage with
      | lock => cases held
      | loop connections =>
          cases connections with
          | nil => cases held
          | cons first rest => exact ⟨{}, rfl⟩
  | closeConnection connection => exact ⟨{}, rfl⟩
  | registerClose registration => cases held
  | remove id => cases held
  | finished result => cases held

end Turn

/-- Any turn. -/
abbrev Anyhow (_ : State) (_ : Party) (_ : Outcome) : Prop := True

/-- The turn of a party of the pool. -/
def Takes (pool : Pool State Party) (party : Party) (later : Pool State Party) : Prop :=
  ∃ index outcome, pool.parties[index]? = some party ∧
    system.step pool (.turn index outcome) = some later

/-- The turn of a party of the pool, and what is left of the party. -/
def Leaves (pool : Pool State Party) (party : Party) (left : List Party)
    (later : Pool State Party) : Prop :=
  ∃ index outcome, pool.parties[index]? = some party ∧
    turn pool.shared party outcome = some (later.shared, left) ∧
    system.step pool (.turn index outcome) = some later

section Runs

variable {pool later last : Pool State Party} {connection : Connection} {party : Party}

theorem Invariant.counts (invariant : Invariant pool.shared pool.parties)
    (connection : Connection) :
    pool.shared.connections.toList.count connection + pool.shared.removed.count connection +
      ((held pool.parties).count connection + pool.shared.closed.count connection) ≤ 1 := by
  have distinct : pool.shared.registered.Nodup := invariant.numbered.distinct.of_map _
  have once := List.nodup_iff_count_le_one.mp distinct connection
  have counted := congrArg (Multiset.count connection) invariant.accounted
  simp only [Multiset.count_add, Multiset.coe_count] at counted
  omega

/-- A pool that has taken a connection and not closed it yet can go on. -/
theorem exists_turn (held : connection ∈ held pool.parties) :
    ∃ later, system.Turns Anyhow pool later := by
  rcases Multiset.mem_bind.mp held with ⟨party, member, inside⟩
  have going : ∃ outcome, (turn pool.shared party outcome).isSome := exists_outcome inside
  rcases going with ⟨outcome, able⟩
  exact System.exists_turns (Multiset.mem_coe.mp member) trivial able

/-- `CloseAll` and `CloseAllNow` take every entry of the table. -/
theorem Takes.held (takes : Takes pool party later)
    (kind : party = .closeAll .lock ∨ party = .closeAllNow .lock)
    (stored : connection ∈ pool.shared.connections.toList) :
    connection ∈ held later.parties := by
  rcases takes with ⟨index, outcome, found, stepped⟩
  rcases System.turn_cases found stepped with ⟨left, others, -, turned, after⟩
  rw [after, held_add, Multiset.mem_add]
  left
  generalize later.shared = shared at turned
  rcases kind with rfl | rfl
  all_goals
    cases turned
    rw [held_cons, held_nil, add_zero]
    exact stored

theorem Takes.reachable (takes : Takes pool party later)
    (reachable : system.Reachable initial pool) : system.Reachable initial later := by
  rcases takes with ⟨index, outcome, -, stepped⟩
  exact .step reachable (System.meets_true _) stepped

theorem Takes.turned (takes : Takes pool party later) :
    ∃ left, Turned pool.shared party later.shared left := by
  rcases takes with ⟨index, outcome, found, stepped⟩
  rcases System.turn_cases found stepped with ⟨left, -, -, turned, -⟩
  exact ⟨left, turn_turned turned⟩

/-- `Remove` leaves the connection with the id neither in the table nor anywhere else. -/
theorem Takes.removed (takes : Takes pool (.remove connection.id) later)
    (stored : connection ∈ pool.shared.connections.toList) :
    connection ∈ later.shared.removed := by
  rcases takes.turned with ⟨left, turned⟩
  generalize later.shared = shared at turned ⊢
  cases turned
  unfold State.remove
  rw [InsertionMap.find?_of_mem stored]
  exact List.mem_append_right _ (List.mem_singleton_self _)

/-- A call of `RegisterClose` that returns an id has put its entry into the table. -/
theorem Leaves.entered {registration : Registration} {left : List Party} {id : UInt64}
    (leaves : Leaves pool (.registerClose registration) left later)
    (invariant : Invariant pool.shared pool.parties)
    (returned : .finished (.registered (.ok id)) ∈ left) :
    ∃ close, registration.close = some close ∧
      registration.connection id close ∈ later.shared.connections.toList := by
  rcases leaves with ⟨index, outcome, -, taken, -⟩
  have turned := turn_turned taken
  generalize later.shared = shared at turned ⊢
  cases turned with
  | refused | skips => simp at returned
  | @registers registration close available given =>
      rw [List.mem_singleton] at returned
      cases returned
      have absent := find?_nextId invariant.accounted invariant.numbered available
      refine ⟨close, given, ?_⟩
      rw [InsertionMap.insert_of_none absent]
      exact List.mem_append_right _ (List.mem_singleton_self _)

theorem turns_fall (turned : system.Turns Anyhow pool later) :
    remaining later.shared later.parties < remaining pool.shared pool.parties := by
  rcases turned.cases with ⟨party, outcome, left, others, before, taken, after, -⟩
  have falls := (turn_turned taken).falls
  rw [remaining, remaining] at falls
  rw [remaining, remaining, before, after, weight_add, weight_add]
  omega

/-- What was taken is closed, however the parties that are under way take their turns. -/
theorem closed_of_taken (reachable : system.Reachable initial pool)
    (taken : connection ∈ held pool.parties + pool.shared.closed) :
    Inevitable (system.Turns Anyhow)
      (fun pool => pool.shared.closed.count connection = 1) pool := by
  apply Inevitable.of_measure
    (fun pool => system.Reachable initial pool ∧
      connection ∈ held pool.parties + pool.shared.closed)
    (fun pool => remaining pool.shared pool.parties)
  · intro pool later invariant _ turned
    rcases turned with ⟨index, outcome, meets, stepped⟩
    exact ⟨.step invariant.1 meets stepped,
      taken_of_reaches invariant.2 (.step .start meets stepped)⟩
  · intro pool invariant unclosed
    rcases Multiset.mem_add.mp invariant.2 with inside | closed
    · exact exists_turn inside
    · have counts := (invariant_of_reaches invariant.1).counts connection
      have positive := List.count_pos_iff.mpr (Multiset.mem_coe.mp closed)
      omega
  · intro pool later _ _ turned
    exact turns_fall turned
  · exact ⟨reachable, taken⟩

end Runs

/-- What a registry guarantees. -/
structure Kept (pool : Pool State Party) : Prop where
  /-- No id that a call has returned is zero. -/
  nonzero : ∀ id ∈ handed pool.parties, id ≠ 0
  /-- No two of them are equal. -/
  distinct : (handed pool.parties).Nodup
  /-- Only what was registered is closed, at most once. -/
  once : ∀ connection, pool.shared.closed.count connection ≤ 1 ∧
    (connection ∈ pool.shared.closed → connection ∈ pool.shared.registered)
  /-- A call of `RegisterClose` that returns an id has put its entry into the table. -/
  enters : ∀ registration left later id, Leaves pool (.registerClose registration) left later →
    .finished (.registered (.ok id)) ∈ left →
      ∃ close, registration.close = some close ∧
        registration.connection id close ∈ later.shared.connections.toList
  /-- What is in the table stays there until a call removes it or takes the table. -/
  stays : ∀ party later, Takes pool party later →
    party ≠ .closeAll .lock → party ≠ .closeAllNow .lock →
      ∀ connection ∈ pool.shared.connections.toList, party ≠ .remove connection.id →
        connection ∈ later.shared.connections.toList
  /-- What a call of `Remove` finds in the table under its id is never closed. -/
  removed : ∀ connection ∈ pool.shared.connections.toList, ∀ later,
    Takes pool (.remove connection.id) later → ∀ last, system.Reachable later last →
      connection ∉ last.shared.closed
  /-- What is in the table when `CloseAll` or `CloseAllNow` takes it is closed once. -/
  taken : ∀ party later, Takes pool party later →
    party = .closeAll .lock ∨ party = .closeAllNow .lock →
      ∀ connection ∈ pool.shared.connections.toList, ∀ last, system.Reachable later last →
        last.shared.closed.count connection ≤ 1 ∧
          Inevitable (system.Turns Anyhow)
            (fun final => final.shared.closed.count connection = 1) last

theorem kept_of_reachable {pool : Pool State Party} (reachable : system.Reachable initial pool) :
    Kept pool := by
  have invariant := invariant_of_reaches reachable
  constructor
  case nonzero =>
    intro id returned
    rw [← invariant.handed] at returned
    exact invariant.numbered.positive id returned
  case distinct =>
    rw [← invariant.handed]
    exact invariant.numbered.distinct
  case once =>
    intro connection
    constructor
    · have counts := invariant.counts connection
      omega
    · intro closed
      have accounted := invariant.accounted
      rw [← Multiset.mem_coe, accounted]
      simp [closed]
  case enters =>
    intro registration left later id leaves returned
    exact leaves.entered invariant returned
  case stays =>
    intro party later takes untaken untakenNow connection stored unremoved
    rcases takes.turned with ⟨left, turned⟩
    exact turned.stays untaken untakenNow unremoved stored
  case removed =>
    intro connection stored later takes last reaches closed
    have removed := removed_of_reaches (takes.removed stored) reaches
    have counts := (invariant_of_reaches
      ((takes.reachable reachable).trans reaches)).counts connection
    have removedCount := List.count_pos_iff.mpr removed
    have closedCount := List.count_pos_iff.mpr closed
    omega
  case taken =>
    intro party later takes kind connection stored last reaches
    have taken := taken_of_reaches
      (Multiset.mem_add.mpr (.inl (takes.held kind stored))) reaches
    have reachableLast : system.Reachable initial last :=
      (takes.reachable reachable).trans reaches
    have counts := (invariant_of_reaches reachableLast).counts connection
    exact ⟨by omega, closed_of_taken reachableLast taken⟩

/-- Two connections are registered, one is removed, the other is closed by `CloseAll` while a
third one is registered. -/
def removeAndClose : List (Event Outcome Call) :=
  [.outside (.registerClose ⟨0, some 10, none, some 20⟩),
    .outside (.registerClose ⟨0, some 11, none, none⟩), .turn 0 {}, .turn 1 {},
    .outside (.remove 2), .turn 2 {}, .outside .closeAll, .turn 3 {}, .turn 3 {},
    .outside (.registerClose ⟨0, some 12, none, none⟩), .turn 5 {}, .turn 4 { active := true },
    .turn 3 {}]

theorem kept_of_reachable_example : ∃ pool,
    removeAndClose.foldlM system.step initial = some pool ∧
      pool.shared.closed = [⟨1, 0, 10, .made, .passed 20⟩] ∧ Kept pool := by
  rcases run : removeAndClose.foldlM system.step initial with _ | pool
  · cases run
  · refine ⟨pool, rfl, ?_, kept_of_reachable (System.reaches_of_run run)⟩
    cases run
    rfl

end Wan.Web.ConnectionRegistry
