import Mathlib.Tactic.Abel
import Wan.Web.ConnectionRegistry.Turns

/-!
# The bookkeeping of the registry

Every id that was handed out is in one place at a time.  From this follow that nothing is
closed twice, that what was removed is not closed, and, as every call that goes on comes to
its end, that what was taken is closed.
-/

namespace Wan.Web.ConnectionRegistry

open Wan.Library

/-- Every connection whose id was handed out is in one place. -/
def Accounted (shared : State) (parties : Multiset Party) : Prop :=
  (shared.registered : Multiset Connection) =
    shared.connections.toList + shared.removed + (held parties + shared.closed)

/-- The ids that were handed out. -/
def State.ids (shared : State) : List UInt64 := shared.registered.map Connection.id

/-- The ids that were handed out are not zero, and smaller than the next one unless there is
none. -/
structure Numbered (shared : State) : Prop where
  distinct : shared.ids.Nodup
  positive : ∀ id ∈ shared.ids, id ≠ 0
  smaller : ∀ id ∈ shared.ids, shared.nextId = 0 ∨ id < shared.nextId

/-- What holds of a registry and its parties. -/
structure Invariant (shared : State) (parties : Multiset Party) : Prop where
  accounted : Accounted shared parties
  numbered : Numbered shared
  handed : (shared.ids : Multiset UInt64) = handed parties

section Turn

variable {shared later : State} {party : Party} {left : List Party} {others : Multiset Party}

/-- The next id is greater than what the last one was not smaller than, or there is none. -/
theorem lt_next {id next : UInt64} (notGreater : id ≤ next) : next + 1 = 0 ∨ id < next + 1 := by
  rw [UInt64.le_iff_toNat_le] at notGreater
  rw [UInt64.lt_iff_toNat_lt, ← UInt64.toNat_inj, UInt64.toNat_add]
  have bound := next.toNat_lt
  change (next.toNat + 1) % 2 ^ 64 = 0 ∨ id.toNat < (next.toNat + 1) % 2 ^ 64
  omega

theorem Numbered.lt (numbered : Numbered shared) (available : shared.nextId ≠ 0) {id : UInt64}
    (member : id ∈ shared.ids) : id < shared.nextId :=
  (numbered.smaller id member).resolve_left available

theorem Numbered.skip (numbered : Numbered shared) (available : shared.nextId ≠ 0) :
    Numbered { shared with nextId := shared.nextId + 1 } where
  distinct := numbered.distinct
  positive := numbered.positive
  smaller _ member := lt_next (UInt64.le_of_lt (numbered.lt available member))

theorem Numbered.register {connection : Connection} {connections : InsertionMap Connection.id}
    (numbered : Numbered shared) (available : shared.nextId ≠ 0)
    (numberedBy : connection.id = shared.nextId) :
    Numbered
      { shared with
        connections
        nextId := shared.nextId + 1
        registered := shared.registered ++ [connection] } where
  distinct := by
    rw [State.ids, List.map_append, List.nodup_append]
    refine ⟨numbered.distinct, List.nodup_singleton _, ?_⟩
    intro id member other single
    rw [List.map_singleton, List.mem_singleton, numberedBy] at single
    rw [single]
    exact UInt64.ne_of_lt (numbered.lt available member)
  positive := by
    rw [State.ids, List.map_append, List.forall_mem_append, List.map_singleton,
      List.forall_mem_singleton, numberedBy]
    exact ⟨numbered.positive, available⟩
  smaller := by
    rw [State.ids, List.map_append, List.forall_mem_append, List.map_singleton,
      List.forall_mem_singleton, numberedBy]
    refine ⟨?_, lt_next (UInt64.le_refl _)⟩
    intro id member
    exact lt_next (UInt64.le_of_lt (numbered.lt available member))

/-- The id that comes next is not in the table. -/
theorem find?_nextId (accounted : Accounted shared others) (numbered : Numbered shared)
    (available : shared.nextId ≠ 0) : shared.connections.find? shared.nextId = none := by
  rw [InsertionMap.find?_eq_none]
  intro connection stored same
  have registered : connection ∈ (shared.registered : Multiset Connection) := by
    rw [accounted, Multiset.mem_add, Multiset.mem_add]
    exact .inl (.inl stored)
  have smaller := numbered.lt available (List.mem_map_of_mem registered)
  rw [same] at smaller
  exact UInt64.lt_irrefl _ smaller

/-- Every connection stays in one place. -/
theorem Turned.accounted (turned : Turned shared party later left)
    (numbered : Numbered shared) (accounted : Accounted shared (↑[party] + others)) :
    Accounted later (left + others) := by
  have free := find?_nextId accounted numbered
  rw [Accounted, held_add, held_cons, held_nil] at accounted
  rw [Accounted, held_add]
  cases turned with
  | refused | skips | ends | endsNow => exact accounted
  | @registers registration close available given =>
      have absent : shared.connections.find?
          (registration.connection shared.nextId close).id = none := free available
      rw [← Multiset.coe_add, accounted, InsertionMap.insert_of_none absent, ← Multiset.coe_add]
      simp only [Party.held, held_cons, held_nil]
      abel
  | @removes id =>
      have same : (shared.remove id).registered = shared.registered ∧
          (shared.remove id).closed = shared.closed := by
        unfold State.remove
        split <;> exact ⟨rfl, rfl⟩
      rw [same.1, same.2, coe_remove]
      exact accounted
  | takes | takesNow =>
      rw [accounted]
      simp only [Party.held, held_cons, InsertionMap.empty, Multiset.coe_nil]
      abel
  | dispatches found =>
      rw [accounted]
      simp only [Party.held, held_cons, held_nil]
      rw [coe_eraseIdx found]
      abel
  | closesNow found =>
      rw [State.close, accounted, ← Multiset.coe_add]
      simp only [Party.held, held_cons, held_nil]
      rw [coe_eraseIdx found]
      abel
  | closes =>
      rw [State.close, accounted, ← Multiset.coe_add]
      simp only [Party.held, held_nil]
      abel

theorem remove_registered {id : UInt64} : (shared.remove id).registered = shared.registered := by
  unfold State.remove
  split <;> rfl

theorem Turned.handed (turned : Turned shared party later left)
    (handedOut : (shared.ids : Multiset UInt64) = handed (↑[party] + others)) :
    (later.ids : Multiset UInt64) = Wan.Web.ConnectionRegistry.handed (left + others) := by
  rw [handed_add, handed_cons, handed_nil, State.ids] at handedOut
  rw [handed_add, State.ids]
  cases turned with
  | registers available given =>
      rw [List.map_append, ← Multiset.coe_add, handedOut, List.map_singleton]
      simp only [Party.handed, handed_cons, Multiset.coe_nil, Registration.connection]
      abel
  | removes =>
      rw [remove_registered]
      exact handedOut
  | refused | skips | takes | takesNow | ends | endsNow | dispatches | closesNow | closes =>
      exact handedOut

theorem Turned.numbered (turned : Turned shared party later left) (numbered : Numbered shared) :
    Numbered later := by
  cases turned with
  | skips available => exact numbered.skip available
  | registers available given => exact numbered.register available rfl
  | removes =>
      unfold State.remove
      split <;> exact ⟨numbered.distinct, numbered.positive, numbered.smaller⟩
  | refused | takes | takesNow | ends | endsNow | dispatches | closesNow | closes =>
      exact ⟨numbered.distinct, numbered.positive, numbered.smaller⟩

theorem Turned.invariant (turned : Turned shared party later left)
    (invariant : Invariant shared (↑[party] + others)) : Invariant later (left + others) where
  accounted := turned.accounted invariant.numbered invariant.accounted
  numbered := turned.numbered invariant.numbered
  handed := turned.handed invariant.handed

/-- What was removed stays so. -/
theorem Turned.removed {connection : Connection} (turned : Turned shared party later left)
    (removed : connection ∈ shared.removed) : connection ∈ later.removed := by
  cases turned with
  | removes =>
      unfold State.remove
      split
      · exact removed
      · exact List.mem_append_left _ removed
  | refused | skips | registers | takes | takesNow | ends | endsNow | dispatches | closesNow
  | closes => exact removed

/-- What is in the table stays there until it is removed or taken. -/
theorem Turned.stays {connection : Connection} (turned : Turned shared party later left)
    (untaken : party ≠ .closeAll .lock) (untakenNow : party ≠ .closeAllNow .lock)
    (unremoved : party ≠ .remove connection.id)
    (stored : connection ∈ shared.connections.toList) : connection ∈ later.connections.toList := by
  cases turned with
  | takes => exact absurd rfl untaken
  | takesNow => exact absurd rfl untakenNow
  | registers available given => exact InsertionMap.mem_insert stored
  | @removes id =>
      have other : connection.id ≠ id := fun same => unremoved (congrArg Party.remove same.symm)
      unfold State.remove
      split
      · exact stored
      · exact List.mem_filter.mpr ⟨stored, decide_eq_true other⟩
  | refused | skips | ends | endsNow | dispatches | closesNow | closes => exact stored

/-- What a party has taken is still taken, or closed. -/
theorem Turned.held_le (turned : Turned shared party later left) :
    held ↑[party] + (shared.closed : Multiset Connection) ≤ held ↑left + later.closed := by
  rw [held_cons, held_nil, add_zero]
  cases turned with
  | removes =>
      unfold State.remove
      split <;> exact le_rfl
  | dispatches found =>
      simp only [Party.held, held_cons, held_nil, coe_eraseIdx found]
      rfl
  | closesNow found =>
      simp only [State.close, Party.held, held_cons, held_nil, coe_eraseIdx found,
        ← Multiset.coe_add]
      apply le_of_eq
      abel
  | closes =>
      simp only [State.close, Party.held, held_nil, ← Multiset.coe_add]
      apply le_of_eq
      abel
  | refused | skips | registers | ends | endsNow => exact le_rfl
  | takes | takesNow =>
      simp only [Party.held, Multiset.coe_nil, zero_add]
      exact Multiset.le_add_left ..

theorem Turned.taken {connection : Connection} (turned : Turned shared party later left)
    (taken : connection ∈ held (↑[party] + others) + shared.closed) :
    connection ∈ held (left + others) + later.closed := by
  rw [held_add, add_right_comm] at taken ⊢
  rcases Multiset.mem_add.mp taken with here | elsewhere
  · exact Multiset.mem_add.mpr (.inl (Multiset.mem_of_le turned.held_le here))
  · exact Multiset.mem_add.mpr (.inr elsewhere)

end Turn

section Runs

variable {condition : State → Party → Outcome → Prop} {pool later last : Pool State Party}
  {connection : Connection}

/-- A call that arrives holds nothing. -/
theorem held_call (call : Call) : held ↑[call.party] = 0 := by
  cases call <;> rfl

/-- A call that arrives has returned nothing. -/
theorem handed_call (call : Call) : handed ↑[call.party] = 0 := by
  cases call <;> rfl

theorem invariant_of_reaches (reaches : system.Reaches condition initial pool) :
    Invariant pool.shared pool.parties := by
  apply reaches.invariant (fun _ _ => True) Invariant (fun _ _ => trivial)
  · exact ⟨rfl, ⟨List.nodup_nil, List.forall_mem_nil _, List.forall_mem_nil _⟩, rfl⟩
  · intro shared later acting left others change _ _ invariant
    cases change with
    | turn party outcome allowed taken => exact (turn_turned taken).invariant invariant
    | outside call taken =>
        cases taken
        rw [Multiset.coe_nil, zero_add] at invariant
        rcases invariant with ⟨accounted, numbered, handedOut⟩
        refine ⟨?_, numbered, ?_⟩
        · rw [Accounted, held_add, held_call, zero_add]
          exact accounted
        · rw [handed_add, handed_call, zero_add]
          exact handedOut

theorem removed_of_reaches (removed : connection ∈ pool.shared.removed)
    (reaches : system.Reaches condition pool last) : connection ∈ last.shared.removed := by
  apply reaches.invariant (fun _ _ => True) (fun shared _ => connection ∈ shared.removed)
    (fun _ _ => trivial) removed
  intro shared later acting left others change _ _ removed
  cases change with
  | turn party outcome allowed taken => exact (turn_turned taken).removed removed
  | outside call taken =>
      cases taken
      exact removed

theorem taken_of_reaches (taken : connection ∈ held pool.parties + pool.shared.closed)
    (reaches : system.Reaches condition pool last) :
    connection ∈ held last.parties + last.shared.closed := by
  apply reaches.invariant (fun _ _ => True)
    (fun shared parties => connection ∈ held parties + shared.closed) (fun _ _ => trivial) taken
  intro shared later acting left others change _ _ inside
  cases change with
  | turn party outcome allowed taken => exact (turn_turned taken).taken inside
  | outside call taken =>
      cases taken
      rw [Multiset.coe_nil, zero_add] at inside
      rw [held_add, held_call, zero_add]
      exact inside

end Runs

end Wan.Web.ConnectionRegistry
