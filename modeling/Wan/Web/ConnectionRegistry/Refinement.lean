import Mathlib.Logic.Relation
import Wan.Web.ConnectionRegistry.Closing
import Wan.Web.Server.Model

/-!
# The registry of the server

The model of the server lists the entries of its registry by their ids only.  Each section of
the registry does to the ids what the server's model does to its list, so whatever a run of the
registry comes to, the list of the server comes to as well.
-/

namespace Wan.Web.ConnectionRegistry

open Wan.Library

/-- The list of the server's model holds the ids of the entries, in any order. -/
structure Represents (registry : Server.ConnectionRegistry) (shared : State) : Prop where
  connections : registry.connections.Perm (shared.connections.toList.map Connection.id)
  nextId : registry.nextId = shared.nextId

/-- What a section does to the registry of the server's model. -/
inductive Section (registry : Server.ConnectionRegistry) : Server.ConnectionRegistry → Prop where
  | registers {id later} (entered : registry.registerClose = some (id, later)) :
      Section registry later
  | skips (available : registry.nextId ≠ 0) : Section registry registry.skipId
  | removes (id : UInt64) : Section registry (registry.remove id)
  | takes : Section registry { registry with connections := [] }

section Sections

variable {registry : Server.ConnectionRegistry} {shared later : State} {id : UInt64}
  {registration : Registration} {close : Nat} {party : Party} {left : List Party}
  {others : Multiset Party}

theorem represents_initial : Represents ⟨[], 1⟩ initial.shared := ⟨List.Perm.refl _, rfl⟩

theorem registers_represents (represents : Represents registry shared)
    (invariant : Invariant shared others) (available : shared.nextId ≠ 0) :
    ∃ entered, registry.registerClose = some (shared.nextId, entered) ∧
      Represents entered
        { shared with
          connections := shared.connections.insert (registration.connection shared.nextId close)
          nextId := shared.nextId + 1
          registered := shared.registered ++ [registration.connection shared.nextId close] } := by
  have absent : shared.connections.find? (registration.connection shared.nextId close).id = none :=
    find?_nextId invariant.accounted invariant.numbered available
  rw [Server.ConnectionRegistry.registerClose, represents.nextId, if_neg available]
  refine ⟨_, rfl, ?_, rfl⟩
  rw [InsertionMap.insert_of_none absent, List.map_append, List.map_singleton]
  exact (represents.connections.cons _).trans (List.perm_append_singleton ..).symm

theorem skip_represents (represents : Represents registry shared) :
    Represents registry.skipId { shared with nextId := shared.nextId + 1 } where
  connections := represents.connections
  nextId := congrArg (· + 1) represents.nextId

theorem remove_represents (represents : Represents registry shared) :
    Represents (registry.remove id) (shared.remove id) := by
  have erased : (registry.remove id).connections.Perm
      ((shared.connections.erase id).toList.map Connection.id) := by
    have kept := represents.connections.filter fun other => decide (other ≠ id)
    rw [List.filter_map] at kept
    exact kept
  unfold State.remove
  split
  next absent =>
    rw [InsertionMap.erase_of_none absent] at erased
    exact ⟨erased, represents.nextId⟩
  next => exact ⟨erased, represents.nextId⟩

theorem take_represents (represents : Represents registry shared) :
    Represents { registry with connections := [] } { shared with connections := .empty } where
  connections := List.Perm.refl []
  nextId := represents.nextId

/-- A turn is a section of the server's model, or leaves its list as it is. -/
theorem Turned.represents (turned : Turned shared party later left)
    (invariant : Invariant shared others) (represents : Represents registry shared) :
    ∃ after, Relation.ReflGen Section registry after ∧ Represents after later := by
  cases turned with
  | registers available given =>
      rcases registers_represents represents invariant available with ⟨after, entered, holds⟩
      exact ⟨after, .single (.registers entered), holds⟩
  | skips available =>
      rw [← represents.nextId] at available
      exact ⟨_, .single (.skips available), skip_represents represents⟩
  | @removes id => exact ⟨_, .single (.removes id), remove_represents represents⟩
  | takes | takesNow => exact ⟨_, .single .takes, take_represents represents⟩
  | refused | ends | endsNow | dispatches => exact ⟨registry, .refl, represents⟩
  | closesNow | closes => exact ⟨registry, .refl, represents.connections, represents.nextId⟩

end Sections

/-- Whatever a run of the registry comes to, the server's list comes to by its sections. -/
theorem represented_of_reachable {pool : Pool State Party}
    (reachable : system.Reachable initial pool) :
    ∃ registry, Relation.ReflTransGen Section ⟨[], 1⟩ registry ∧
      Represents registry pool.shared := by
  apply reachable.invariant Invariant (fun shared _ =>
    ∃ registry, Relation.ReflTransGen Section ⟨[], 1⟩ registry ∧ Represents registry shared)
  · exact fun _ => invariant_of_reaches
  · exact ⟨_, .refl, represents_initial⟩
  · intro shared later acting left others change invariant _ represented
    rcases represented with ⟨registry, comes, represents⟩
    cases change with
    | turn party outcome allowed taken =>
        rcases (turn_turned taken).represents invariant represents with ⟨after, sections, holds⟩
        exact ⟨after, comes.trans sections.to_reflTransGen, holds⟩
    | outside call taken =>
        cases taken
        exact ⟨registry, comes, represents⟩

end Wan.Web.ConnectionRegistry
