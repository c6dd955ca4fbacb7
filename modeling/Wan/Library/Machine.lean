import Mathlib.Data.List.Induction

/-!
# Machines that take events

A machine is given by what an event does to its state.  A run is any sequence of possible
events; a condition on the events may be put on all of them.  A trail is the list of the events
of a run, for machines whose events are what can be seen of them from outside.
-/

namespace Wan.Library.Machine

variable {S E : Type}

/-- The states that a run reaches whose events all meet a condition. `none` is an event that
is not possible now. -/
inductive Reaches (step : S → E → Option S) (condition : S → E → Prop) (first : S) : S → Prop where
  | start : Reaches step condition first first
  | step {state later : S} {event : E} (earlier : Reaches step condition first state)
      (meets : condition state event) (taken : step state event = some later) :
      Reaches step condition first later

/-- One step, whose event has to meet a condition. -/
def meetingStep (step : S → E → Option S) (condition : S → E → Prop)
    [∀ state event, Decidable (condition state event)] (state : S) (event : E) : Option S :=
  if condition state event then step state event else none

variable {step : S → E → Option S} {condition other : S → E → Prop} {first state : S}

/-- A run that meets the condition and evaluates to a state reaches it. -/
theorem reaches_of_meeting [∀ state event, Decidable (condition state event)] (events : List E)
    (run : events.foldlM (meetingStep step condition) first = some state) :
    Reaches step condition first state := by
  induction events using List.reverseRecOn generalizing state with
  | nil =>
      cases run
      exact .start
  | append_singleton events event ih =>
      rw [List.foldlM_append] at run
      rcases Option.bind_eq_some_iff.mp run with ⟨middle, earlier, last⟩
      rw [List.foldlM_cons] at last
      rcases Option.bind_eq_some_iff.mp last with ⟨reached, taken, done⟩
      cases done
      rw [meetingStep] at taken
      split at taken
      next meets => exact .step (ih earlier) meets taken
      next => cases taken

/-- What holds at first and is kept by every event holds in every state that is reached. -/
theorem Reaches.invariant {holds : S → Prop} (start : holds first)
    (kept : ∀ {state later event}, condition state event → step state event = some later →
      holds state → holds later)
    (reaches : Reaches step condition first state) : holds state := by
  induction reaches with
  | start => exact start
  | step _ meets taken ih => exact kept meets taken ih

section Trail

/-- The events that lead from one state to another. -/
inductive Trail (moves : S → E → S → Prop) (first : S) : List E → S → Prop where
  | nil : Trail moves first [] first
  | snoc {events : List E} {event : E} {state last : S} (earlier : Trail moves first events state)
      (moved : moves state event last) : Trail moves first (events ++ [event]) last

variable {moves : S → E → S → Prop} {events : List E} {event : E} {middle last : S}

/-- A trail may be read from its first event on. -/
theorem Trail.cons (moved : moves first event middle) (rest : Trail moves middle events last) :
    Trail moves first (event :: events) last := by
  induction rest with
  | nil => exact .snoc .nil moved
  | snoc earlier later ih => exact .snoc ih later

/-- What every event of a trail has. -/
theorem Trail.forall_mem {property : E → Prop}
    (each : ∀ {state event last}, moves state event last → property event)
    (trail : Trail moves first events last) : ∀ event ∈ events, property event := by
  induction trail with
  | nil => exact fun _ member => absurd member List.not_mem_nil
  | snoc earlier moved ih =>
      rw [List.forall_mem_append, List.forall_mem_singleton]
      exact ⟨ih, each moved⟩

end Trail

end Wan.Library.Machine
