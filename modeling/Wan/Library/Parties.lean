import Mathlib.Algebra.Ring.Nat
import Mathlib.Data.Multiset.Bind

/-!
# Parties that take turns

A pool is a shared state and the parties that run over it.  A party is what is left of
its program; one turn of it changes the shared state and puts what is left of the party,
and what it has spawned, in its place.  A run is any order of turns and of events from
outside, so invariants speak about the parties as a multiset.
-/

namespace Wan.Library

/-- A shared state and the parties that still have something to do. -/
structure Pool (S P : Type) where
  shared : S
  parties : List P
  deriving DecidableEq

/-- What a turn of a party does when it ends with an outcome, and what comes from
outside. `none` is a turn that is not possible now. -/
structure System (S P O E : Type) where
  turn : S → P → O → Option (S × List P)
  outside : S → E → Option (S × List P)

/-- A turn of the party at an index, or something from outside. -/
inductive Event (O E : Type) where
  | turn (index : Nat) (outcome : O)
  | outside (event : E)

namespace System

variable {S P O E : Type} (system : System S P O E)

/-- One step of a pool. -/
def step (pool : Pool S P) : Event O E → Option (Pool S P)
  | .turn index outcome => do
      let party ← pool.parties[index]?
      let (shared, left) ← system.turn pool.shared party outcome
      return ⟨shared, pool.parties.take index ++ left ++ pool.parties.drop (index + 1)⟩
  | .outside event => do
      let (shared, arrived) ← system.outside pool.shared event
      return ⟨shared, pool.parties ++ arrived⟩

/-- What one step, whose turn meets a condition, does to the shared state and to the parties
that act in it: one party in a turn, none in what comes from outside. -/
inductive Change (condition : S → P → O → Prop) : S → List P → S → List P → Prop where
  | turn {shared later : S} {left : List P} (party : P) (outcome : O)
      (allowed : condition shared party outcome)
      (taken : system.turn shared party outcome = some (later, left)) :
      Change condition shared [party] later left
  | outside {shared later : S} {arrived : List P} (event : E)
      (taken : system.outside shared event = some (later, arrived)) :
      Change condition shared [] later arrived

/-- The turn that the event is meets the condition. -/
def Meets (condition : S → P → O → Prop) (pool : Pool S P) : Event O E → Prop
  | .turn index outcome =>
      ∀ party, pool.parties[index]? = some party → condition pool.shared party outcome
  | .outside _ => True

/-- The pools that a run reaches whose turns all meet a condition. -/
inductive Reaches (condition : S → P → O → Prop) (first : Pool S P) : Pool S P → Prop where
  | start : Reaches condition first first
  | step {pool later : Pool S P} {event : Event O E} (earlier : Reaches condition first pool)
      (meets : Meets condition pool event) (taken : system.step pool event = some later) :
      Reaches condition first later

/-- The pools that some run reaches. -/
abbrev Reachable (first : Pool S P) : Pool S P → Prop := system.Reaches (fun _ _ _ => True) first

/-- The pool before a turn that meets the condition, and the pool after it. -/
def Turns (condition : S → P → O → Prop) (pool later : Pool S P) : Prop :=
  ∃ index outcome, Meets condition pool (.turn index outcome : Event O E) ∧
    system.step pool (.turn index outcome) = some later

variable {system} {condition : S → P → O → Prop} {first pool later : Pool S P}

theorem meets_true (event : Event O E) : Meets (fun _ _ _ => True) pool event := by
  cases event with
  | turn index outcome => exact fun _ _ => trivial
  | outside event => trivial

instance [∀ shared party outcome, Decidable (condition shared party outcome)]
    (event : Event O E) : Decidable (Meets condition pool event) :=
  match event with
  | .turn index outcome =>
      inferInstanceAs
        (Decidable (∀ party ∈ pool.parties[index]?, condition pool.shared party outcome))
  | .outside _ => inferInstanceAs (Decidable True)

variable (system condition) in
/-- One step of a pool whose turn has to meet a condition. -/
def meetingStep [∀ shared party outcome, Decidable (condition shared party outcome)]
    (pool : Pool S P) (event : Event O E) : Option (Pool S P) :=
  if Meets condition pool event then system.step pool event else none

/-- A run that meets the condition and evaluates to a pool reaches it. -/
theorem reaches_of_meeting [∀ shared party outcome, Decidable (condition shared party outcome)]
    (events : List (Event O E))
    (run : events.foldlM (system.meetingStep condition) first = some pool) :
    system.Reaches condition first pool := by
  induction events using List.reverseRecOn generalizing pool with
  | nil =>
      cases run
      exact .start
  | append_singleton events event ih =>
      rw [List.foldlM_append] at run
      rcases Option.bind_eq_some_iff.mp run with ⟨middle, earlier, last⟩
      rw [List.foldlM_cons] at last
      rcases Option.bind_eq_some_iff.mp last with ⟨reached, taken, done⟩
      cases done
      rw [meetingStep] at taken
      split at taken
      next meets => exact .step (ih earlier) meets taken
      next => cases taken

/-- A run that evaluates to a pool reaches it. -/
theorem reaches_of_run {events : List (Event O E)}
    (run : events.foldlM system.step first = some pool) : system.Reachable first pool := by
  apply reaches_of_meeting events
  rw [← run]
  congr 1
  funext pool event
  exact if_pos (meets_true event)

theorem Reaches.reachable (reaches : system.Reaches condition first pool) :
    system.Reachable first pool := by
  induction reaches with
  | start => exact .start
  | step _ _ taken ih => exact .step ih (meets_true _) taken

theorem Reaches.trans (earlier : system.Reaches condition first pool)
    (more : system.Reaches condition pool later) : system.Reaches condition first later := by
  induction more with
  | start => exact earlier
  | step _ meets taken ih => exact .step ih meets taken

theorem Reaches.turn (reaches : system.Reaches condition first pool)
    (turned : system.Turns condition pool later) : system.Reaches condition first later := by
  rcases turned with ⟨index, outcome, meets, taken⟩
  exact .step reaches meets taken

/-- A turn of a party replaces it by what is left of it. -/
theorem turn_cases {index : Nat} {outcome : O} {party : P}
    (found : pool.parties[index]? = some party)
    (taken : system.step pool (.turn index outcome) = some later) :
    ∃ (left : List P) (others : Multiset P), (pool.parties : Multiset P) = ↑[party] + others ∧
      system.turn pool.shared party outcome = some (later.shared, left) ∧
      (later.parties : Multiset P) = left + others := by
  rw [step] at taken
  simp only [found, Option.bind_eq_bind, Option.bind_some] at taken
  rcases Option.bind_eq_some_iff.mp taken with ⟨⟨shared, left⟩, turned, done⟩
  cases done
  rcases List.getElem?_eq_some_iff.mp found with ⟨bound, at_index⟩
  have split : pool.parties =
      pool.parties.take index ++ party :: pool.parties.drop (index + 1) := by
    rw [← at_index, List.cons_getElem_drop_succ, List.take_append_drop]
  refine ⟨left, ↑(pool.parties.take index) + ↑(pool.parties.drop (index + 1)), ?_, turned, ?_⟩
  · conv_lhs => rw [split]
    simp only [Multiset.coe_add, Multiset.coe_eq_coe]
    exact List.perm_middle
  · simp only [Multiset.coe_add, Multiset.coe_eq_coe, List.append_assoc]
    rw [← List.append_assoc, ← List.append_assoc]
    exact List.perm_append_comm.append_right _

/-- A turn replaces one party by what is left of it. -/
theorem Turns.cases (turned : system.Turns condition pool later) :
    ∃ (party : P) (outcome : O) (left : List P) (others : Multiset P),
      (pool.parties : Multiset P) = ↑[party] + others ∧
      system.turn pool.shared party outcome = some (later.shared, left) ∧
      (later.parties : Multiset P) = left + others ∧ condition pool.shared party outcome := by
  rcases turned with ⟨index, outcome, meets, taken⟩
  have turning := taken
  rw [step] at turning
  rcases Option.bind_eq_some_iff.mp turning with ⟨party, found, -⟩
  rcases turn_cases found taken with ⟨left, others, before, turned, after⟩
  exact ⟨party, outcome, left, others, before, turned, after, meets party found⟩

/-- A step replaces the parties that act by what is left of them. -/
theorem step_cases {event : Event O E} (meets : Meets condition pool event)
    (taken : system.step pool event = some later) :
    ∃ (acting left : List P) (others : Multiset P),
      (pool.parties : Multiset P) = acting + others ∧
      system.Change condition pool.shared acting later.shared left ∧
      (later.parties : Multiset P) = left + others := by
  cases event with
  | turn index outcome =>
      have turned : system.Turns condition pool later := ⟨index, outcome, meets, taken⟩
      rcases turned.cases with ⟨party, outcome, left, others, before, turned, after, allowed⟩
      exact ⟨[party], left, others, before, .turn party outcome allowed turned, after⟩
  | outside event =>
      rw [step] at taken
      rcases Option.bind_eq_some_iff.mp taken with ⟨⟨shared, arrived⟩, came, done⟩
      cases done
      refine ⟨[], arrived, pool.parties, ?_, .outside event came, ?_⟩
      · exact (zero_add _).symm
      · simp only [Multiset.coe_add, Multiset.coe_eq_coe]
        exact List.perm_append_comm

/-- What holds at first and is kept by every change holds in every pool that is reached.
`known` is what has been shown to hold in them before. -/
theorem Reaches.invariant (known inv : S → Multiset P → Prop)
    (reaches : system.Reaches condition first pool)
    (knows : ∀ pool, system.Reaches condition first pool → known pool.shared pool.parties)
    (holds : inv first.shared first.parties)
    (kept : ∀ {shared later : S} {acting left : List P} {others : Multiset P},
      system.Change condition shared acting later left →
      known shared (acting + others) → known later (left + others) →
      inv shared (acting + others) → inv later (left + others)) :
    inv pool.shared pool.parties := by
  induction reaches with
  | start => exact holds
  | step earlier meets taken ih =>
      rcases step_cases meets taken with ⟨acting, left, others, before, change, after⟩
      have knowsBefore := knows _ earlier
      have knowsAfter := knows _ (.step earlier meets taken)
      rw [before] at ih knowsBefore
      rw [after] at knowsAfter ⊢
      exact kept change knowsBefore knowsAfter ih

/-- A preorder that every change respects relates the shared states along a run. -/
theorem Reaches.related {relation : S → S → Prop} (reflexive : ∀ shared, relation shared shared)
    (transitive : ∀ {shared middle later},
      relation shared middle → relation middle later → relation shared later)
    (respected : ∀ {shared later : S} {acting left : List P},
      system.Change condition shared acting later left → relation shared later)
    (reaches : system.Reaches condition first pool) : relation first.shared pool.shared := by
  induction reaches with
  | start => exact reflexive _
  | step _ meets taken ih =>
      rcases step_cases meets taken with ⟨_, _, _, _, change, _⟩
      exact transitive ih (respected change)

/-- Without parties there is no turn. -/
theorem not_turns_of_nil (empty : pool.parties = []) : ¬system.Turns condition pool later := by
  rintro ⟨index, outcome, -, taken⟩
  simp [step, empty] at taken

/-- A party that can take a turn gives the pool a turn. -/
theorem exists_turns {party : P} {outcome : O} (member : party ∈ pool.parties)
    (allowed : condition pool.shared party outcome)
    (able : (system.turn pool.shared party outcome).isSome) :
    ∃ later, system.Turns condition pool later := by
  rcases Option.isSome_iff_exists.mp able with ⟨⟨shared, left⟩, taken⟩
  rcases List.getElem?_of_mem member with ⟨index, found⟩
  have stepped : system.step pool (.turn index outcome) =
      some ⟨shared, pool.parties.take index ++ left ++ pool.parties.drop (index + 1)⟩ := by
    simp [step, found, taken]
  refine ⟨_, index, outcome, ?_, stepped⟩
  intro other at_index
  rw [found] at at_index
  cases at_index
  exact allowed

end System

/-- Whatever moves are made, they come to a state of the goal, and no state before it is
without a move. -/
inductive Inevitable {C : Type} (moves : C → C → Prop) (goal : C → Prop) : C → Prop where
  | now {state : C} (reached : goal state) : Inevitable moves goal state
  | later {state : C} (able : ∃ next, moves state next)
      (each : ∀ next, moves state next → Inevitable moves goal next) : Inevitable moves goal state

namespace Inevitable

variable {C : Type} {moves : C → C → Prop} {goal : C → Prop}

/-- Moves that keep an invariant, lower a measure and cannot end before the goal come to it. -/
theorem of_measure {state : C} (inv : C → Prop) (measure : C → Nat)
    (kept : ∀ {state next}, inv state → ¬goal state → moves state next → inv next)
    (able : ∀ {state}, inv state → ¬goal state → ∃ next, moves state next)
    (falls : ∀ {state next}, inv state → ¬goal state → moves state next →
      measure next < measure state)
    (holds : inv state) : Inevitable moves goal state := by
  by_cases reached : goal state
  · exact .now reached
  · apply later (able holds reached)
    intro next moved
    have smaller := falls holds reached moved
    exact of_measure inv measure kept able falls (kept holds reached moved)
termination_by measure state

/-- A state outside the goal without a move never comes to it. -/
theorem not_of_stuck {state : C} (outside : ¬goal state) (stuck : ∀ next, ¬moves state next) :
    ¬Inevitable moves goal state := by
  intro inevitable
  cases inevitable with
  | now reached => exact outside reached
  | later able each =>
      rcases able with ⟨next, moved⟩
      exact stuck next moved

end Inevitable

end Wan.Library
