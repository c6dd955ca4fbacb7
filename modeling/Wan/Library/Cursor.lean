import Mathlib.Data.List.Basic

/-!
# Cursors that step to and fro

A cursor stands at one of the positions of a sequence, the last of which is its end.  A step goes
to the next or to the previous position, and returns the cursor as it is after the step or a copy
of what it was before.  `itinerary` says what a sequence of steps does to positions; `trace` runs
the steps of an implementation.  An implementation that does what each single step should do runs
along the itinerary, and it leaves the itinerary with the first step that does not.
-/

namespace Wan.Library.Cursor

/-- The way a step goes. -/
inductive Move where
  | increment
  | decrement
  deriving DecidableEq, Repr

/-- What a step returns: the cursor after the step or a copy from before it. -/
inductive Form where
  | pre
  | post
  deriving DecidableEq, Repr

/-- A step of a cursor. -/
structure Step where
  move : Move
  form : Form
  deriving DecidableEq, Repr

/-- The position that a move leads to. -/
def Move.target : Move → Nat → Nat
  | .increment, position => position + 1
  | .decrement, position => position - 1

/-- A move leads from an element to an element or to the end. -/
def Move.Allowed (length : Nat) : Move → Nat → Prop
  | .increment, position => position < length
  | .decrement, position => 0 < position ∧ position < length

/-- The returned and the reached position of a step. -/
def Step.result (step : Step) (position : Nat) : Nat × Nat :=
  match step.form with
  | .pre => (step.move.target position, step.move.target position)
  | .post => (position, step.move.target position)

/-- Every step of a sequence is allowed where it is taken. -/
def Allowed (length : Nat) : Nat → List Step → Prop
  | _, [] => True
  | position, step :: steps =>
      step.move.Allowed length position ∧ Allowed length (step.move.target position) steps

/-- The results of a sequence of steps. -/
def itinerary : Nat → List Step → List (Nat × Nat)
  | _, [] => []
  | position, step :: steps =>
      step.result position :: itinerary (step.move.target position) steps

variable {It : Type}

/-- The cursors that an implementation returns and reaches in a sequence of steps. -/
def trace (perform : Step → It → Option (It × It)) : It → List Step → Option (List (It × It))
  | _, [] => some []
  | cursor, step :: steps => do
      let result ← perform step cursor
      return result :: (← trace perform result.2 steps)

section Positions

variable {perform : Step → It → Option (It × It)} {place : Nat → It} {length : Nat}

/-- The cursors at two positions. -/
def placed (place : Nat → It) (positions : Nat × Nat) : It × It :=
  positions.map place place

@[simp] theorem placed_snd (positions : Nat × Nat) :
    (placed place positions).2 = place positions.2 := rfl

@[simp] theorem Step.result_snd (step : Step) (position : Nat) :
    (step.result position).2 = step.move.target position := by
  rcases step with ⟨move, form⟩
  cases form <;> rfl

/-- A trace is the itinerary exactly if every step does what it should, given which steps do so
where they are allowed. -/
theorem trace_eq_iff {good : Step → Prop}
    (single : ∀ step position, step.move.Allowed length position →
      (perform step (place position) = some (placed place (step.result position)) ↔ good step))
    {position : Nat} {steps : List Step} (allowed : Allowed length position steps) :
    trace perform (place position) steps =
        some ((itinerary position steps).map (placed place)) ↔
      ∀ step ∈ steps, good step := by
  induction steps generalizing position with
  | nil => simp [trace, itinerary]
  | cons step steps ih =>
      rw [List.forall_mem_cons, ← single step position allowed.1, ← ih allowed.2]
      have there : (placed place (step.result position)).2 =
          place (step.move.target position) := congrArg place (step.result_snd position)
      constructor
      · intro traced
        rcases Option.bind_eq_some_iff.mp traced with ⟨result, performed, rest⟩
        rcases Option.bind_eq_some_iff.mp rest with ⟨cursors, tail, same⟩
        rw [itinerary, List.map_cons, Option.pure_def, Option.some.injEq, List.cons.injEq] at same
        rcases same with ⟨rfl, rfl⟩
        exact ⟨performed, there ▸ tail⟩
      · rintro ⟨performed, tail⟩
        simp [trace, performed, tail, itinerary]

/-- An implementation whose every allowed step does what it should runs along the itinerary. -/
theorem trace_eq (single : ∀ step position, step.move.Allowed length position →
      perform step (place position) = some (placed place (step.result position)))
    {position : Nat} {steps : List Step} (allowed : Allowed length position steps) :
    trace perform (place position) steps =
      some ((itinerary position steps).map (placed place)) :=
  have all (step : Step) (position : Nat) (fits : step.move.Allowed length position) :
      perform step (place position) = some (placed place (step.result position)) ↔ True :=
    iff_true_intro (single step position fits)
  (trace_eq_iff all allowed).mpr fun _ _ => trivial

theorem allowed_increments (forms : List Form) {position : Nat}
    (within : position + forms.length ≤ length) :
    Allowed length position (forms.map (⟨.increment, ·⟩)) := by
  induction forms generalizing position with
  | nil => trivial
  | cons form forms ih =>
      rw [List.length_cons, ← Nat.add_assoc, Nat.add_right_comm] at within
      exact ⟨Nat.lt_of_lt_of_le (Nat.lt_succ_self _) (Nat.le_trans (Nat.le_add_right ..) within),
        ih within⟩

theorem itinerary_increments (forms : List Form) (position : Nat) :
    (itinerary position (forms.map (⟨.increment, ·⟩))).map Prod.snd =
      List.range' (position + 1) forms.length := by
  induction forms generalizing position with
  | nil => rfl
  | cons form forms ih =>
      simp only [List.map_cons, itinerary, Step.result_snd, Move.target, ih, List.length_cons,
        List.range'_succ]

/-- The cursors that a trace along the itinerary reaches. -/
theorem map_snd_placed (results : List (Nat × Nat)) :
    (results.map (placed place)).map Prod.snd = (results.map Prod.snd).map place := by
  rw [List.map_map, List.map_map]
  rfl

end Positions

/-- Every allowed step does what it should; so the increments from the first position visit all
positions in turn up to the end, and between two elements a move undoes the opposite one. -/
structure Sweeps (perform : Step → It → Option (It × It)) (place : Nat → It) (length : Nat) :
    Prop where
  steps : ∀ step position, step.move.Allowed length position →
    perform step (place position) = some (placed place (step.result position))
  visits : ∀ forms : List Form, forms.length = length →
    ∃ results, trace perform (place 0) (forms.map (⟨.increment, ·⟩)) = some results ∧
      results.map Prod.snd = (List.range' 1 length).map place
  undoes : ∀ position, position + 1 < length → ∀ there back : Form,
    ∃ results, trace perform (place position) [⟨.increment, there⟩, ⟨.decrement, back⟩] =
        some results ∧
      results.map Prod.snd = [place (position + 1), place position]
  redoes : ∀ position, position + 1 < length → ∀ there back : Form,
    ∃ results, trace perform (place (position + 1)) [⟨.decrement, there⟩, ⟨.increment, back⟩] =
        some results ∧
      results.map Prod.snd = [place position, place (position + 1)]

/-- Single steps that do what they should make an implementation sweep the positions. -/
theorem sweeps_of_steps {perform : Step → It → Option (It × It)} {place : Nat → It} {length : Nat}
    (steps : ∀ step position, step.move.Allowed length position →
      perform step (place position) = some (placed place (step.result position))) :
    Sweeps perform place length where
  steps := steps
  visits := by
    intro forms whole
    refine ⟨_, trace_eq steps (allowed_increments forms (by simp [whole])), ?_⟩
    rw [map_snd_placed, itinerary_increments, whole]
  undoes := by
    intro position within there back
    refine ⟨_, trace_eq steps
      ⟨Nat.lt_of_succ_lt within, ⟨Nat.succ_pos _, within⟩, trivial⟩, ?_⟩
    simp [itinerary, Move.target]
  redoes := by
    intro position within there back
    refine ⟨_, trace_eq steps
      ⟨⟨Nat.succ_pos _, within⟩, Nat.lt_of_succ_lt within, trivial⟩, ?_⟩
    simp [itinerary, Move.target]

end Wan.Library.Cursor
