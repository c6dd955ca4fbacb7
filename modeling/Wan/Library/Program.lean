import Mathlib.Logic.Basic

/-!
# Programs with state and exceptions

A program changes a state and ends with a value, with an exception that keeps the
changes made so far, or not at all.  `Runs` is total correctness: the program ends,
and each of the two ways to end has its own postcondition.
-/

namespace Wan.Library

/-- A computation over a state that may raise an exception or have no behaviour. -/
abbrev Program (σ ε α : Type) := ExceptT ε (StateT σ Option) α

namespace Program

variable {σ ε α β : Type}

/-- No behaviour: what follows a bad pointer. -/
def stuck : Program σ ε α := fun _ => none

/-- Raise an exception when a condition holds. -/
def refuse (condition : Prop) [Decidable condition] (exception : ε) : Program σ ε Unit :=
  if condition then throw exception else pure ()

/-- Run a body and, when it raises, a cleanup before the exception goes on. -/
def guarded (body : Program σ ε α) (cleanup : Program σ ε Unit) : Program σ ε α :=
  tryCatch body fun exception => do
    cleanup
    throw exception

/-- The value that is there, or an exception. -/
def require (exception : ε) : Option α → Program σ ε α
  | none => throw exception
  | some value => pure value

/-- Run a program on an object that is not part of the state, and yield the object afterwards. -/
def onLocal {τ : Type} (body : Program τ ε Unit) (object : τ) : Program σ ε τ := fun state =>
  match body.run.run object with
  | none => none
  | some (.ok _, later) => some (.ok later, state)
  | some (.error exception, _) => some (.error exception, state)

/-- Run a program on a part of the state. -/
def onPart {τ : Type} (part : σ → τ) (replace : σ → τ → σ) (body : Program τ ε α) :
    Program σ ε α := fun state =>
  match body.run.run (part state) with
  | none => none
  | some (outcome, later) => some (outcome, replace state later)

/-- The program ends, in a value and state that satisfy `post` or with an
exception and state that satisfy `raises`. -/
def Runs (program : Program σ ε α) (state : σ) (post : α → σ → Prop)
    (raises : ε → σ → Prop) : Prop :=
  match program.run.run state with
  | none => False
  | some (.ok value, next) => post value next
  | some (.error exception, next) => raises exception next

variable {state : σ} {program : Program σ ε α} {post : α → σ → Prop} {raises : ε → σ → Prop}

@[simp] theorem runs_pure {value : α} :
    Runs (pure value) state post raises ↔ post value state := Iff.rfl

@[simp] theorem runs_throw {exception : ε} :
    Runs (throw exception : Program σ ε α) state post raises ↔ raises exception state := Iff.rfl

@[simp] theorem runs_get {post : σ → σ → Prop} :
    Runs (get : Program σ ε σ) state post raises ↔ post state state := Iff.rfl

@[simp] theorem runs_set {next : σ} {post : PUnit → σ → Prop} :
    Runs (set next : Program σ ε PUnit) state post raises ↔ post ⟨⟩ next := Iff.rfl

@[simp] theorem runs_modify {change : σ → σ} {post : PUnit → σ → Prop} :
    Runs (modify change : Program σ ε PUnit) state post raises ↔ post ⟨⟩ (change state) := Iff.rfl

@[simp] theorem runs_stuck : Runs (stuck : Program σ ε α) state post raises ↔ False := Iff.rfl

@[simp] theorem runs_bind {next : α → Program σ ε β} {post : β → σ → Prop} :
    Runs (program >>= next) state post raises ↔
      Runs program state (fun value state => Runs (next value) state post raises) raises := by
  unfold Runs
  simp only [ExceptT.run_bind, StateT.run_bind]
  rcases program.run.run state with _ | ⟨_ | _, _⟩ <;> rfl

/-- A program that is followed to its end may be weakened at both ends. -/
theorem Runs.mono {otherPost : α → σ → Prop} {otherRaises : ε → σ → Prop}
    (runs : Runs program state post raises)
    (value : ∀ value next, post value next → otherPost value next)
    (exception : ∀ exception next, raises exception next → otherRaises exception next) :
    Runs program state otherPost otherRaises := by
  revert runs
  unfold Runs
  rcases program.run.run state with _ | ⟨_ | _, _⟩
  · exact id
  · exact exception _ _
  · exact value _ _

@[simp] theorem runs_refuse {condition : Prop} [Decidable condition] {exception : ε}
    {post : Unit → σ → Prop} : Runs (refuse condition exception) state post raises ↔
      (condition → raises exception state) ∧ (¬condition → post () state) := by
  unfold refuse
  split <;> simp_all

@[simp] theorem runs_tryCatch {handler : ε → Program σ ε α} :
    Runs (tryCatch program handler) state post raises ↔
      Runs program state post fun exception next => Runs (handler exception) next post raises := by
  rw [Runs, ExceptT.run_tryCatch, StateT.run_bind]
  unfold Runs
  rcases program.run.run state with _ | ⟨_ | _, _⟩ <;> rfl

@[simp] theorem runs_guarded {cleanup : Program σ ε Unit} :
    Runs (guarded program cleanup) state post raises ↔
      Runs program state post fun exception next =>
        Runs cleanup next (fun _ last => raises exception last) raises := by
  simp [guarded]

@[simp] theorem runs_require {exception : ε} {option : Option α} :
    Runs (require exception option) state post raises ↔
      (option = none → raises exception state) ∧ ∀ value, option = some value → post value state := by
  cases option with
  | none => exact ⟨fun run => ⟨fun _ => run, nofun⟩, fun both => both.1 rfl⟩
  | some value =>
      constructor
      · intro run
        exact ⟨nofun, fun _ same => Option.some.inj same ▸ run⟩
      · intro both
        exact both.2 value rfl

theorem runs_require_some {exception : ε} {value : α} :
    Runs (require exception (some value)) state post raises ↔ post value state := Iff.rfl

@[simp] theorem runs_onLocal {τ : Type} {body : Program τ ε Unit} {object : τ}
    {post : τ → σ → Prop} : Runs (onLocal body object) state post raises ↔
      Runs body object (fun _ later => post later state) fun exception _ => raises exception state := by
  simp only [Runs, onLocal, ExceptT.run, StateT.run]
  rcases body object with _ | ⟨_ | _, _⟩ <;> rfl

@[simp] theorem runs_onPart {τ : Type} {part : σ → τ} {replace : σ → τ → σ}
    {body : Program τ ε α} : Runs (onPart part replace body) state post raises ↔
      Runs body (part state) (fun value later => post value (replace state later))
        fun exception later => raises exception (replace state later) := by
  simp only [Runs, onPart, ExceptT.run, StateT.run]
  rcases body (part state) with _ | ⟨_ | _, _⟩ <;> rfl

/-- How a program ends that is known to end. -/
theorem Runs.ended (runs : Runs program state post raises) {outcome : Except ε α} {next : σ}
    (ended : program.run.run state = some (outcome, next)) :
    match outcome with
    | .ok value => post value next
    | .error exception => raises exception next := by
  unfold Runs at runs
  rw [ended] at runs
  cases outcome with
  | ok value => exact runs
  | error exception => exact runs

theorem Runs.isSome (runs : Runs program state post raises) :
    (program.run.run state).isSome := by
  unfold Runs at runs
  rcases start : program.run.run state with _ | ended
  · rw [start] at runs
    exact runs.elim
  · rfl

/-- A total program has an outcome. -/
theorem Runs.outcome (runs : Runs program state post raises) :
    (∃ value next, program.run.run state = some (.ok value, next) ∧ post value next) ∨
      ∃ exception next, program.run.run state = some (.error exception, next) ∧
        raises exception next := by
  unfold Runs at runs
  rcases start : program.run.run state with _ | ⟨_ | _, _⟩
  · simp [start] at runs
  · rw [start] at runs
    exact .inr ⟨_, _, rfl, runs⟩
  · rw [start] at runs
    exact .inl ⟨_, _, rfl, runs⟩

end Program

end Wan.Library
