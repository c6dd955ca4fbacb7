import Mathlib.Order.Defs.Unbundled
import Wan.Library.Program

/-!
# What holds however a program ends

`Yields` is partial correctness: nothing is said about a program without behaviour.  A program
keeps a relation between states if its last state stands in it to the first, whether it returns
or raises; what is built from such programs keeps it, too.
-/

namespace Wan.Library

namespace Program

variable {σ ε α β : Type} {relation : σ → σ → Prop}

/-- If the program ends, then in a value and state that satisfy `post` or with an exception and
state that satisfy `raises`. -/
def Yields (program : Program σ ε α) (state : σ) (post : α → σ → Prop)
    (raises : ε → σ → Prop) : Prop :=
  match program.run.run state with
  | none => True
  | some (.ok value, next) => post value next
  | some (.error exception, next) => raises exception next

/-- However a program ends, its last state stands in a relation to the first. -/
def Keeps (relation : σ → σ → Prop) (program : Program σ ε α) : Prop :=
  ∀ state, Yields program state (fun _ next => relation state next) fun _ next =>
    relation state next

section Yields

variable {state : σ} {program : Program σ ε α} {post : α → σ → Prop} {raises : ε → σ → Prop}

theorem yields_get {post : σ → σ → Prop} :
    Yields (get : Program σ ε σ) state post raises ↔ post state state := Iff.rfl

theorem yields_set {next : σ} {post : PUnit → σ → Prop} :
    Yields (set next : Program σ ε PUnit) state post raises ↔ post ⟨⟩ next := Iff.rfl

theorem yields_modify {change : σ → σ} {post : PUnit → σ → Prop} :
    Yields (modify change : Program σ ε PUnit) state post raises ↔
      post ⟨⟩ (change state) := Iff.rfl

theorem yields_bind {next : α → Program σ ε β} {post : β → σ → Prop} :
    Yields (program >>= next) state post raises ↔
      Yields program state (fun value state => Yields (next value) state post raises) raises := by
  unfold Yields
  simp only [ExceptT.run_bind, StateT.run_bind]
  rcases program.run.run state with _ | ⟨_ | _, _⟩ <;> rfl

theorem yields_tryCatch {handler : ε → Program σ ε α} :
    Yields (tryCatch program handler) state post raises ↔
      Yields program state post fun exception next =>
        Yields (handler exception) next post raises := by
  rw [Yields, ExceptT.run_tryCatch, StateT.run_bind]
  unfold Yields
  rcases program.run.run state with _ | ⟨_ | _, _⟩ <;> rfl

theorem Yields.mono {otherPost : α → σ → Prop} {otherRaises : ε → σ → Prop}
    (yields : Yields program state post raises)
    (value : ∀ value next, post value next → otherPost value next)
    (exception : ∀ exception next, raises exception next → otherRaises exception next) :
    Yields program state otherPost otherRaises := by
  revert yields
  unfold Yields
  rcases program.run.run state with _ | ⟨_ | _, _⟩
  · exact id
  · exact exception _ _
  · exact value _ _

/-- What holds however a program ends is added to what it is known to end with. -/
theorem Runs.and_yields {otherPost : α → σ → Prop} {otherRaises : ε → σ → Prop}
    (runs : Runs program state post raises) (yields : Yields program state otherPost otherRaises) :
    Runs program state (fun value next => post value next ∧ otherPost value next)
      fun exception next => raises exception next ∧ otherRaises exception next := by
  revert runs yields
  unfold Runs Yields
  rcases program.run.run state with _ | ⟨_ | _, _⟩
  · exact fun never _ => never
  · exact And.intro
  · exact And.intro

/-- How a program ends that ends. -/
theorem Yields.ended (yields : Yields program state post raises) {outcome : Except ε α}
    {next : σ} (ended : program.run.run state = some (outcome, next)) :
    match outcome with
    | .ok value => post value next
    | .error exception => raises exception next := by
  unfold Yields at yields
  rw [ended] at yields
  cases outcome <;> exact yields

end Yields

section Compose

variable [Std.Refl relation] {program : Program σ ε α}

theorem keeps_pure (value : α) : Keeps relation (pure value : Program σ ε α) :=
  fun state => Std.Refl.refl state

theorem keeps_throw (exception : ε) : Keeps relation (throw exception : Program σ ε α) :=
  fun state => Std.Refl.refl state

theorem keeps_get : Keeps relation (get : Program σ ε σ) := fun state => Std.Refl.refl state

theorem keeps_refuse (condition : Prop) [Decidable condition] (exception : ε) :
    Keeps relation (refuse condition exception : Program σ ε Unit) := by
  rw [refuse]
  split
  · exact keeps_throw exception
  · exact keeps_pure ()

omit [Std.Refl relation] in
theorem keeps_stuck : Keeps relation (stuck : Program σ ε α) := fun _ => trivial

omit [Std.Refl relation] in
theorem keeps_ite {condition : Prop} [Decidable condition] {other : Program σ ε α}
    (holds : Keeps relation program) (fails : Keeps relation other) :
    Keeps relation (if condition then program else other) := by
  split
  · exact holds
  · exact fails

variable [IsTrans σ relation]

omit [Std.Refl relation] in
theorem keeps_bind {next : α → Program σ ε β} (first : Keeps relation program)
    (second : ∀ value, Keeps relation (next value)) : Keeps relation (program >>= next) := by
  intro state
  rw [yields_bind]
  apply (first state).mono
  · intro value middle one
    apply (second value middle).mono
    · exact fun _ last other => IsTrans.trans _ _ _ one other
    · exact fun _ last other => IsTrans.trans _ _ _ one other
  · exact fun _ _ => id

omit [Std.Refl relation] in
theorem keeps_tryCatch {handler : ε → Program σ ε α} (body : Keeps relation program)
    (handles : ∀ exception, Keeps relation (handler exception)) :
    Keeps relation (tryCatch program handler) := by
  intro state
  rw [yields_tryCatch]
  apply (body state).mono
  · exact fun _ _ => id
  · intro exception middle one
    apply (handles exception middle).mono
    · exact fun _ last other => IsTrans.trans _ _ _ one other
    · exact fun _ last other => IsTrans.trans _ _ _ one other

theorem keeps_guarded {cleanup : Program σ ε Unit} (body : Keeps relation program)
    (cleans : Keeps relation cleanup) : Keeps relation (guarded program cleanup) :=
  keeps_tryCatch body fun exception => keeps_bind cleans fun _ => keeps_throw exception

end Compose

end Program

end Wan.Library
