/-!
# Computations that may throw

The rules follow the exceptions and the results of a sequence of checks, accesses and calls.
-/

namespace Wan.Library

variable {E A B : Type} {bad : E → Prop} {first : Except E A} {next : A → Except E B} {result : B}

@[simp] theorem ok_bind {value : A} : ((.ok value : Except E A) >>= next) = next value := rfl

/-- A sequence succeeds when both of its parts do. -/
theorem bind_eq_ok : (first >>= next) = .ok result ↔
    ∃ value, first = .ok value ∧ next value = .ok result := by
  cases first with
  | error exception =>
      constructor
      · intro done
        cases done
      · intro done
        rcases done with ⟨_, never, _⟩
        cases never
  | ok value =>
      constructor
      · intro done
        exact ⟨value, rfl, done⟩
      · intro done
        rcases done with ⟨_, same, later⟩
        cases same
        exact later

/-- No exception of a kind is thrown. -/
def Never (bad : E → Prop) (computation : Except E A) : Prop :=
  ∀ exception, computation = .error exception → ¬ bad exception

theorem never_ok {value : A} : Never bad (.ok value) := nofun

/-- A sequence throws what one of its parts throws. -/
theorem Never.bind (here : Never bad first)
    (later : ∀ value, first = .ok value → Never bad (next value)) :
    Never bad (first >>= next) := by
  cases equal : first with
  | error exception =>
      intro thrown same
      cases same
      exact here exception equal
  | ok value => exact later value equal

/-- What every step keeps holds behind a run of steps that does not throw. -/
theorem foldlM_keeps {I : Type} {step : A → I → Except E A} (holds : A → Prop)
    (kept : ∀ value input later, step value input = .ok later → holds value → holds later)
    {inputs : List I} {value last : A} (start : holds value)
    (run : inputs.foldlM step value = .ok last) : holds last := by
  induction inputs generalizing value with
  | nil =>
      cases run
      exact start
  | cons input inputs ih =>
      rw [List.foldlM_cons, bind_eq_ok] at run
      rcases run with ⟨later, taken, run⟩
      exact ih (kept value input later taken start) run

end Wan.Library
