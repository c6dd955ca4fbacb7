import Wan.Web.Middleware.Model

/-!
# The chain always returns

The index that the frames share only grows, so the calls of `Next` are nested no deeper than the
chain is long, however often a middleware awaits it.
-/

namespace Wan.Web.Onion

variable {Context Exception : Type}

/-- A frame that starts behind a position ends, and does not move the index back or out of the
chain. -/
def Returns (next : Running Context Exception → Option (Ended Context Exception))
    (position size : Nat) : Prop :=
  ∀ running, position ≤ running.index → running.index ≤ size →
    ∃ outcome after, next running = some (outcome, after) ∧
      running.index ≤ after.index ∧ after.index ≤ size

/-- A middleware ends when the calls of `Next` that it awaits do. -/
theorem Activity.drive_returns
    {next : Running Context Exception → Option (Ended Context Exception)} {bound size : Nat}
    (nested : Returns next bound size) (position : Nat) (activity : Activity Context Exception)
    (running : Running Context Exception) (behind : bound ≤ running.index)
    (within : running.index ≤ size) :
    ∃ outcome after, activity.drive next position running = some (outcome, after) ∧
      running.index ≤ after.index ∧ after.index ≤ size := by
  induction activity generalizing running with
  | finish ctx outcome => exact ⟨outcome, _, rfl, Nat.le_refl _, within⟩
  | next ctx resume ih =>
      obtain ⟨inner, between, called, grown, inside⟩ :=
        nested (Running.record { running with ctx } (.called position)) behind within
      obtain ⟨outcome, after, resumed, further, last⟩ :=
        ih between.ctx inner (between.record (.resumed position inner))
          (Nat.le_trans behind grown) inside
      refine ⟨outcome, after, ?_, Nat.le_trans grown further, last⟩
      rw [drive, called]
      exact resumed

namespace MiddlewareChain

/-- `Next` returns when the depth reaches the end of the chain. -/
theorem next_returns (chain : MiddlewareChain Context Exception)
    (finalHandler : Handler Context Exception) (depth position : Nat)
    (deep : chain.size < position + depth) :
    Returns (chain.next finalHandler depth) position chain.size := by
  induction depth generalizing position with
  | zero =>
      intro running behind within
      exact absurd deep (Nat.not_lt.2 (Nat.le_trans behind within))
  | succ depth ih =>
      intro running behind within
      rw [next]
      cases reached : chain.memberMiddlewares[running.index]? with
      | none => exact ⟨_, _, rfl, Nat.le_refl _, within⟩
      | some mw =>
          have inside : running.index < chain.size := (List.getElem?_eq_some_iff.1 reached).1
          have nested : Returns (chain.next finalHandler depth) (running.index + 1) chain.size :=
            ih (running.index + 1) (by omega)
          obtain ⟨outcome, after, driven, grown, last⟩ :=
            Activity.drive_returns nested running.index (mw.fn running.ctx)
              (Running.record { running with index := running.index + 1 }
                (.invoked running.index)) (Nat.le_refl _) inside
          exact ⟨outcome, after, driven, Nat.le_of_succ_le grown, last⟩

/-- `Run` returns, whatever the middlewares and the handler do. -/
theorem run_isSome (chain : MiddlewareChain Context Exception) (ctx : Context)
    (finalHandler : Handler Context Exception) : (chain.run ctx finalHandler).isSome = true := by
  rw [run]
  split
  · rfl
  · obtain ⟨outcome, after, ended, _⟩ :=
      chain.next_returns finalHandler (chain.size + 1) 0 (by omega) { ctx } (Nat.le_refl _)
        (Nat.zero_le _)
    rw [ended]
    rfl

end MiddlewareChain

end Wan.Web.Onion
