import Mathlib.Data.List.Induction
import Mathlib.Data.List.Perm.Basic

/-!
# Interleavings of sequences

Several sequences of actions are worked off in any order that keeps the order of each.  What does
not depend on the order of actions can be read off the sequences themselves.
-/

namespace Wan.Library

variable {α : Type}

/-- After the actions in `taken` the sequences in `left` are still to come. -/
inductive Interleaved (sequences : List (List α)) : List α → List (List α) → Prop where
  | start : Interleaved sequences [] sequences
  | step {taken : List α} {action : α} {rest : List α} {before after : List (List α)}
      (earlier : Interleaved sequences taken (before ++ (action :: rest) :: after)) :
      Interleaved sequences (taken ++ [action]) (before ++ rest :: after)

namespace Interleaved

variable {sequences left : List (List α)} {taken : List α}

/-- Nothing is lost and nothing is added. -/
theorem perm (interleaved : Interleaved sequences taken left) :
    (taken ++ left.flatten).Perm sequences.flatten := by
  induction interleaved with
  | start => exact List.Perm.refl _
  | @step taken action rest before after earlier ih =>
      refine List.Perm.trans ?_ ih
      rw [List.append_assoc]
      apply List.Perm.append_left
      simp only [List.flatten_append, List.flatten_cons, List.cons_append, List.nil_append]
      exact List.perm_middle.symm

/-- At the end all actions have been taken. -/
theorem perm_of_finished (interleaved : Interleaved sequences taken left)
    (finished : ∀ sequence ∈ left, sequence = []) : taken.Perm sequences.flatten := by
  have empty : left.flatten = [] := List.flatten_eq_nil_iff.mpr finished
  have all := interleaved.perm
  rwa [empty, List.append_nil] at all

/-- What is left of a sequence is its end. -/
theorem exists_suffix (interleaved : Interleaved sequences taken left) {rest : List α}
    (member : rest ∈ left) : ∃ sequence ∈ sequences, rest <:+ sequence := by
  induction interleaved generalizing rest with
  | start => exact ⟨rest, member, List.suffix_rfl⟩
  | @step taken action next before after earlier ih =>
      rcases List.mem_append.mp member with stands | behind
      · exact ih (List.mem_append_left _ stands)
      · rcases List.mem_cons.mp behind with rfl | stands
        · rcases ih (List.mem_append_right _ List.mem_cons_self) with ⟨sequence, own, suffix⟩
          exact ⟨sequence, own, (List.suffix_cons action rest).trans suffix⟩
        · exact ih (List.mem_append_right _ (List.mem_cons_of_mem _ stands))

/-- The first sequence may be worked off before the others begin. -/
theorem first (sequence : List α) (others : List (List α)) :
    Interleaved (sequence :: others) sequence ([] :: others) := by
  have partway : ∀ earlier later : List α, sequence = earlier ++ later →
      Interleaved (sequence :: others) earlier (later :: others) := by
    intro earlier
    induction earlier using List.reverseRecOn with
    | nil =>
        rintro later rfl
        exact .start
    | append_singleton earlier action ih =>
        intro later split
        have before : Interleaved (sequence :: others) earlier
            ([] ++ (action :: later) :: others) :=
          ih (action :: later) (by rw [split, List.append_assoc]; rfl)
        exact before.step
  exact partway sequence [] (List.append_nil _).symm

end Interleaved

end Wan.Library
