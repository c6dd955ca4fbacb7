import Mathlib.Data.List.Basic

/-!
# Positions in lists
-/

namespace Wan.Library

variable {α : Type}

/-- A list around one of its positions. -/
theorem exists_split_of_getElem? {list : List α} {index : Nat} {here : α}
    (found : list[index]? = some here) : ∃ before after, list = before ++ here :: after ∧
      (∀ other, list.set index other = before ++ other :: after) ∧
        list.eraseIdx index = before ++ after := by
  rcases List.getElem?_eq_some_iff.mp found with ⟨bound, at_index⟩
  refine ⟨list.take index, list.drop (index + 1), ?_, ?_, List.eraseIdx_eq_take_drop_succ ..⟩
  · rw [← at_index, List.getElem_cons_drop, List.take_append_drop]
  · intro other
    rw [List.set_eq_take_append_cons_drop, if_pos bound]

theorem getElem?_at {before after : List α} {here : α} {index : Nat}
    (position : index = before.length) : (before ++ here :: after)[index]? = some here := by
  rw [position, List.getElem?_append_right (Nat.le_refl _), Nat.sub_self]
  rfl

theorem set_at {before after : List α} {here other : α} {index : Nat}
    (position : index = before.length) :
    (before ++ here :: after).set index other = before ++ other :: after := by
  rw [position, List.set_append_right _ _ (Nat.le_refl _), Nat.sub_self]
  rfl

theorem drop_behind {before after : List α} {here : α} :
    (before ++ here :: after).drop (before.length + 1) = after := by
  rw [List.drop_append, List.drop_eq_nil_of_le (Nat.le_succ _), List.nil_append,
    Nat.add_sub_cancel_left, List.drop_succ_cons, List.drop_zero]

/-- The first occurrence of an element stands behind a part without it. -/
theorem idxOf?_append_cons [DecidableEq α] {before after : List α} {here : α}
    (free : here ∉ before) : (before ++ here :: after).idxOf? here = some before.length := by
  induction before with
  | nil => simp [List.idxOf?_cons]
  | cons first before ih =>
      rw [List.mem_cons, not_or] at free
      rw [List.cons_append, List.idxOf?_cons, if_neg (by simpa using Ne.symm free.1), ih free.2]
      rfl

/-- Every list is a last part without a separator, or such a part with a separator and the list
behind it. -/
@[elab_as_elim]
theorem split_induction [DecidableEq α] (separator : α) {motive : List α → Prop}
    (last : ∀ part, separator ∉ part → motive part)
    (cons : ∀ part rest, separator ∉ part → motive rest → motive (part ++ separator :: rest))
    (list : List α) : motive list := by
  induction size : list.length using Nat.strongRecOn generalizing list with
  | ind count ih =>
      by_cases separated : separator ∈ list
      · rcases List.eq_append_cons_of_mem separated with ⟨part, rest, rfl, free⟩
        have shorter : rest.length < count := by
          rw [← size, List.length_append, List.length_cons]
          omega
        exact cons part rest free (ih _ shorter rest rfl)
      · exact last list separated

end Wan.Library
