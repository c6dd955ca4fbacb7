import Mathlib.Data.List.Sort
import Mathlib.Order.Defs.LinearOrder
import Mathlib.Data.Nat.Basic

/-!
# Stable sorting

Elements have a key and a serial number.  A stable sort by the key of a list in which
elements of one key stand in the order of their serial numbers is a sort by the key and,
among elements of one key, by the serial number.
-/

namespace Wan.Library

variable {α κ : Type} [LinearOrder κ] {key : α → κ} {serial : α → Nat}

/-- The second element does not have to stand before the first one. -/
def NotAfter (key : α → κ) (first second : α) : Prop := ¬ key second < key first

instance : DecidableRel (NotAfter key) := fun first second =>
  inferInstanceAs (Decidable (¬ key second < key first))

/-- By key, and among elements of one key by serial number. -/
def Precedes (key : α → κ) (serial : α → Nat) (first second : α) : Prop :=
  key first < key second ∨ key first = key second ∧ serial first < serial second

namespace Precedes

theorem irrefl (element : α) : ¬ Precedes key serial element element := by
  rintro (less | ⟨_, less⟩)
  · exact less.false
  · exact less.false

theorem key_le {first second : α} (precedes : Precedes key serial first second) :
    key first ≤ key second := by
  cases precedes with
  | inl less => exact less.le
  | inr tie => exact tie.1.le

theorem serial_lt {first second : α} (precedes : Precedes key serial first second)
    (tie : key first = key second) : serial first < serial second := by
  cases precedes with
  | inl less => exact absurd tie (ne_of_lt less)
  | inr both => exact both.2

end Precedes

/-- A new element that all elements of its key follow keeps the list in order. -/
theorem pairwise_orderedInsert {first : α} {rest : List α}
    (ordered : rest.Pairwise (Precedes key serial))
    (followed : ∀ other ∈ rest, key first = key other → serial first < serial other) :
    (rest.orderedInsert (NotAfter key) first).Pairwise (Precedes key serial) := by
  induction rest with
  | nil => exact List.pairwise_singleton ..
  | cons head tail ih =>
      rw [List.pairwise_cons] at ordered
      by_cases le : NotAfter key first head
      · rw [List.orderedInsert_cons_of_le _ _ le, List.pairwise_cons, List.pairwise_cons]
        refine ⟨?_, ordered⟩
        intro other isOther
        have le : key first ≤ key other := by
          rcases List.mem_cons.1 isOther with rfl | isOther
          · exact not_lt.1 le
          · exact (not_lt.1 le).trans (ordered.1 other isOther).key_le
        rcases le.lt_or_eq with less | tie
        · exact .inl less
        · exact .inr ⟨tie, followed other isOther tie⟩
      · rw [List.orderedInsert_of_not_le _ _ le, List.pairwise_cons]
        constructor
        · intro other isOther
          rcases List.mem_cons.1
            ((List.perm_orderedInsert _ _ _).mem_iff.1 isOther) with rfl | isOther
          · exact .inl (not_not.1 le)
          · exact ordered.1 other isOther
        · exact ih ordered.2 fun other isOther =>
            followed other (List.mem_cons_of_mem head isOther)

/-- A stable sort sorts by key and serial number. -/
theorem pairwise_stableSort {elements : List α}
    (numbered : elements.Pairwise fun first second =>
      key first = key second → serial first < serial second) :
    (elements.insertionSort (NotAfter key)).Pairwise (Precedes key serial) := by
  induction elements with
  | nil => exact .nil
  | cons first rest ih =>
      rw [List.pairwise_cons] at numbered
      rw [List.insertionSort_cons]
      apply pairwise_orderedInsert (ih numbered.2)
      intro other isOther
      exact numbered.1 other ((List.mem_insertionSort _).1 isOther)

/-- An element with the largest serial number is sorted behind those of its key. -/
theorem pairwise_stableSort_append {elements : List α} {last : α}
    (ordered : elements.Pairwise (Precedes key serial))
    (largest : ∀ element ∈ elements, serial element < serial last) :
    ((elements ++ [last]).insertionSort (NotAfter key)).Pairwise (Precedes key serial) := by
  apply pairwise_stableSort
  rw [List.pairwise_append]
  refine ⟨ordered.imp fun precedes => precedes.serial_lt, List.pairwise_singleton .., ?_⟩
  intro element isElement other isLast _
  rw [List.mem_singleton] at isLast
  rw [isLast]
  exact largest element isElement

end Wan.Library
