import Mathlib.Logic.Equiv.Basic
import Mathlib.Order.Defs.Unbundled
import Mathlib.Order.Nat

/-!
# Binary heaps in arrays

The heap order under a strict weak order, with the largest elements at the top, and what an
exchange with a parent preserves of it while one position is out of order.
-/

namespace Wan.Library.Heap

variable {α : Type}

/-- The position above another one. -/
def parent (child : Nat) : Nat := (child - 1) / 2

theorem parent_lt {child : Nat} (below : 0 < child) : parent child < child := by
  rw [parent]
  omega

/-- A position is one of the two below its parent. -/
theorem eq_of_parent {child : Nat} (below : 0 < child) :
    child = 2 * parent child + 1 ∨ child = 2 * parent child + 2 := by
  rw [parent]
  omega

variable (less : α → α → Bool)

/-- The element at one position is not ordered before that at another. -/
def InOrder (values : Array α) (upper lower : Nat) : Prop :=
  ∀ above ∈ values[upper]?, ∀ below ∈ values[lower]?, less above below = false

/-- The heap order. -/
def Ordered (values : Array α) : Prop :=
  ∀ child, 0 < child → InOrder less values (parent child) child

/-- The heap order but for a position that may belong further up. -/
structure Rising (values : Array α) (hole : Nat) : Prop where
  other : ∀ child, 0 < child → child ≠ hole → InOrder less values (parent child) child
  across : 0 < hole → ∀ child, 0 < child → parent child = hole →
    InOrder less values (parent hole) child

/-- The heap order but for a position that may belong further down. -/
structure Sinking (values : Array α) (hole : Nat) : Prop where
  other : ∀ child, 0 < child → parent child ≠ hole → InOrder less values (parent child) child
  across : 0 < hole → ∀ child, 0 < child → parent child = hole →
    InOrder less values (parent hole) child

variable {less}

section Order

variable [order : IsStrictWeakOrder α fun first second => less first second = true]
variable {first second third : α}

theorem less_trans (before : less first second = true) (after : less second third = true) :
    less first third = true :=
  order.trans first second third before after

theorem less_asymm (before : less first second = true) : less second first = false :=
  Bool.eq_false_iff.mpr fun after => order.irrefl first (less_trans before after)

/-- What is not ordered before a second is not ordered before what the second is not ordered
before. -/
theorem not_less_trans (before : less first second = false) (after : less second third = false) :
    less first third = false := by
  rw [← Bool.not_eq_true] at before after ⊢
  intro ordered
  have level : ¬less second first = true := fun back => after (less_trans back ordered)
  have level' : ¬less third second = true := fun back => before (less_trans ordered back)
  exact (order.incomp_trans first second third ⟨before, level⟩ ⟨after, level'⟩).1 ordered

end Order

section Positions

variable {values : Array α} {upper middle lower hole : Nat}

theorem inOrder_iff (inside : upper < values.size) (inside' : lower < values.size) :
    InOrder less values upper lower ↔ less values[upper] values[lower] = false := by
  simp [InOrder, inside, inside']

/-- Nothing is in disorder with a position behind the end. -/
theorem inOrder_outside (outside : values.size ≤ lower) : InOrder less values upper lower := by
  intro _ _ below found
  rw [Array.getElem?_eq_none outside] at found
  cases found

theorem InOrder.trans [IsStrictWeakOrder α fun first second => less first second = true]
    (inside : middle < values.size) (first : InOrder less values upper middle)
    (second : InOrder less values middle lower) : InOrder less values upper lower := by
  intro above found below found'
  have here := Array.getElem?_eq_getElem inside
  exact not_less_trans (first above found _ here) (second _ here below found')

theorem inOrder_congr {values' : Array α} (same : values'[upper]? = values[upper]?)
    (same' : values'[lower]? = values[lower]?) :
    InOrder less values' upper lower ↔ InOrder less values upper lower := by
  rw [InOrder, InOrder, same, same']

/-- Two elements are in order after an exchange if those that were there before are. -/
theorem inOrder_swap {one other : Nat} (inside : one < values.size)
    (inside' : other < values.size) :
    InOrder less (values.swap one other inside inside') upper lower ↔
      InOrder less values (Equiv.swap one other upper) (Equiv.swap one other lower) := by
  have moved (position : Nat) : (values.swap one other inside inside')[position]? =
      values[Equiv.swap one other position]? := by
    rw [Array.getElem?_swap, Equiv.swap_apply_def]
    by_cases at_other : other = position
    · subst at_other
      by_cases same : other = one <;> simp [same, inside]
    · by_cases at_one : one = position
      · rw [if_neg at_other, if_pos at_one, if_pos at_one.symm, Array.getElem?_eq_getElem inside']
      · simp [at_other, at_one, Ne.symm at_other, Ne.symm at_one]
  rw [InOrder, InOrder, moved, moved]

end Positions

section Exchange

variable [order : IsStrictWeakOrder α fun first second => less first second = true]
variable {values : Array α} {hole child : Nat}

/-- A position that belongs further up is exchanged with its parent. -/
theorem Rising.swap (rising : Rising less values hole) (below : 0 < hole)
    (inside : parent hole < values.size) (inside' : hole < values.size)
    (beaten : less values[parent hole] values[hole] = true) :
    Rising less (values.swap (parent hole) hole inside inside') (parent hole) := by
  have up : parent hole < hole := parent_lt below
  have turned : InOrder less values hole (parent hole) :=
    (inOrder_iff inside' inside).mpr (less_asymm beaten)
  have above (here : 0 < parent hole) : InOrder less values (parent (parent hole)) (parent hole) :=
    rising.other _ here up.ne
  -- The siblings of the hole are not before what goes up.
  have beside (child : Nat) (positive : 0 < child) (sibling : parent child = parent hole)
      (different : child ≠ hole) : InOrder less values (parent hole) child :=
    sibling ▸ rising.other child positive different
  constructor
  · intro child positive different
    rw [inOrder_swap]
    by_cases same : child = hole
    · rwa [same, Equiv.swap_apply_left, Equiv.swap_apply_right]
    · rw [Equiv.swap_apply_of_ne_of_ne different same]
      by_cases sibling : parent child = parent hole
      · rw [sibling, Equiv.swap_apply_left]
        exact turned.trans inside (beside child positive sibling same)
      · by_cases under : parent child = hole
        · rw [under, Equiv.swap_apply_right]
          exact rising.across below child positive under
        · rw [Equiv.swap_apply_of_ne_of_ne sibling under]
          exact rising.other child positive same
  · intro here child positive sibling
    have higher : parent (parent hole) < parent hole := parent_lt here
    have differs : child ≠ parent hole := fun same =>
      higher.ne (same ▸ sibling)
    rw [inOrder_swap, Equiv.swap_apply_of_ne_of_ne higher.ne (higher.trans up).ne]
    by_cases same : child = hole
    · rw [same, Equiv.swap_apply_right]
      exact above here
    · rw [Equiv.swap_apply_of_ne_of_ne differs same]
      exact (above here).trans inside (beside child positive sibling same)

omit order in
/-- A position that is not before its parent completes the order. -/
theorem Rising.ordered (rising : Rising less values hole)
    (settled : 0 < hole → InOrder less values (parent hole) hole) : Ordered less values := by
  intro child positive
  by_cases same : child = hole
  · rw [same] at positive ⊢
    exact settled positive
  · exact rising.other child positive same

/-- A position that belongs further down is exchanged with the larger one below it. -/
theorem Sinking.swap (sinking : Sinking less values hole) (below : 0 < child)
    (under : parent child = hole) (inside : hole < values.size) (inside' : child < values.size)
    (beaten : less values[hole] values[child] = true)
    (largest : ∀ other, 0 < other → parent other = hole → InOrder less values child other) :
    Sinking less (values.swap hole child inside inside') child := by
  have down : hole < child := under ▸ parent_lt below
  have turned : InOrder less values child hole :=
    (inOrder_iff inside' inside).mpr (less_asymm beaten)
  constructor
  · intro other positive outside
    rw [inOrder_swap]
    by_cases beside : parent other = hole
    · rw [beside, Equiv.swap_apply_left]
      by_cases same : other = child
      · rwa [same, Equiv.swap_apply_right]
      · have lower : hole < other := beside ▸ parent_lt positive
        rw [Equiv.swap_apply_of_ne_of_ne lower.ne' same]
        exact largest other positive beside
    · rw [Equiv.swap_apply_of_ne_of_ne beside outside]
      by_cases same : other = hole
      · rw [same] at positive ⊢
        rw [Equiv.swap_apply_left]
        exact sinking.across positive child below under
      · have differs : other ≠ child := fun same => beside (same ▸ under)
        rw [Equiv.swap_apply_of_ne_of_ne same differs]
        exact sinking.other other positive beside
  · intro _ other positive beneath
    have lower : child < other := beneath ▸ parent_lt positive
    rw [inOrder_swap, under, Equiv.swap_apply_left,
      Equiv.swap_apply_of_ne_of_ne (down.trans lower).ne' lower.ne', ← beneath]
    exact sinking.other other positive (beneath ▸ down.ne')

omit order in
/-- A position that is before neither of those below it completes the order. -/
theorem Sinking.ordered (sinking : Sinking less values hole)
    (settled : ∀ child, 0 < child → parent child = hole → InOrder less values hole child) :
    Ordered less values := by
  intro child positive
  by_cases under : parent child = hole
  · exact under ▸ settled child positive under
  · exact sinking.other child positive under

theorem inOrder_refl (position : Nat) : InOrder less values position position := by
  intro above found below found'
  cases found.symm.trans found'
  exact Bool.eq_false_iff.mpr (order.irrefl _)

/-- The top of a heap is not ordered before any element. -/
theorem Ordered.top (ordered : Ordered less values) (position : Nat) :
    InOrder less values 0 position := by
  induction position using Nat.strongRecOn with
  | ind position ih =>
      by_cases inside : position < values.size
      · cases position with
        | zero => exact inOrder_refl 0
        | succ position =>
            have up := parent_lt (Nat.succ_pos position)
            exact (ih _ up).trans (up.trans inside) (ordered _ (Nat.succ_pos position))
      · exact inOrder_outside (not_lt.mp inside)

end Exchange

section Ends

variable {values : Array α}

theorem ordered_empty : Ordered less (#[] : Array α) :=
  fun _ _ => inOrder_outside (Nat.zero_le _)

/-- An element that is added at the end may belong further up. -/
theorem Ordered.push (ordered : Ordered less values) (value : α) :
    Rising less (values.push value) values.size := by
  constructor
  · intro child positive different
    have up := parent_lt positive
    rcases Nat.lt_or_gt_of_ne different with inside | outside
    · have kept {position : Nat} (inside : position < values.size) :
          (values.push value)[position]? = values[position]? := by
        rw [Array.getElem?_push, if_neg inside.ne]
      rw [inOrder_congr (kept (up.trans inside)) (kept inside)]
      exact ordered child positive
    · exact inOrder_outside (by rw [Array.size_push]; exact outside)
  · intro _ child positive beneath
    have lower : values.size < child := beneath ▸ parent_lt positive
    exact inOrder_outside (by rw [Array.size_push]; exact lower)

/-- What is left when the last element takes the place of the top may have to go down. -/
theorem Ordered.popTop (ordered : Ordered less values) (inside : 0 < values.size)
    (inside' : values.size - 1 < values.size) :
    Sinking less (values.swap 0 (values.size - 1) inside inside').pop 0 := by
  constructor
  · intro child positive beneath
    by_cases last : child < values.size - 1
    · have kept {position : Nat} (positive : position ≠ 0) (last : position < values.size - 1) :
          (values.swap 0 (values.size - 1) inside inside').pop[position]? = values[position]? := by
        rw [Array.getElem?_pop, Array.size_swap, if_pos last, Array.getElem?_swap,
          if_neg last.ne', if_neg positive.symm]
      rw [inOrder_congr (kept beneath ((parent_lt positive).trans last)) (kept positive.ne' last)]
      exact ordered child positive
    · exact inOrder_outside (by rw [Array.size_pop, Array.size_swap]; exact not_lt.mp last)
  · intro top
    cases top

/-- What is left then are the elements but for the top. -/
theorem popTop_perm (inside : 0 < values.size) (inside' : values.size - 1 < values.size) :
    (values[0] :: (values.swap 0 (values.size - 1) inside inside').pop.toList).Perm
      values.toList := by
  have positive : 0 < (values.swap 0 (values.size - 1) inside inside').size := by
    rwa [Array.size_swap]
  rcases Array.exists_push_of_size_pos positive with ⟨front, last, split⟩
  have size : front.size = values.size - 1 := by
    have sizes := congrArg Array.size split
    rw [Array.size_swap, Array.size_push] at sizes
    omega
  have moved : last = values[0] := by
    have found := Array.getElem?_swap inside inside' (k := values.size - 1)
    rw [split, if_pos rfl, ← size, Array.getElem?_push_size] at found
    exact Option.some.inj found
  have perm := (values.swap_perm inside inside').toList
  rw [split, Array.toList_push] at perm
  rw [split, Array.pop_push, ← moved]
  exact (List.perm_append_singleton last front.toList).symm.trans perm

end Ends

end Wan.Library.Heap
