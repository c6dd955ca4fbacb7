import Mathlib.Order.Nat

/-!
# Sets of numbers packed into words

A list of words of one width stands for the set of the positions of its one bits; masks add a
position or take it away.
-/

namespace Wan.Library.Packed

variable {width : Nat}

/-- The bit at a position, counted from the lowest bit of the first word. -/
def bit (words : List (BitVec width)) (position : Nat) : Bool :=
  (words[position / width]?.getD 0).getLsbD (position % width)

/-- The word with one bit. -/
def mask (width position : Nat) : BitVec width := BitVec.twoPow width (position % width)

variable {words : List (BitVec width)} {word : BitVec width} {position other : Nat}

/-- A position is given by its word and its place in the word. -/
theorem eq_iff_div_mod : position = other ↔
    position / width = other / width ∧ position % width = other % width := by
  constructor
  · intro same
    rw [same]
    exact ⟨rfl, rfl⟩
  · rintro ⟨here, place⟩
    rw [← Nat.div_add_mod position width, here, place, Nat.div_add_mod]

theorem bit_of_word (here : words[position / width]? = some word) :
    bit words position = word.getLsbD (position % width) := by
  rw [bit, here, Option.getD_some]

theorem getLsbD_mask (positive : 0 < width) (place : Nat) :
    (mask width position).getLsbD place = decide (position % width = place) := by
  rw [mask, BitVec.getLsbD_twoPow,
    decide_eq_true (Nat.mod_lt position positive), Bool.true_and]

/-- A word has no bit in common with a mask when it lacks the bit. -/
theorem and_mask_eq_zero (positive : 0 < width) (here : words[position / width]? = some word) :
    word &&& mask width position = 0 ↔ bit words position = false := by
  rw [bit_of_word here, mask, BitVec.and_twoPow]
  by_cases set : word.getLsbD (position % width) = true
  · rw [if_pos set, set, ← mask]
    have notZero : mask width position ≠ 0 := by
      intro zero
      have lit : (mask width position).getLsbD (position % width) = true := by
        rw [getLsbD_mask positive, decide_eq_true rfl]
      rw [zero] at lit
      simp at lit
    exact ⟨fun zero => absurd zero notZero, fun clear => absurd clear.symm Bool.false_ne_true⟩
  · rw [if_neg set]
    simpa using set

/-- A word that is replaced changes its own bits only. -/
theorem bit_set (here : words[position / width]? = some word) (changed : BitVec width)
    (kept : ∀ place, place ≠ position % width →
      changed.getLsbD place = word.getLsbD place) :
    bit (words.set (position / width) changed) other =
      if other = position then changed.getLsbD (position % width) else bit words other := by
  have inside := (List.getElem?_eq_some_iff.mp here).1
  rw [bit, List.getElem?_set]
  by_cases word_same : position / width = other / width
  · rw [if_pos word_same, if_pos inside, Option.getD_some]
    by_cases same : other = position
    · rw [if_pos same, same]
    · have place : other % width ≠ position % width := fun place =>
        same (eq_iff_div_mod.mpr ⟨word_same.symm, place⟩)
      rw [if_neg same, kept _ place, bit_of_word (word_same ▸ here)]
  · have different : other ≠ position := fun same => word_same (by rw [same])
    rw [if_neg word_same, if_neg different, bit]

/-- A mask that is added sets the bit. -/
theorem bit_or (positive : 0 < width) (here : words[position / width]? = some word) :
    bit (words.set (position / width) (word ||| mask width position)) other =
      (decide (other = position) || bit words other) := by
  rw [bit_set here]
  · by_cases same : other = position
    · rw [if_pos same, BitVec.getLsbD_or, getLsbD_mask positive, decide_eq_true rfl,
        decide_eq_true same, Bool.or_true, Bool.true_or]
    · rw [if_neg same, decide_eq_false same, Bool.false_or]
  · intro place different
    rw [BitVec.getLsbD_or, getLsbD_mask positive, decide_eq_false different.symm, Bool.or_false]

/-- A mask that is taken away clears the bit. -/
theorem bit_and_not (positive : 0 < width) (here : words[position / width]? = some word) :
    bit (words.set (position / width) (word &&& ~~~mask width position)) other =
      (!decide (other = position) && bit words other) := by
  rw [bit_set here]
  · by_cases same : other = position
    · rw [if_pos same, BitVec.getLsbD_and, BitVec.getLsbD_not, getLsbD_mask positive,
        decide_eq_true rfl, decide_eq_true same, Bool.not_true, Bool.and_false, Bool.and_false,
        Bool.false_and]
    · rw [if_neg same, decide_eq_false same, Bool.not_false, Bool.true_and]
  · intro place different
    rw [BitVec.getLsbD_and, BitVec.getLsbD_not, getLsbD_mask positive,
      decide_eq_false different.symm, Bool.not_false, Bool.and_true]
    by_cases inside : place < width
    · rw [decide_eq_true inside, Bool.and_true]
    · rw [BitVec.getLsbD_of_ge _ _ (not_lt.mp inside), Bool.false_and]

/-- Words without bits stand for the empty set. -/
theorem bit_zero (zero : ∀ word ∈ words, word = 0) : bit words position = false := by
  rw [bit]
  cases here : words[position / width]? with
  | none => exact BitVec.getLsbD_zero
  | some word =>
      rw [Option.getD_some, zero word (List.mem_of_getElem? here)]
      exact BitVec.getLsbD_zero

end Wan.Library.Packed
