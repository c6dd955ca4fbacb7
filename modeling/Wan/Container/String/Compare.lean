import Mathlib.Data.List.Lex
import Mathlib.Order.Lattice

/-!
# Comparisons of `Container/String.hpp`

`operator==`, `operator<` and `operator>` walk two buffers side by side.  They agree with
the lexicographic order on the characters that the strings hold, for any order on the
type `char`, signed or not.
-/

namespace Wan.Container.String

/-- What the comparisons read of a `String`: a moved-from string has no buffer, and a buffer
is longer than the string it holds. -/
structure Str (Character : Type) where
  memberData : Option (List Character)
  memberSize : Nat
  terminated : ∀ buffer ∈ memberData, memberSize < buffer.length
  moved : memberData = none → memberSize = 0

variable {Character : Type}

namespace Str

/-- The characters of a string. -/
def characters (string : Str Character) : List Character :=
  (string.memberData.getD []).take string.memberSize

/-- `MemberData[index]`, if the buffer is that long. -/
def read (string : Str Character) (index : Nat) : Option Character := do
  let buffer ← string.memberData
  buffer[index]?

@[simp] theorem length_characters (string : Str Character) :
    string.characters.length = string.memberSize := by
  rw [characters, List.length_take]
  cases data : string.memberData with
  | none => rw [string.moved data, Nat.zero_min]
  | some buffer => exact Nat.min_eq_left (string.terminated buffer data).le

/-- Reading a character of the string stays within its buffer. -/
theorem read_eq (string : Str Character) {index : Nat} (inside : index < string.memberSize) :
    string.read index = string.characters[index]? := by
  rw [characters, List.getElem?_take_of_lt inside, read]
  cases data : string.memberData with
  | none => rfl
  | some buffer => rfl

section Compare

variable [LinearOrder Character]

/-- The loop of the comparisons: what to answer at the first difference, and what to answer
when a number of characters are the same. -/
def compare (differ : Character → Character → Bool) (ending : Bool)
    (this other : Str Character) : Nat → Nat → Option Bool
  | _, 0 => some ending
  | traversal, left + 1 => do
      let one ← this.read traversal
      let two ← other.read traversal
      if one ≠ two then
        some (differ one two)
      else
        compare differ ending this other (traversal + 1) left

/-- `operator==`. -/
def equals (this other : Str Character) : Option Bool :=
  if this.memberSize ≠ other.memberSize then
    some false
  else
    compare (fun _ _ => false) true this other 0 this.memberSize

/-- `operator<`. -/
def less (this other : Str Character) : Option Bool :=
  let minLen := if this.memberSize < other.memberSize then this.memberSize else other.memberSize
  compare (fun one two => one < two) (this.memberSize < other.memberSize) this other 0 minLen

/-- `operator>`. -/
def greater (this other : Str Character) : Option Bool :=
  let minLen := if this.memberSize < other.memberSize then this.memberSize else other.memberSize
  compare (fun one two => one > two) (this.memberSize > other.memberSize) this other 0 minLen

/-- What the loop computes, on lists: the answer at the first difference. -/
def atDifference (differ : Character → Character → Bool) (ending : Bool) :
    List Character → List Character → Bool
  | one :: this, two :: other =>
      if one ≠ two then differ one two else atDifference differ ending this other
  | _, _ => ending

/-- The loop stays within both buffers. -/
theorem compare_eq (differ : Character → Character → Bool) (ending : Bool)
    {this other : Str Character} :
    ∀ (left traversal : Nat), traversal + left = min this.memberSize other.memberSize →
      compare differ ending this other traversal left =
        some (atDifference differ ending (this.characters.drop traversal)
          (other.characters.drop traversal)) := by
  intro left
  induction left with
  | zero =>
      intro traversal reached
      rw [compare]
      rcases le_total this.memberSize other.memberSize with shorter | shorter
      · have beyond : this.characters.length ≤ traversal := by
          rw [length_characters]
          omega
        rw [List.drop_of_length_le beyond]
        rfl
      · have beyond : other.characters.length ≤ traversal := by
          rw [length_characters]
          omega
        rw [List.drop_of_length_le beyond]
        cases this.characters.drop traversal <;> rfl
  | succ left ih =>
      intro traversal reached
      have inThis : traversal < this.memberSize := by omega
      have inOther : traversal < other.memberSize := by omega
      have thisLong : traversal < this.characters.length := by rwa [length_characters]
      have otherLong : traversal < other.characters.length := by rwa [length_characters]
      rw [compare, read_eq this inThis, read_eq other inOther,
        List.getElem?_eq_getElem thisLong, List.getElem?_eq_getElem otherLong,
        List.drop_eq_getElem_cons thisLong, List.drop_eq_getElem_cons otherLong, atDifference]
      change (if _ then _ else _) = _
      split
      next => rfl
      next => exact ih (traversal + 1) (by omega)

/-- At a difference of lists of one length nothing is equal. -/
theorem atDifference_eq {this other : List Character} (length : this.length = other.length) :
    atDifference (fun _ _ => false) true this other = decide (this = other) := by
  induction this generalizing other with
  | nil =>
      rw [List.eq_nil_of_length_eq_zero length.symm]
      rfl
  | cons one this ih =>
      cases other with
      | nil => cases length
      | cons two other =>
          rw [atDifference, ih (Nat.succ.inj length)]
          by_cases same : one = two
          · simp [same]
          · simp [same]

/-- The first difference decides the lexicographic order, and after it the length. -/
theorem atDifference_lt (this other : List Character) :
    atDifference (fun one two => one < two) (this.length < other.length) this other =
      decide (this < other) := by
  induction this generalizing other with
  | nil =>
      cases other with
      | nil => simp [atDifference]
      | cons two other => simp [atDifference]
  | cons one this ih =>
      cases other with
      | nil => simp [atDifference]
      | cons two other =>
          rw [atDifference]
          by_cases same : one = two
          · rw [if_neg (not_not.2 same), same]
            have lengths : ((two :: this).length < (two :: other).length) =
              (this.length < other.length) := by simp
            simp only [lengths, ih, List.cons_lt_cons_iff, lt_irrefl, false_or, true_and]
          · simp [same, List.cons_lt_cons_iff]

/-- Both walks find the first difference at the same place. -/
theorem atDifference_flip (differ : Character → Character → Bool) (ending : Bool)
    (this other : List Character) :
    atDifference differ ending this other =
      atDifference (fun one two => differ two one) ending other this := by
  induction this generalizing other with
  | nil => cases other <;> rfl
  | cons one this ih =>
      cases other with
      | nil => rfl
      | cons two other =>
          rw [atDifference, atDifference, ih]
          simp only [ne_comm (a := two)]

theorem equals_eq (this other : Str Character) :
    this.equals other = some (decide (this.characters = other.characters)) := by
  rw [equals]
  split
  next apart =>
    rw [decide_eq_false]
    intro same
    apply apart
    rw [← length_characters this, same, length_characters]
  next same =>
    rw [not_not] at same
    rw [compare_eq _ _ _ _ (by rw [Nat.zero_add, same, Nat.min_self]), List.drop_zero,
      List.drop_zero, atDifference_eq (by rw [length_characters, length_characters, same])]

theorem less_eq (this other : Str Character) :
    this.less other = some (decide (this.characters < other.characters)) := by
  rw [less, compare_eq _ _ _ _ (by rw [Nat.zero_add]; split <;> omega), List.drop_zero,
    List.drop_zero, ← atDifference_lt, length_characters, length_characters]

theorem greater_eq (this other : Str Character) :
    this.greater other = some (decide (other.characters < this.characters)) := by
  rw [greater, compare_eq _ _ _ _ (by rw [Nat.zero_add]; split <;> omega), List.drop_zero,
    List.drop_zero, atDifference_flip, ← atDifference_lt, length_characters, length_characters]

/-- The comparisons read characters of the strings only, and are a strict total order on them
with the equality of their contents. -/
theorem strict_total_order (a b c : Str Character) :
    (a.equals b = some true ↔ a.characters = b.characters) ∧
    ((a.less b, a.equals b, b.less a) = (some true, some false, some false) ∨
      (a.less b, a.equals b, b.less a) = (some false, some true, some false) ∨
      (a.less b, a.equals b, b.less a) = (some false, some false, some true)) ∧
    a.greater b = b.less a ∧
    (a.less b = some true → b.less c = some true → a.less c = some true) := by
  simp only [equals_eq, less_eq, greater_eq, Option.some.injEq, decide_eq_true_eq, Prod.mk.injEq,
    decide_eq_false_iff_not, true_and]
  refine ⟨?_, fun less next => less.trans next⟩
  rcases lt_trichotomy a.characters b.characters with less | same | more
  · exact .inl ⟨less, less.ne, less.asymm⟩
  · rw [same]
    exact .inr (.inl ⟨lt_irrefl _, rfl, lt_irrefl _⟩)
  · exact .inr (.inr ⟨more.asymm, more.ne', more⟩)

end Compare

end Str

end Wan.Container.String
