import Mathlib.Data.List.Basic
import Wan.Library.OrderedMap

/-!
# Byte strings

Byte strings are lists of bytes.  Texts of programs are given as Lean strings of
ASCII characters, and the character classes are those of the C locale.
-/

namespace Wan.Library

/-- A byte string. -/
abbrev Bytes := List UInt8

instance : LawfulBEq Bytes := inferInstanceAs (LawfulBEq (List UInt8))

namespace Bytes

/-- The bytes of an ASCII text. -/
def text (ascii : String) : Bytes := ascii.toList.map Char.toUInt8

/-- A literal need not be decoded to know its bytes. -/
theorem text_ofList (chars : List Char) :
    text (String.ofList chars) = chars.map Char.toUInt8 := by
  rw [text, String.toList_ofList]

/-- The byte of an ASCII character. -/
abbrev char (ascii : Char) : UInt8 := ascii.toUInt8

/-- `isdigit`. -/
def isDigit (byte : UInt8) : Bool := char '0' ≤ byte && byte ≤ char '9'

/-- `isalpha`. -/
def isAlpha (byte : UInt8) : Bool :=
  (char 'a' ≤ byte && byte ≤ char 'z') || (char 'A' ≤ byte && byte ≤ char 'Z')

/-- `isalnum`. -/
def isAlnum (byte : UInt8) : Bool := isDigit byte || isAlpha byte

/-- How many bytes two strings have in common at their start. -/
def commonLength : Bytes → Bytes → Nat
  | first :: firstRest, second :: secondRest =>
      if first = second then commonLength firstRest secondRest + 1 else 0
  | _, _ => 0

variable {first second : Bytes}

theorem commonLength_cons (byte other : UInt8) : commonLength (byte :: first) (other :: second) =
    if byte = other then commonLength first second + 1 else 0 := rfl

theorem commonLength_le_left : commonLength first second ≤ first.length := by
  induction first generalizing second with
  | nil => exact Nat.le_refl _
  | cons byte first ih =>
      cases second with
      | nil => exact Nat.zero_le _
      | cons other second =>
          rw [commonLength_cons]
          split
          · exact Nat.succ_le_succ ih
          · exact Nat.zero_le _

theorem commonLength_le_right : commonLength first second ≤ second.length := by
  induction first generalizing second with
  | nil => exact Nat.zero_le _
  | cons byte first ih =>
      cases second with
      | nil => exact Nat.le_refl _
      | cons other second =>
          rw [commonLength_cons]
          split
          · exact Nat.succ_le_succ ih
          · exact Nat.zero_le _

/-- The common part is the same in both strings. -/
theorem take_commonLength :
    first.take (commonLength first second) = second.take (commonLength first second) := by
  induction first generalizing second with
  | nil => rfl
  | cons byte first ih =>
      cases second with
      | nil => rfl
      | cons other second =>
          rw [commonLength_cons]
          split
          · next same => rw [List.take_succ_cons, List.take_succ_cons, same, ih]
          · rfl

/-- Strings have something in common when they start with the same byte. -/
theorem commonLength_eq_zero : commonLength first second = 0 ↔
    ∀ byte, first.head? = some byte → second.head? ≠ some byte := by
  cases first with
  | nil => exact ⟨fun _ _ none => (Option.some_ne_none _ none.symm).elim, fun _ => rfl⟩
  | cons byte first =>
      cases second with
      | nil => exact ⟨fun _ _ _ => (Option.some_ne_none _).symm, fun _ => rfl⟩
      | cons other second =>
          rw [commonLength_cons]
          split <;> simp_all [eq_comm]

/-- Behind their common start strings have nothing in common. -/
theorem commonLength_drop :
    commonLength (first.drop (commonLength first second)) (second.drop (commonLength first second)) =
      0 := by
  induction first generalizing second with
  | nil => rfl
  | cons byte first ih =>
      cases second with
      | nil => rfl
      | cons other second =>
          rw [commonLength_cons]
          split
          · exact ih
          · next different =>
              rw [List.drop_zero, List.drop_zero, commonLength_cons, if_neg different]

section Order

/-- The lexicographic order of unsigned bytes. -/
def before : Bytes → Bytes → Bool
  | _, [] => false
  | [], _ :: _ => true
  | first :: firstRest, second :: secondRest =>
      first < second || (first = second && before firstRest secondRest)

theorem before_irrefl (bytes : Bytes) : before bytes bytes = false := by
  induction bytes with
  | nil => rfl
  | cons byte bytes ih => simp [before, ih, UInt8.lt_irrefl]

theorem before_trans {third : Bytes} (one : before first second = true)
    (other : before second third = true) : before first third = true := by
  induction first generalizing second third with
  | nil =>
      cases third with
      | nil => cases second <;> cases other
      | cons byte third => rfl
  | cons byte first ih =>
      cases second with
      | nil => cases one
      | cons byte' second =>
          cases third with
          | nil => cases other
          | cons byte'' third =>
              simp only [before, Bool.or_eq_true, Bool.and_eq_true, decide_eq_true_eq]
                at one other ⊢
              rcases one with less | ⟨rfl, less⟩
              · rcases other with less' | ⟨rfl, -⟩
                · exact .inl (UInt8.lt_trans less less')
                · exact .inl less
              · rcases other with less' | ⟨rfl, less'⟩
                · exact .inl less'
                · exact .inr ⟨rfl, ih less less'⟩

/-- Byte strings that neither precede each other are equal. -/
theorem eq_of_not_before (one : before first second = false) (other : before second first = false) :
    first = second := by
  induction first generalizing second with
  | nil =>
      cases second with
      | nil => rfl
      | cons byte second => cases one
  | cons byte first ih =>
      cases second with
      | nil => cases other
      | cons byte' second =>
          simp only [before, Bool.or_eq_false_iff, Bool.and_eq_false_imp, decide_eq_true_eq,
            decide_eq_false_iff_not, UInt8.not_lt] at one other
          have same : byte = byte' := UInt8.le_antisymm other.1 one.1
          rw [same, ih (one.2 same) (other.2 same.symm)]

theorem equivalent_before : equivalent before first second = true ↔ first = second := by
  rw [equivalent_iff]
  constructor
  · intro neither
    exact eq_of_not_before neither.1 neither.2
  · rintro rfl
    exact ⟨before_irrefl first, before_irrefl first⟩

instance : StrictWeak before where
  irrefl bytes := by simp [before_irrefl]
  trans _ _ _ := before_trans
  incomp_trans a b c one other := by
    simp only [Bool.not_eq_true] at one other ⊢
    rw [eq_of_not_before one.1 one.2]
    exact other

end Order

end Bytes

end Wan.Library
