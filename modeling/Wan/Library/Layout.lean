import Mathlib.Data.Nat.Basic
import Wan.Library.Bytes
import Wan.Library.Failure

/-!
# Fields at positions of byte strings

A binary layout is what stands behind each position.  The rules here turn the layout of a
string into facts about single accesses.
-/

namespace Wan.Library

namespace Bytes

variable {bytes front rest : Bytes} {position : Nat} {byte : UInt8}

/-- What stands behind a position starts with the byte there. -/
theorem drop_eq_cons_iff : bytes.drop position = byte :: rest ↔
    bytes[position]? = some byte ∧ bytes.drop (position + 1) = rest := by
  constructor
  · intro behind
    have at0 : (bytes.drop position)[0]? = bytes[position + 0]? := List.getElem?_drop
    have later : (bytes.drop position).drop 1 = bytes.drop (position + 1) := List.drop_drop
    rw [behind] at at0 later
    exact ⟨at0.symm, later.symm⟩
  · intro parts
    rcases List.getElem?_eq_some_iff.mp parts.1 with ⟨inside, same⟩
    rw [List.drop_eq_getElem_cons inside, same, parts.2]

/-- What stands behind a position starts with the bytes there. -/
theorem drop_eq_append_iff : bytes.drop position = front ++ rest ↔
    (bytes.drop position).take front.length = front ∧
      bytes.drop (position + front.length) = rest := by
  constructor
  · intro behind
    have later : (bytes.drop position).drop front.length = bytes.drop (position + front.length) :=
      List.drop_drop
    rw [behind, List.drop_left] at later
    rw [behind, List.take_left]
    exact ⟨rfl, later.symm⟩
  · intro parts
    conv_lhs => rw [← List.take_append_drop front.length (bytes.drop position)]
    rw [parts.1, List.drop_drop, parts.2]

/-- The number of four bytes, the lowest first. -/
theorem toNat_littleEndian (first second third fourth : UInt8) :
    (first.toUInt32 ||| second.toUInt32 <<< 8 ||| third.toUInt32 <<< 16 |||
      fourth.toUInt32 <<< 24).toNat =
        first.toNat + 256 * second.toNat + 65536 * third.toNat + 16777216 * fourth.toNat := by
  have one := first.toNat_lt
  have two := second.toNat_lt
  have three := third.toNat_lt
  have four := fourth.toNat_lt
  have joined : ∀ low high shift : Nat, low < 2 ^ shift →
      low ||| high * 2 ^ shift = low + high * 2 ^ shift := by
    intro low high shift small
    rw [Nat.or_comm, ← Nat.shiftLeft_eq, ← Nat.shiftLeft_add_eq_or_of_lt small, Nat.add_comm]
  have at8 : UInt32.toNat 8 % 32 = 8 := rfl
  have at16 : UInt32.toNat 16 % 32 = 16 := rfl
  have at24 : UInt32.toNat 24 % 32 = 24 := rfl
  rw [UInt32.toNat_or, UInt32.toNat_or, UInt32.toNat_or, UInt32.toNat_shiftLeft,
    UInt32.toNat_shiftLeft, UInt32.toNat_shiftLeft, at8, at16, at24, Nat.shiftLeft_eq,
    Nat.shiftLeft_eq, Nat.shiftLeft_eq, UInt8.toNat_toUInt32, UInt8.toNat_toUInt32,
    UInt8.toNat_toUInt32, UInt8.toNat_toUInt32, Nat.mod_eq_of_lt (by omega),
    Nat.mod_eq_of_lt (by omega), Nat.mod_eq_of_lt (by omega), joined _ second.toNat 8 (by omega),
    joined _ third.toNat 16 (by omega), joined _ fourth.toNat 24 (by omega)]
  omega

end Bytes

end Wan.Library
