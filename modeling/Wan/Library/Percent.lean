import Wan.Library.Bytes
import Mathlib.Data.Bool.AllAny

/-!
# Percent encoding

Form components write a blank as `+` and any byte as `%` with two hexadecimal digits.  What
is not an escape stands for itself.
-/

namespace Wan.Library.Bytes

/-- The value of a hexadecimal digit. -/
def hexValue (byte : UInt8) : Option UInt8 :=
  if char '0' ≤ byte && byte ≤ char '9' then some (byte - char '0')
  else if char 'a' ≤ byte && byte ≤ char 'f' then some (byte - char 'a' + 10)
  else if char 'A' ≤ byte && byte ≤ char 'F' then some (byte - char 'A' + 10)
  else none

/-- The byte that an escape with two digits stands for. -/
def ofHex (high low : UInt8) : Option UInt8 := do
  let upper ← hexValue high
  let lower ← hexValue low
  return upper <<< 4 ||| lower

/-- What a byte outside escapes stands for. -/
def unplus (byte : UInt8) : UInt8 := if byte = char '+' then char ' ' else byte

/-- The component that a text stands for. -/
def formDecode : Bytes → Bytes
  | byte :: high :: low :: rest =>
      match if byte = char '%' then ofHex high low else none with
      | some decoded => decoded :: formDecode rest
      | none => unplus byte :: formDecode (high :: low :: rest)
  | byte :: rest => unplus byte :: formDecode rest
  | [] => []

example : formDecode (text "a+b%2") = text "a b%2" := by decide

section Decode

variable {byte high low decoded : UInt8} {rest : Bytes}

theorem formDecode_cons (plain : byte ≠ char '%') :
    formDecode (byte :: rest) = unplus byte :: formDecode rest := by
  match rest with
  | high :: low :: rest => rw [formDecode, if_neg plain]
  | [_] => rfl
  | [] => rfl

theorem formDecode_escape (escaped : ofHex high low = some decoded) :
    formDecode (char '%' :: high :: low :: rest) = decoded :: formDecode rest := by
  rw [formDecode, if_pos rfl, escaped]

theorem formDecode_malformed (malformed : ofHex high low = none) :
    formDecode (char '%' :: high :: low :: rest) = char '%' :: formDecode (high :: low :: rest) := by
  rw [formDecode, if_pos rfl, malformed]
  rfl

theorem formDecode_truncated (short : rest.length < 2) :
    formDecode (char '%' :: rest) = char '%' :: formDecode rest := by
  match rest with
  | _ :: _ :: _ => exact absurd short (by simp)
  | [_] => rfl
  | [] => rfl

end Decode

/-- A way to write components: which bytes are escaped, and how digits are written. -/
structure PercentEncoding where
  reserved : UInt8 → Bool
  digit : UInt8 → UInt8
  separators : ∀ byte ∈ text "%+&=", reserved byte = true
  readable : ∀ nibble < 16, hexValue (digit nibble) = some nibble

namespace PercentEncoding

/-- Only letters, digits and `-._~` are written as they are. -/
def strict : PercentEncoding where
  reserved byte := !(isAlnum byte || byte ∈ text "-._~")
  digit nibble := if nibble < 10 then char '0' + nibble else char 'A' + (nibble - 10)
  separators := List.all_iff_forall_prop.mp (by decide)
  readable nibble small := by
    rcases nibble with ⟨⟨value⟩⟩
    have bound : value.val < 16 := small
    revert value
    decide +kernel

variable (encoding : PercentEncoding)

/-- How a byte is written. -/
def escape (byte : UInt8) : Bytes :=
  if encoding.reserved byte then
    [char '%', encoding.digit (byte >>> 4), encoding.digit (byte &&& 15)]
  else [byte]

/-- How a component is written. -/
def encode (bytes : Bytes) : Bytes := bytes.flatMap encoding.escape

example : strict.encode (text "a b&") = text "a%20b%26" := by decide +kernel

/-- The two halves of a byte. -/
theorem halves (byte : UInt8) :
    byte >>> 4 < 16 ∧ byte &&& 15 < 16 ∧ byte >>> 4 <<< 4 ||| byte &&& 15 = byte := by
  have all : ∀ value : Fin 256, UInt8.ofFin value >>> 4 < 16 ∧ UInt8.ofFin value &&& 15 < 16 ∧
      UInt8.ofFin value >>> 4 <<< 4 ||| UInt8.ofFin value &&& 15 = UInt8.ofFin value := by
    decide +kernel
  exact all byte.toFin

/-- The two digits of a byte stand for the byte. -/
theorem ofHex_digits (byte : UInt8) :
    ofHex (encoding.digit (byte >>> 4)) (encoding.digit (byte &&& 15)) = some byte := by
  rcases halves byte with ⟨upper, lower, whole⟩
  rw [ofHex, encoding.readable _ upper, encoding.readable _ lower]
  exact congrArg some whole

/-- What is written is read back. -/
theorem formDecode_encode (bytes : Bytes) : formDecode (encoding.encode bytes) = bytes := by
  induction bytes with
  | nil => rfl
  | cons byte bytes ih =>
      rw [encode, List.flatMap_cons, escape, ← encode]
      split
      next reserved =>
        exact (formDecode_escape (encoding.ofHex_digits byte)).trans (congrArg _ ih)
      next plain =>
        have visible : ∀ other ∈ text "%+&=", byte ≠ other := by
          rintro other member rfl
          exact plain (encoding.separators byte member)
        rw [List.singleton_append, formDecode_cons (visible _ (by decide)), ih, unplus,
          if_neg (visible _ (by decide))]

/-- Neither separator occurs in what is written. -/
theorem not_mem_encode {separator : UInt8} (separates : separator ∈ text "&=") (bytes : Bytes) :
    separator ∉ encoding.encode bytes := by
  have reserved : ∀ byte ∈ text "&=", encoding.reserved byte = true ∧ byte ≠ char '%' ∧
      hexValue byte = none := by
    have known : ∀ byte ∈ text "&=", byte ∈ text "%+&=" ∧ byte ≠ char '%' ∧
        hexValue byte = none := List.all_iff_forall_prop.mp (by decide)
    intro byte member
    exact ⟨encoding.separators byte (known byte member).1, (known byte member).2⟩
  rcases reserved separator separates with ⟨isReserved, apart, noDigit⟩
  have digits : ∀ nibble < 16, separator ≠ encoding.digit nibble := by
    rintro nibble small rfl
    rw [encoding.readable nibble small] at noDigit
    cases noDigit
  intro member
  rcases List.mem_flatMap.mp member with ⟨byte, -, inside⟩
  rcases halves byte with ⟨upper, lower, -⟩
  rw [escape] at inside
  split at inside
  next =>
    simp only [List.mem_cons, List.not_mem_nil, or_false] at inside
    rcases inside with same | same | same
    · exact apart same
    · exact digits _ upper same
    · exact digits _ lower same
  next plain =>
    rw [List.mem_singleton] at inside
    subst inside
    exact plain isReserved

end PercentEncoding

end Wan.Library.Bytes
