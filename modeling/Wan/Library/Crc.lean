import Mathlib.Data.List.Basic

/-!
# Cyclic redundancy checks, reflected

A register of `w` bits takes in one bit at a time at its low end and is shifted down, with the
polynomial added whenever a bit falls out.  Shifting is linear and, if the polynomial has its top
bit, invertible; so up to `w` bits in a row are kept apart by the register, whatever comes before
and behind them.
-/

namespace Wan.Library.Crc

variable {w : Nat} (polynomial : BitVec w)

/-- Shift the register down by one bit. -/
def shift (register : BitVec w) : BitVec w :=
  if register.getLsbD 0 then (register >>> 1) ^^^ polynomial else register >>> 1

/-- Shift the register down by some bits. -/
def shifts : Nat → BitVec w → BitVec w
  | 0, register => register
  | count + 1, register => shifts count (shift polynomial register)

/-- Take in one bit. -/
def feed (register : BitVec w) (bit : Bool) : BitVec w :=
  shift polynomial (register ^^^ (BitVec.ofBool bit).setWidth w)

/-- Take in bits one after the other. -/
def feedAll (register : BitVec w) (bits : List Bool) : BitVec w :=
  bits.foldl (feed polynomial) register

/-- A register with the given bits, the first one lowest. -/
def pack : List Bool → BitVec w
  | [] => 0
  | bit :: bits => (BitVec.ofBool bit).setWidth w ^^^ (pack bits <<< 1)

variable {polynomial} {register other : BitVec w} {bits : List Bool}

theorem feedAll_append (first second : List Bool) :
    feedAll polynomial register (first ++ second) =
      feedAll polynomial (feedAll polynomial register first) second :=
  List.foldl_append

section Linear

theorem shift_xor (register other : BitVec w) :
    shift polynomial (register ^^^ other) =
      shift polynomial register ^^^ shift polynomial other := by
  have twice : ∀ a b : BitVec w, a ^^^ polynomial ^^^ (b ^^^ polynomial) = a ^^^ b := by
    intro a b
    rw [BitVec.xor_comm b, BitVec.xor_assoc, ← BitVec.xor_assoc polynomial, BitVec.xor_self,
      BitVec.zero_xor]
  simp only [shift, BitVec.getLsbD_xor, BitVec.ushiftRight_xor_distrib]
  cases register.getLsbD 0 <;> cases other.getLsbD 0
  · rfl
  · simp [BitVec.xor_assoc]
  · simp only [Bool.bne_false, if_true, Bool.false_eq_true, if_false]
    rw [BitVec.xor_assoc, BitVec.xor_comm (other >>> 1), BitVec.xor_assoc]
  · simp [twice]

theorem shifts_xor (count : Nat) (register other : BitVec w) :
    shifts polynomial count (register ^^^ other) =
      shifts polynomial count register ^^^ shifts polynomial count other := by
  induction count generalizing register other with
  | zero => rfl
  | succ count ih => rw [shifts, shift_xor, ih, shifts, shifts]

/-- A register whose low bits are clear is only moved down. -/
theorem shifts_high (count : Nat) (clear : ∀ index < count, register.getLsbD index = false) :
    shifts polynomial count register = register >>> count := by
  induction count generalizing register with
  | zero => simp [shifts]
  | succ count ih =>
      have lowest : register.getLsbD 0 = false := clear 0 (Nat.succ_pos _)
      rw [shifts, shift, lowest, if_neg Bool.false_ne_true, ih, ← BitVec.shiftRight_add,
        Nat.add_comm]
      intro index below
      rw [BitVec.getLsbD_ushiftRight, Nat.add_comm]
      exact clear _ (Nat.succ_lt_succ below)

/-- Shifting by some bits depends on those bits only, apart from the move. -/
theorem shifts_split (count : Nat) (register : BitVec w) :
    shifts polynomial count register =
      (register >>> count) ^^^
        shifts polynomial count ((register.setWidth count).setWidth w) := by
  have parts : register =
      (register >>> count <<< count) ^^^ (register.setWidth count).setWidth w := by
    apply BitVec.eq_of_getLsbD_eq
    intro index bound
    rw [BitVec.getLsbD_xor, BitVec.getLsbD_shiftLeft, BitVec.getLsbD_ushiftRight,
      BitVec.getLsbD_setWidth, BitVec.getLsbD_setWidth]
    by_cases low : index < count
    · simp [low, bound]
    · simp [low, bound, show count + (index - count) = index by omega]
  have moved : register >>> count <<< count >>> count = register >>> count := by
    apply BitVec.eq_of_getLsbD_eq
    intro index bound
    simp only [BitVec.getLsbD_ushiftRight, BitVec.getLsbD_shiftLeft]
    by_cases inside : count + index < w
    · simp [inside]
    · simp [inside, BitVec.getLsbD_of_ge register _ (Nat.le_of_not_lt inside)]
  conv => lhs; rw [parts]
  rw [shifts_xor, shifts_high, moved]
  intro index below
  simp [below]

end Linear

section Pack

variable {first second before after : List Bool}

/-- The bits of a packed register are those of the list. -/
theorem getLsbD_pack (short : bits.length ≤ w) (index : Nat) :
    (pack bits : BitVec w).getLsbD index = bits.getD index false := by
  induction bits generalizing index with
  | nil => simp [pack]
  | cons bit bits ih =>
      rw [List.length_cons] at short
      rw [pack, BitVec.getLsbD_xor, BitVec.getLsbD_setWidth, BitVec.getLsbD_shiftLeft]
      cases index with
      | zero => simp [show 0 < w by omega]
      | succ index =>
          rw [Nat.add_sub_cancel, ih (Nat.le_of_succ_le short), List.getD_cons_succ]
          by_cases inside : index + 1 < w
          · simp [inside]
          · simp [inside, show bits.length ≤ index by omega]

theorem pack_injective (short : first.length ≤ w) (same : first.length = second.length)
    (equal : (pack first : BitVec w) = pack second) : first = second := by
  apply List.ext_getElem same
  intro index one two
  have bit := congrArg (BitVec.getLsbD · index) equal
  simp only [getLsbD_pack short, getLsbD_pack (same ▸ short)] at bit
  simpa [one, two] using bit

/-- Taking in bits is adding all of them first and shifting then. -/
theorem feedAll_eq (short : bits.length ≤ w) (register : BitVec w) :
    feedAll polynomial register bits =
      shifts polynomial bits.length (register ^^^ pack bits) := by
  induction bits generalizing register with
  | nil => simp [feedAll, pack, shifts]
  | cons bit bits ih =>
      rw [List.length_cons] at short
      have moved : shift polynomial (pack bits <<< 1) = pack bits := by
        rw [shift, BitVec.getLsbD_shiftLeft]
        simp only [Nat.zero_lt_one, decide_true, Bool.not_true, Bool.and_false, Bool.false_and,
          Bool.false_eq_true, if_false]
        apply BitVec.eq_of_getLsbD_eq
        intro index bound
        rw [BitVec.getLsbD_ushiftRight, BitVec.getLsbD_shiftLeft, Nat.add_sub_cancel_left,
          getLsbD_pack (by omega)]
        by_cases inside : 1 + index < w
        · simp [inside]
        · simp [inside, show bits.length ≤ index by omega]
      have rest := ih (Nat.le_of_succ_le short) (feed polynomial register bit)
      rw [feedAll] at rest
      rw [feedAll, List.foldl_cons, rest, List.length_cons, shifts, pack, ← BitVec.xor_assoc,
        shift_xor _ (pack bits <<< 1), moved]
      rfl

end Pack

section Invertible

variable {first second before after : List Bool} (top : polynomial.getLsbD (w - 1) = true)
include top

/-- The bit that falls out is the top bit behind the shift. -/
theorem getLsbD_shift_top (register : BitVec w) :
    (shift polynomial register).getLsbD (w - 1) = register.getLsbD 0 := by
  have positive : 0 < w := by
    by_contra empty
    rw [BitVec.getLsbD_of_ge _ _ (by omega)] at top
    cases top
  have clear : (register >>> 1).getLsbD (w - 1) = false := by
    rw [BitVec.getLsbD_ushiftRight]
    exact BitVec.getLsbD_of_ge _ _ (by omega)
  rw [shift]
  cases lowest : register.getLsbD 0 <;> simp [clear, top]

theorem shift_injective (equal : shift polynomial register = shift polynomial other) :
    register = other := by
  have lowest : register.getLsbD 0 = other.getLsbD 0 := by
    rw [← getLsbD_shift_top top, equal, getLsbD_shift_top top]
  have rest : register >>> 1 = other >>> 1 := by
    rw [shift, shift, lowest] at equal
    split at equal
    · exact (BitVec.xor_left_inj _).mp equal
    · exact equal
  apply BitVec.eq_of_getLsbD_eq
  intro index bound
  cases index with
  | zero => exact lowest
  | succ index =>
      have bit := congrArg (BitVec.getLsbD · index) rest
      simpa [BitVec.getLsbD_ushiftRight, Nat.add_comm] using bit

theorem shifts_injective (count : Nat)
    (equal : shifts polynomial count register = shifts polynomial count other) :
    register = other := by
  induction count generalizing register other with
  | zero => exact equal
  | succ count ih => exact shift_injective top (ih equal)

/-- Different registers stay different whatever they take in. -/
theorem feedAll_injective
    (equal : feedAll polynomial register bits = feedAll polynomial other bits) :
    register = other := by
  induction bits generalizing register other with
  | nil => exact equal
  | cons bit bits ih => exact (BitVec.xor_left_inj _).mp (shift_injective top (ih equal))

/-- Lists of bits that differ in no more bits in a row than the register has lead to different
registers. -/
theorem feedAll_burst (short : first.length ≤ w) (same : first.length = second.length)
    (different : first ≠ second) :
    feedAll polynomial register (before ++ (first ++ after)) ≠
      feedAll polynomial register (before ++ (second ++ after)) := by
  intro equal
  rw [feedAll_append, feedAll_append, feedAll_append, feedAll_append] at equal
  have packed := feedAll_injective top equal
  have shortSecond : second.length ≤ w := same ▸ short
  rw [feedAll_eq short, feedAll_eq shortSecond, same] at packed
  exact different (pack_injective short same
    ((BitVec.xor_right_inj _).mp (shifts_injective top _ packed)))

end Invertible

section Bytes

/-- The bits of a byte, the lowest one first. -/
def bitsOf (byte : UInt8) : List Bool := (List.range 8).map byte.toBitVec.getLsbD

/-- The bits of a byte string in the order in which a reflected check takes them. -/
def bitsOfBytes (bytes : List UInt8) : List Bool := bytes.flatMap bitsOf

@[simp] theorem length_bitsOf (byte : UInt8) : (bitsOf byte).length = 8 := by
  simp [bitsOf]

theorem length_bitsOfBytes (bytes : List UInt8) :
    (bitsOfBytes bytes).length = 8 * bytes.length := by
  induction bytes with
  | nil => rfl
  | cons byte bytes ih =>
      rw [bitsOfBytes, List.flatMap_cons, List.length_append, length_bitsOf, List.length_cons,
        Nat.mul_succ, Nat.add_comm]
      exact congrArg (· + 8) ih

theorem bitsOf_injective {first second : UInt8} (equal : bitsOf first = bitsOf second) :
    first = second := by
  apply UInt8.toBitVec_inj.mp
  apply BitVec.eq_of_getLsbD_eq
  intro index bound
  have bit := congrArg (·[index]?) equal
  simpa [bitsOf, bound] using bit

theorem bitsOfBytes_injective {first second : List UInt8}
    (equal : bitsOfBytes first = bitsOfBytes second) : first = second := by
  induction first generalizing second with
  | nil =>
      cases second with
      | nil => rfl
      | cons byte second =>
          have length := congrArg List.length equal
          simp [length_bitsOfBytes] at length
  | cons byte first ih =>
      cases second with
      | nil =>
          have length := congrArg List.length equal
          simp [length_bitsOfBytes] at length
      | cons other second =>
          have parts := List.append_inj equal (by simp)
          rw [bitsOf_injective parts.1, ih parts.2]

/-- Taking in a byte adds it to the low end and shifts eight times. -/
theorem feedAll_bitsOf (wide : 8 ≤ w) (register : BitVec w) (byte : UInt8) :
    feedAll polynomial register (bitsOf byte) =
      shifts polynomial 8 (register ^^^ byte.toBitVec.setWidth w) := by
  have packed : (pack (bitsOf byte) : BitVec w) = byte.toBitVec.setWidth w := by
    apply BitVec.eq_of_getLsbD_eq
    intro index bound
    rw [getLsbD_pack (by simpa using wide), BitVec.getLsbD_setWidth]
    by_cases inside : index < 8
    · simp [bitsOf, inside, bound]
    · simp [bitsOf, inside, BitVec.getLsbD_of_ge byte.toBitVec index (Nat.le_of_not_lt inside)]
  rw [feedAll_eq (by simpa using wide), packed, length_bitsOf]

end Bytes

end Wan.Library.Crc
