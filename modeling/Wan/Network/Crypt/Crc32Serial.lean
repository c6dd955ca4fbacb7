import Wan.Library.Crc
import Wan.Network.Agreement.Header

/-!
# `Crc32` as a cyclic redundancy check

What the bit-serial register of CRC-32 holds, and the table-driven loop against it.
-/

namespace Wan.Network

open Wan.Library

/-- The reflected polynomial of CRC-32. -/
def crc32Polynomial : BitVec 32 := 0xEDB88320

/-- CRC-32 bit by bit: the register starts with ones, and its complement is the result. -/
def crc32Serial (data : Bytes) : UInt32 :=
  .ofBitVec (Crc.feedAll crc32Polynomial 0xFFFFFFFF (Crc.bitsOfBytes data) ^^^ 0xFFFFFFFF)

/-- The table lists what eight shifts make of the indices. -/
theorem mappingTable_entries : mappingTable.toList.map UInt32.toNat =
    (List.range 256).map fun index =>
      (Crc.shifts crc32Polynomial 8 (BitVec.ofNat 32 index)).toNat := by
  decide +kernel

/-- Every entry of the table is its index after eight shifts. -/
theorem mappingTable_eq (index : BitVec 8) :
    (mappingTable.getD index.toNat 0).toBitVec =
      Crc.shifts crc32Polynomial 8 (index.setWidth 32) := by
  have entry := congrArg (fun entries => entries[index.toNat]?) mappingTable_entries
  simp only [List.getElem?_map, List.getElem?_range index.isLt, Option.map_some] at entry
  obtain ⟨value, found, same⟩ := Option.map_eq_some_iff.1 entry
  have widened : BitVec.ofNat 32 index.toNat = index.setWidth 32 := by
    apply BitVec.eq_of_toNat_eq
    simp
  rw [Array.getElem?_toList] at found
  rw [Array.getD_eq_getD_getElem?, found, Option.getD_some, ← widened]
  exact BitVec.eq_of_toNat_eq same

/-- One step of the loop takes in the bits of a byte. -/
theorem crc32Step_eq (crcValue : UInt32) (byte : UInt8) :
    (crc32Step crcValue byte).toBitVec =
      Crc.feedAll crc32Polynomial crcValue.toBitVec (Crc.bitsOf byte) := by
  have low (value : UInt32) : (value &&& 0xFF).toNat = (value.toBitVec.setWidth 8).toNat := by
    rw [UInt32.toNat_and, BitVec.toNat_setWidth]
    exact Nat.and_two_pow_sub_one_eq_mod value.toNat 8
  have noHigh : byte.toBitVec.setWidth 32 >>> 8 = 0#32 := by
    apply BitVec.eq_of_getLsbD_eq
    intro index bound
    rw [BitVec.getLsbD_ushiftRight, BitVec.getLsbD_setWidth,
      BitVec.getLsbD_of_ge byte.toBitVec _ (Nat.le_add_right ..)]
    simp
  rw [crc32Step, low, UInt32.toBitVec_xor, mappingTable_eq, Crc.feedAll_bitsOf (by decide),
    Crc.shifts_split 8 (crcValue.toBitVec ^^^ _), BitVec.ushiftRight_xor_distrib, noHigh,
    BitVec.xor_zero, UInt32.toBitVec_xor, UInt8.toBitVec_toUInt32]
  rfl

/-- The loop takes in the bits of all bytes. -/
theorem foldl_crc32Step (data : Bytes) (crcValue : UInt32) :
    (data.foldl crc32Step crcValue).toBitVec =
      Crc.feedAll crc32Polynomial crcValue.toBitVec (Crc.bitsOfBytes data) := by
  induction data generalizing crcValue with
  | nil => rfl
  | cons byte data ih =>
      rw [List.foldl_cons, ih, crc32Step_eq, ← Crc.feedAll_append]
      rfl

/-- The complement of the loop's result is the bit-serial CRC-32. -/
theorem complement_foldl (data : Bytes) :
    ~~~(data.foldl crc32Step 0xFFFFFFFF) = crc32Serial data := by
  apply UInt32.toBitVec_inj.mp
  rw [UInt32.toBitVec_not, foldl_crc32Step, crc32Serial, UInt32.toBitVec_ofBitVec,
    ← BitVec.xor_allOnes]
  rfl

/-- For every string and every length within it `Crc32` returns the CRC-32 of the prefix, and by
default that of the whole string. -/
theorem crc32_eq (data : Bytes) (representable : data.length < 2 ^ 64) (length : Nat)
    (within : length ≤ data.length) :
    crc32 data length = .ok (crc32Serial (data.take length)) ∧
      crc32 data (2 ^ 64 - 1) = .ok (crc32Serial data) := by
  constructor
  · have effective : (if length = 2 ^ 64 - 1 then data.length else length) = length := by
      split <;> omega
    simp only [crc32, effective, Nat.not_lt.mpr within, if_false, complement_foldl]
  · simp only [crc32, if_true, Nat.lt_irrefl, if_false, List.take_length, complement_foldl]

theorem crc32_eq_text :
    crc32 (Bytes.text "123456789") 4 = .ok (crc32Serial ((Bytes.text "123456789").take 4)) ∧
      crc32 (Bytes.text "123456789") (2 ^ 64 - 1) = .ok (crc32Serial (Bytes.text "123456789")) :=
  crc32_eq (Bytes.text "123456789") (by decide) 4 (by decide)

example : crc32Serial (Bytes.text "123456789") = 0xCBF43926 := by decide +kernel

/-- Strings that differ in at most four bytes in a row have different checksums. -/
theorem crc32Serial_burst (before after : Bytes) {first second : Bytes}
    (short : first.length ≤ 4) (same : first.length = second.length)
    (different : first ≠ second) :
    crc32Serial (before ++ (first ++ after)) ≠ crc32Serial (before ++ (second ++ after)) := by
  intro equal
  have registers := (BitVec.xor_left_inj _).mp (congrArg UInt32.toBitVec equal)
  simp only [Crc.bitsOfBytes, List.flatMap_append] at registers
  refine Crc.feedAll_burst (by decide) ?_ ?_ ?_ registers
  · rw [← Crc.bitsOfBytes, Crc.length_bitsOfBytes]
    omega
  · rw [← Crc.bitsOfBytes, ← Crc.bitsOfBytes, Crc.length_bitsOfBytes, Crc.length_bitsOfBytes,
      same]
  · exact fun bits => different (Crc.bitsOfBytes_injective bits)

/-- The part of a string that begins at a position, with what is before and behind it. -/
theorem split_window (body : Bytes) (start : Nat) :
    body = body.take start ++ ((body.drop start).take 4 ++ body.drop (start + 4)) := by
  rw [← List.drop_drop, List.take_append_drop, List.take_append_drop]

namespace ProtocolHeader

/-- A body that differs from another one of the same length only within four bytes in a row has
another checksum, and a header with the checksum of the one does not verify the other. -/
theorem burst_detected (digests : Digests) (body other : Bytes)
    (same : body.length = other.length) (different : body ≠ other) (start : Nat)
    (outside : ∀ index, index < start ∨ start + 4 ≤ index → body[index]? = other[index]?) :
    crc32 body body.length ≠ crc32 other other.length ∧
      ∀ header : ProtocolHeader, header.checksumType = .crc32 →
        verifyIntegrity digests (calculateAndSetChecksum digests header body) other = false := by
  have before : body.take start = other.take start := by
    apply List.ext_getElem?
    intro index
    rw [List.getElem?_take, List.getElem?_take]
    split
    next early => exact outside index (Or.inl early)
    next => rfl
  have behind : body.drop (start + 4) = other.drop (start + 4) := by
    apply List.ext_getElem?
    intro index
    rw [List.getElem?_drop, List.getElem?_drop]
    exact outside _ (Or.inr (Nat.le_add_right ..))
  have changed : crc32Serial body ≠ crc32Serial other := by
    rw [split_window body start, split_window other start, ← before, ← behind]
    apply crc32Serial_burst
    · exact List.length_take_le ..
    · simp [same]
    · intro equal
      apply different
      rw [split_window body start, split_window other start, ← before, ← behind, equal]
  rw [crc32_length, crc32_length, complement_foldl, complement_foldl]
  refine ⟨fun equal => changed (Except.ok.inj equal), fun header type => ?_⟩
  simp only [verifyIntegrity, calculateAndSetChecksum, calculateCheckCode, type, crc32_length,
    complement_foldl, Except.toOption, Option.getD_some, Bool.and_eq_false_iff,
    decide_eq_false_iff_not]
  exact Or.inr (Ne.symm changed)

theorem burst_detected_bytes :
    let digests : Digests := ⟨fun _ => [], fun _ => []⟩
    let body := Bytes.text "abcdefgh"
    let other := Bytes.text "abXYZWgh"
    crc32 body body.length ≠ crc32 other other.length ∧
      ∀ header : ProtocolHeader, header.checksumType = .crc32 →
        verifyIntegrity digests (calculateAndSetChecksum digests header body) other = false := by
  apply burst_detected ⟨fun _ => [], fun _ => []⟩ (Bytes.text "abcdefgh") (Bytes.text "abXYZWgh")
    (by decide) (by decide) 2
  intro index apart
  have listed : ∀ index < 8, index < 2 ∨ 6 ≤ index →
      (Bytes.text "abcdefgh")[index]? = (Bytes.text "abXYZWgh")[index]? := by decide
  by_cases inside : index < 8
  · exact listed index inside apart
  · rw [List.getElem?_eq_none (Nat.le_of_not_lt inside),
      List.getElem?_eq_none (Nat.le_of_not_lt inside)]

end ProtocolHeader

end Wan.Network
