import Wan.Network.Agreement.Lines
import Wan.Network.Agreement.Response

/-!
# Reading what `ToString` writes

Numbers, points of time and the lines behind the first one come back from the texts that
both `ToString` functions write.
-/

namespace Wan.Network

open Wan.Library

namespace ProtocolHeader

section Numbers

variable {number width : Nat} {milliseconds : Int}

/-- The numbers of all widths have at most twenty digits. -/
theorem length_decimal_le (narrow : width ≤ 64) (small : number < 2 ^ width) :
    (Bytes.decimal number).length ≤ 20 := by
  apply Bytes.decimal_length_le _ (by decide)
  calc
    number < 2 ^ width := small
    _ ≤ 2 ^ 64 := Nat.pow_le_pow_right (by decide) narrow
    _ < 10 ^ 20 := by decide

/-- Numbers come back from their decimal digits. -/
theorem safeParse_decimal (narrow : width ≤ 64) (small : number < 2 ^ width) :
    safeParse width (Bytes.decimal number) = some number := by
  have short := length_decimal_le narrow small
  rw [safeParse, if_neg (not_or.mpr ⟨Bytes.decimal_ne_nil, Nat.not_lt.mpr short⟩)]
  exact Bytes.parseUnsigned_decimal small

theorem notMem_decimal {byte : UInt8} (notDigit : Bytes.isDigit byte = false) :
    byte ∉ Bytes.decimal number := by
  intro member
  rw [Bytes.isDigit_of_mem_decimal member] at notDigit
  cases notDigit

theorem decimalSigned_natCast (number : Nat) :
    decimalSigned (number : Int) = Bytes.decimal number := by
  rw [decimalSigned, if_neg (Int.not_lt.mpr (Int.natCast_nonneg number)), Int.natAbs_natCast]

theorem safeParseSigned_decimal (small : number < 2 ^ 63) :
    safeParseSigned (Bytes.decimal number) = some (number : Int) := by
  have short : (Bytes.decimal number).length ≤ 20 := length_decimal_le (by decide) small
  have noSign : (Bytes.decimal number).head? ≠ some (Bytes.char '-') := by
    intro sign
    exact notMem_decimal (by decide) (List.mem_of_mem_head? sign)
  rw [safeParseSigned, if_neg (not_or.mpr ⟨Bytes.decimal_ne_nil, Nat.not_lt.mpr short⟩),
    if_neg noSign, Bytes.parseUnsigned_decimal small]
  rfl

/-- Digits have no outer blanks. -/
theorem trimmed_of_free {text : Bytes} (free : ∀ byte ∈ text, byte ∉ Bytes.text " \t") :
    Trimmed text := by
  have ends : ∀ (bytes : Bytes), (∀ byte ∈ bytes, byte ∉ Bytes.text " \t") →
      bytes.dropWhile (· ∈ Bytes.text " \t") = bytes := by
    intro bytes free
    cases bytes with
    | nil => rfl
    | cons byte bytes =>
        rw [List.dropWhile_cons_of_neg]
        simpa using free byte (List.mem_cons_self ..)
  rw [Trimmed, Bytes.trim, ends text free, List.rdropWhile, ends]
  · exact List.reverse_reverse text
  · intro byte member
    exact free byte (List.mem_reverse.mp member)

theorem trimmed_decimal : Trimmed (Bytes.decimal number) := by
  apply trimmed_of_free
  intro byte member blank
  apply notMem_decimal _ member
  rcases List.mem_cons.mp blank with rfl | blank
  · decide
  · rw [List.mem_singleton.mp blank]
    decide

end Numbers

section Written

variable {Start : Type} {startLine : List Bytes → Option Start} {start : Start}
  {special line value key data rest : Bytes} {nowMs : Int} {headers : HeaderMap}
  {milliseconds count : Nat} {lines : Lines}

/-- The lines that `ToString` writes behind the first one, for the value of the special
header. -/
def writtenLines (special value : Bytes) (milliseconds : Int) (headers : HeaderMap) : Bytes :=
  (if value ≠ [] then entryLine special value ++ Bytes.crlf else []) ++
    (entryLine (Bytes.text "Timestamp") (decimalSigned milliseconds) ++ Bytes.crlf ++
      (serializeHeaders headers ++ Bytes.crlf))

/-- An empty special header is not written, and is what a reader starts with. -/
theorem getD_special : (if value ≠ [] then some value else none).getD [] = value := by
  split
  · rfl
  next empty => exact (not_not.mp empty).symm

/-- The names of the fields are read as they stand. -/
theorem name_of_mem (known : key ∈ reserved) : Name key := by
  have checked : ∀ key ∈ reserved, Bytes.trim (Bytes.text " \t") key = key ∧ key ≠ [] ∧
      Bytes.hasAny (Bytes.text "\r\n:") key = false ∧ key.length ≤ 256 := by decide
  rcases checked key known with ⟨trimmed, nonempty, free, short⟩
  exact ⟨trimmed, nonempty, free, short⟩

/-- The line of the special header, if there is one. -/
theorem parseLines_special (known : special ∈ reserved) (unread : lines.special = none)
    (trimmed : Trimmed value) (valueFree : Bytes.hasAny (Bytes.text "\r\n") value = false)
    (short : value.length ≤ 512) :
    parseLines special nowMs (count + 1) (entryLine special value ++ Bytes.crlf ++ rest) lines =
      parseLines special nowMs count rest { lines with special := some value } := by
  have name := name_of_mem known
  have shortName := name.short
  have shortLine : special.length + 2 + value.length ≤ 8192 := by omega
  rw [parseLines_entryLine name trimmed valueFree shortLine, parseEntry,
    if_neg (name.valid valueFree shortLine), if_pos rfl, unread, if_neg]
  rw [Option.isSome_none]
  simpa using short

/-- The line of the timestamp. -/
theorem parseLines_timestamp (different : special ≠ Bytes.text "Timestamp")
    (unread : lines.timestamp = none) (small : milliseconds < 2 ^ 63)
    (recent : (milliseconds : Int) ≤ nowMs + 86400000) :
    parseLines special nowMs (count + 1)
        (entryLine (Bytes.text "Timestamp") (decimalSigned milliseconds) ++ Bytes.crlf ++ rest)
        lines =
      parseLines special nowMs count rest
        { lines with timestamp := some (milliseconds : Int) } := by
  have name : Name (Bytes.text "Timestamp") := name_of_mem (by decide)
  have short : (Bytes.decimal milliseconds).length ≤ 20 :=
    length_decimal_le (by decide) small
  have shortLine : (Bytes.text "Timestamp").length + 2 + (Bytes.decimal milliseconds).length ≤
      8192 := by
    have nine : (Bytes.text "Timestamp").length = 9 := by decide
    omega
  have valueFree : Bytes.hasAny (Bytes.text "\r\n") (Bytes.decimal milliseconds) = false := by
    rw [hasAny_eq_false]
    intro byte member isBreak
    apply notMem_decimal _ member
    rcases List.mem_cons.mp isBreak with rfl | isBreak
    · decide
    · rw [List.mem_singleton.mp isBreak]
      decide
  rw [decimalSigned_natCast, parseLines_entryLine name trimmed_decimal valueFree shortLine,
    parseEntry, if_neg (name.valid valueFree shortLine), if_neg (Ne.symm different), if_pos rfl,
    unread, safeParseSigned_decimal small]
  dsimp only
  rw [if_neg (by rw [Option.isSome_none]; decide), if_neg (by omega)]

/-- A text whose lines are read is read. -/
theorem parseText_of_parseLines (unbroken : Bytes.Unbroken line)
    (long : 8 ≤ line.length + rest.length)
    (short : line.length + 2 + rest.length ≤ maxProtocolMessageSize)
    (readStart : startLine (partsOf line) = some start)
    (readLines : parseLines special nowMs 100 rest .start = some ([], lines))
    (seen : lines.sawTerminator = true) (timed : lines.timestamp.isSome = true) :
    parseText startLine special nowMs (line ++ Bytes.crlf ++ rest) = some (start, lines) := by
  have two : Bytes.crlf.length = 2 := rfl
  have length : (line ++ Bytes.crlf ++ rest).length = line.length + 2 + rest.length := by
    rw [List.length_append, List.length_append, two]
  rw [parseText, if_neg, unbroken.cutAt_crlf]
  · dsimp only
    rw [length, if_neg (by omega), readStart, readLines]
    exact if_pos ⟨seen, timed, rfl⟩
  · rw [length, ← List.length_eq_zero_iff, length]
    omega

theorem length_serialize_le {entries : List (Bytes × Bytes)}
    (plain : ∀ entry ∈ entries, Plain special entry) :
    (entries.flatMap fun entry => entryLine entry.1 entry.2 ++ Bytes.crlf).length ≤
      entries.length * 8194 := by
  induction entries with
  | nil => exact Nat.zero_le _
  | cons entry entries ih =>
      have short := (plain entry (List.mem_cons_self ..)).short
      have later := ih fun other member => plain other (List.mem_cons_of_mem _ member)
      have two : Bytes.crlf.length = 2 := rfl
      rw [List.flatMap_cons, List.length_append, List.length_append, length_entryLine, two,
        List.length_cons]
      omega

section

variable (known : special ∈ [Bytes.text "User-Agent", Bytes.text "Server"])
  (trimmed : Trimmed value) (valueFree : Bytes.hasAny (Bytes.text "\r\n") value = false)
  (short : value.length ≤ 512) (small : milliseconds < 2 ^ 63)
  (recent : (milliseconds : Int) ≤ nowMs + 86400000)
  (plain : ∀ entry ∈ headers.toList, Plain special entry) (few : headers.size ≤ 90)

include known short small plain few

theorem length_writtenLines : 10 ≤ (writtenLines special value milliseconds headers).length ∧
    (writtenLines special value milliseconds headers).length ≤ 900000 := by
  have shortName : special.length ≤ 10 := by
    rcases List.mem_cons.mp known with rfl | known
    · decide
    · rw [List.mem_singleton.mp known]
      decide
  have digits : (Bytes.decimal milliseconds).length ≤ 20 :=
    length_decimal_le (by decide) small
  have entries := length_serialize_le plain
  have nine : (Bytes.text "Timestamp").length = 9 := by decide
  have two : Bytes.crlf.length = 2 := rfl
  have first : (if value ≠ [] then entryLine special value ++ Bytes.crlf else []).length ≤ 600 := by
    split
    · rw [List.length_append, length_entryLine, two]
      omega
    · exact Nat.zero_le _
  rw [OrderedMap.size] at few
  rw [writtenLines, decimalSigned_natCast, serializeHeaders_eq]
  simp only [List.length_append, length_entryLine, nine, two]
  omega

include trimmed valueFree recent

/-- What the loop makes of the written lines. -/
theorem parseLines_writtenLines :
    parseLines special nowMs 100 (writtenLines special value milliseconds headers) .start =
      some ([], ⟨headers, if value ≠ [] then some value else none, some milliseconds, true⟩) := by
  have reservedName : special ∈ reserved := by
    rcases List.mem_cons.mp known with rfl | known
    · decide
    · rw [List.mem_singleton.mp known]
      decide
  have different : special ≠ Bytes.text "Timestamp" := by
    rcases List.mem_cons.mp known with rfl | known
    · decide
    · rw [List.mem_singleton.mp known]
      decide
  have rebuilt : headers.toList.foldl OrderedMap.assign .empty = headers :=
    OrderedMap.foldl_assign headers
  have noEntries : (OrderedMap.empty : HeaderMap).size = 0 := rfl
  rw [OrderedMap.size] at few
  rw [writtenLines]
  split
  next nonempty =>
    rw [parseLines_special reservedName rfl trimmed valueFree short,
      parseLines_timestamp different rfl small recent, serializeHeaders_eq,
      parseLines_entries plain]
    · dsimp only [Lines.start]
      rw [rebuilt]
    · dsimp only [Lines.start]
      omega
    · omega
  next =>
    rw [List.nil_append, parseLines_timestamp different rfl small recent, serializeHeaders_eq,
      parseLines_entries plain]
    · dsimp only [Lines.start]
      rw [rebuilt]
    · dsimp only [Lines.start]
      omega
    · omega

/-- What the readers make of a written text. -/
theorem parseText_written (unbroken : Bytes.Unbroken line) (shortLine : line.length ≤ 4096)
    (readStart : startLine (partsOf line) = some start) :
    parseText startLine special nowMs
        (line ++ Bytes.crlf ++ writtenLines special value milliseconds headers) =
      some (start,
        ⟨headers, if value ≠ [] then some value else none, some milliseconds, true⟩) := by
  rcases length_writtenLines known short small plain few with ⟨long, notTooLong⟩
  apply parseText_of_parseLines unbroken _ _ readStart _ rfl rfl
  · omega
  · rw [maxProtocolMessageSize]
    omega
  · exact parseLines_writtenLines known trimmed valueFree short small recent plain few

end

/-- Accepted entries without outer blanks are read as they stand. -/
theorem plain_of_accepted (special : Bytes) (known : special ∈ reserved)
    (accepted : Accepted headers)
    (short : ∀ entry ∈ headers.toList,
      entry.1.length ≤ 256 ∧ entry.1.length + 2 + entry.2.length ≤ 8192)
    (trimmed : ∀ entry ∈ headers.toList, Trimmed entry.1 ∧ Trimmed entry.2) :
    ∀ entry ∈ headers.toList, Plain special entry := by
  intro entry member
  rcases acceptable_iff.mp (accepted entry member) with
    ⟨nonempty, notReserved, keyFree, valueFree⟩
  refine ⟨⟨(trimmed entry member).1, nonempty, ?_, (short entry member).1⟩,
    (trimmed entry member).2,
    valueFree, ?_, ?_, (short entry member).2⟩
  · rw [hasAny_eq_false] at keyFree ⊢
    intro byte inside among
    exact keyFree byte inside ((by decide : Bytes.text "\r\n:" ⊆ Bytes.text ":\r\n") among)
  · intro same
    exact notReserved (same ▸ known)
  · intro same
    apply notReserved
    rw [same]
    decide

end Written

end ProtocolHeader

section Milliseconds

variable {timestamp : TimePoint}

/-- Whole milliseconds between zero and a day behind the reading of the clock. -/
structure Recent (nowMs : Int) (timestamp : TimePoint) : Prop where
  whole : (1000000 : Int) ∣ timestamp.toInt
  notNegative : 0 ≤ timestamp.toInt
  recent : toMilliseconds timestamp ≤ nowMs + 86400000

theorem ofMilliseconds_toMilliseconds (whole : (1000000 : Int) ∣ timestamp.toInt) :
    ofMilliseconds (toMilliseconds timestamp) = timestamp := by
  rw [ofMilliseconds, toMilliseconds, Int.tdiv_mul_cancel whole, Int64.ofInt_toInt]

/-- Milliseconds of such a point of time are a number that the readers accept. -/
theorem Recent.exists_milliseconds {nowMs : Int} (recent : Recent nowMs timestamp) :
    ∃ milliseconds : Nat, toMilliseconds timestamp = milliseconds ∧ milliseconds < 2 ^ 63 ∧
      (milliseconds : Int) ≤ nowMs + 86400000 := by
  have bound : timestamp.toInt < 2 ^ 63 := Int64.toInt_lt timestamp
  have equal : toMilliseconds timestamp = timestamp.toInt / 1000000 :=
    Int.tdiv_eq_ediv_of_nonneg recent.notNegative
  have natural :=
    Int.toNat_of_nonneg (Int.ediv_nonneg recent.notNegative (by decide : (0 : Int) ≤ 1000000))
  have notNegative := recent.notNegative
  have notLate := recent.recent
  refine ⟨(timestamp.toInt / 1000000).toNat, ?_, ?_, ?_⟩
  · rw [equal, natural]
  · omega
  · rw [natural, ← equal]
    exact notLate

theorem recent_zero : Recent 0 0 := ⟨by decide, by decide, by decide⟩

end Milliseconds

end Wan.Network
