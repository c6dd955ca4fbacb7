import Wan.Network.Agreement.RequestText

/-!
# Reading what was written after reading

`FromString` accepts lines without a blank behind the colon, and `ToString` writes one.  A line
that is as long as a line may be is one byte too long when it is written again.
-/

namespace Wan.Network

open Wan.Library

namespace ProtocolHeader

variable {special line last bad key value rest : Bytes} {nowMs : Int} {lines lines' : Lines}
  {texts : List Bytes} {count : Nat} {headers : HeaderMap} {milliseconds : Int}

section Reading

/-- A line that no later one of the same name replaces. -/
def Latest (texts : List Bytes) (line : Bytes) : Prop :=
  ∃ front back, texts = front ++ line :: back ∧ ∀ other ∈ back, lineName other ≠ lineName line

theorem Latest.mem (latest : Latest texts line) : line ∈ texts := by
  rcases latest with ⟨front, back, rfl, -⟩
  exact List.mem_append_right _ List.mem_cons_self

/-- The last line replaces those of its name. -/
theorem latest_concat : Latest (texts ++ [last]) line ↔
    line = last ∨ (Latest texts line ∧ lineName line ≠ lineName last) := by
  constructor
  · rintro ⟨front, back, split, differ⟩
    rcases List.eq_nil_or_concat back with rfl | ⟨back, other, rfl⟩
    · rcases List.append_inj' split rfl with ⟨-, same⟩
      cases same
      exact .inl rfl
    · apply Or.inr
      rw [List.concat_eq_append] at split differ
      rw [← List.cons_append, ← List.append_assoc] at split
      rcases List.append_inj' split rfl with ⟨earlier, same⟩
      cases same
      refine ⟨⟨front, back, earlier, fun other inside => ?_⟩, ?_⟩
      · exact differ other (List.mem_append_left _ inside)
      · exact (differ last (List.mem_append_right _ (List.mem_singleton_self _))).symm
  · rintro (rfl | ⟨⟨front, back, rfl, differ⟩, notLast⟩)
    · exact ⟨texts, [], rfl, fun _ inside => by cases inside⟩
    · refine ⟨front, back ++ [last], by simp, fun other inside => ?_⟩
      rcases List.mem_append.mp inside with inside | isLast
      · exact differ other inside
      · rw [List.mem_singleton.mp isLast]
        exact notLast.symm

/-- What the loop has made of the lines so far. -/
structure ReadFrom (special : Bytes) (nowMs : Int) (texts : List Bytes) (lines : Lines) :
    Prop where
  entries : ∀ entry, entry ∈ lines.headers.toList ↔ ∃ line, Latest texts line ∧
    lineName line ≠ special ∧ lineName line ≠ Bytes.text "Timestamp" ∧
      entry = (lineName line, lineValue line)
  names : ∀ line ∈ texts, (lineName line).length ≤ 256
  few : lines.headers.size ≤ 90
  short : ∀ line ∈ texts, lineName line = special → (lineValue line).length ≤ 512
  timestamp : ∀ line ∈ texts, lineName line ≠ special → lineName line = Bytes.text "Timestamp" →
    ∃ milliseconds, safeParseSigned (lineValue line) = some milliseconds ∧
      lines.timestamp = some milliseconds
  recent : ∀ milliseconds ∈ lines.timestamp, 0 ≤ milliseconds ∧ milliseconds ≤ nowMs + 86400000 ∧
    ∃ line ∈ texts, lineName line = Bytes.text "Timestamp" ∧
      safeParseSigned (lineValue line) = some milliseconds

theorem readFrom_start : ReadFrom special nowMs [] .start where
  entries entry := by
    constructor
    · intro inside
      cases inside
    · rintro ⟨line, latest, -⟩
      cases latest.mem
  names _ inside := by cases inside
  few := Nat.zero_le _
  short _ inside := by cases inside
  timestamp _ inside := by cases inside
  recent _ present := by cases present

/-- The checks on the lengths that an entry passes. -/
theorem parseEntry_lengths (read : parseEntry special nowMs key value lines = some lines') :
    key.length ≤ 256 ∧ (key = special → value.length ≤ 512) ∧
      lines'.headers.size ≤ max lines.headers.size 90 := by
  rw [parseEntry] at read
  split at read
  · cases read
  next valid =>
  simp only [not_or, Nat.not_lt] at valid
  refine ⟨valid.2.1, ?_⟩
  split at read
  next isSpecial =>
    split at read
    · cases read
    next short =>
      cases read
      exact ⟨fun _ => by omega, Nat.le_max_left ..⟩
  next notSpecial =>
    refine ⟨fun isSpecial => absurd isSpecial notSpecial, ?_⟩
    split at read
    next =>
      split at read
      · cases read
      split at read
      · cases read
      split at read
      · cases read
      cases read
      exact Nat.le_max_left ..
    next =>
      split at read
      · cases read
      next room =>
        cases read
        have grown : (lines.headers.assign (key, value)).size ≤ lines.headers.size + 1 :=
          OrderedMap.size_assign_le
        dsimp only
        omega

/-- There is one timestamp. -/
theorem parseEntry_timestamp (different : special ≠ Bytes.text "Timestamp")
    (read : parseEntry special nowMs (Bytes.text "Timestamp") value lines = some lines') :
    lines.timestamp = none ∧ ∃ milliseconds, safeParseSigned value = some milliseconds ∧
      0 ≤ milliseconds ∧ milliseconds ≤ nowMs + 86400000 ∧
      lines' = { lines with timestamp := some milliseconds } := by
  rw [parseEntry] at read
  split at read
  · cases read
  rw [if_neg different.symm, if_pos rfl] at read
  split at read
  · cases read
  next first =>
  split at read
  · cases read
  next milliseconds number =>
  split at read
  · cases read
  next timely =>
  cases read
  exact ⟨by simpa using first, milliseconds, number, by omega, by omega, rfl⟩

/-- A line whose name has a field of its own leaves the entries alone. -/
theorem latest_concat_field (field : lineName last = special ∨ lineName last = Bytes.text "Timestamp")
    {content : Bytes → Prop} :
    (∃ line, Latest (texts ++ [last]) line ∧ lineName line ≠ special ∧
        lineName line ≠ Bytes.text "Timestamp" ∧ content line) ↔
      ∃ line, Latest texts line ∧ lineName line ≠ special ∧
        lineName line ≠ Bytes.text "Timestamp" ∧ content line := by
  constructor
  · rintro ⟨line, latest, notSpecial, notTimestamp, holds⟩
    rcases latest_concat.mp latest with rfl | ⟨earlier, -⟩
    · exact (field.elim notSpecial notTimestamp).elim
    · exact ⟨line, earlier, notSpecial, notTimestamp, holds⟩
  · rintro ⟨line, latest, notSpecial, notTimestamp, holds⟩
    refine ⟨line, latest_concat.mpr (.inr ⟨latest, fun same => ?_⟩), notSpecial, notTimestamp, holds⟩
    rw [← same] at field
    exact field.elim notSpecial notTimestamp

theorem ReadFrom.step (different : special ≠ Bytes.text "Timestamp")
    (readFrom : ReadFrom special nowMs texts lines)
    (read : parseLine special nowMs last lines = some lines') :
    ReadFrom special nowMs (texts ++ [last]) lines' := by
  have entry := parseEntry_of_parseLine read
  rcases parseEntry_lengths entry with ⟨shortName, shortValue, grown⟩
  have few := readFrom.few
  have either {line : Bytes} (member : line ∈ texts ++ [last]) : line ∈ texts ∨ line = last := by
    rcases List.mem_append.mp member with old | new
    · exact .inl old
    · exact .inr (List.mem_singleton.mp new)
  have names : ∀ line ∈ texts ++ [last], (lineName line).length ≤ 256 := by
    intro line member
    rcases either member with old | rfl
    · exact readFrom.names line old
    · exact shortName
  have short : ∀ line ∈ texts ++ [last], lineName line = special →
      (lineValue line).length ≤ 512 := by
    intro line member isSpecial
    rcases either member with old | rfl
    · exact readFrom.short line old isSpecial
    · exact shortValue isSpecial
  have recent : ∀ milliseconds ∈ lines.timestamp, 0 ≤ milliseconds ∧
      milliseconds ≤ nowMs + 86400000 ∧ ∃ line ∈ texts ++ [last],
        lineName line = Bytes.text "Timestamp" ∧
          safeParseSigned (lineValue line) = some milliseconds := by
    intro milliseconds present
    rcases readFrom.recent milliseconds present with ⟨notNegative, notLate, line, inside, known⟩
    exact ⟨notNegative, notLate, line, List.mem_append_left _ inside, known⟩
  rcases parseEntry_cases entry with ⟨_, _, _, isSpecial | isTimestamp | isEntry⟩
  · rcases isSpecial with ⟨isSpecial, _, rfl⟩
    refine ⟨fun entry => ?_, names, readFrom.few, short, ?_, recent⟩
    · rw [latest_concat_field (.inl isSpecial)]
      exact readFrom.entries entry
    · intro line member notSpecial named
      rcases either member with old | rfl
      · exact readFrom.timestamp line old notSpecial named
      · exact absurd isSpecial notSpecial
  · rcases isTimestamp with ⟨_, isTimestamp, _⟩
    rw [isTimestamp] at entry
    rcases parseEntry_timestamp different entry with
      ⟨first, milliseconds, number, notNegative, notLate, rfl⟩
    refine ⟨fun entry => ?_, names, readFrom.few, short, ?_, ?_⟩
    · rw [latest_concat_field (.inr isTimestamp)]
      exact readFrom.entries entry
    · intro line member notSpecial named
      rcases either member with old | rfl
      · rcases readFrom.timestamp line old notSpecial named with ⟨_, _, present⟩
        cases first.symm.trans present
      · exact ⟨milliseconds, number, rfl⟩
    · intro _ present
      cases present
      exact ⟨notNegative, notLate, last, List.mem_append_right _ (List.mem_singleton_self _),
        isTimestamp, number⟩
  · rcases isEntry with ⟨notSpecial, notTimestamp, rfl⟩
    refine ⟨fun entry => ?_, names, by omega, short, ?_, recent⟩
    · dsimp only
      rw [OrderedMap.mem_assign, readFrom.entries entry, ← Bool.not_eq_true, Bytes.equivalent_before]
      constructor
      · rintro (rfl | ⟨⟨line, latest, notSpecial, notTimestamp, rfl⟩, apart⟩)
        · exact ⟨last, latest_concat.mpr (.inl rfl), notSpecial, notTimestamp, rfl⟩
        · exact ⟨line, latest_concat.mpr (.inr ⟨latest, apart⟩), notSpecial, notTimestamp, rfl⟩
      · rintro ⟨line, latest, notSpecial, notTimestamp, rfl⟩
        rcases latest_concat.mp latest with rfl | ⟨earlier, apart⟩
        · exact .inl rfl
        · exact .inr ⟨⟨line, earlier, notSpecial, notTimestamp, rfl⟩, apart⟩
    · intro line member notSpecial named
      rcases either member with old | rfl
      · exact readFrom.timestamp line old notSpecial named
      · exact absurd named notTimestamp

/-- What the loop has made of all lines. -/
theorem readFrom_foldlM (different : special ≠ Bytes.text "Timestamp")
    (read : texts.foldlM (fun lines line => parseLine special nowMs line lines) .start =
      some lines') : ReadFrom special nowMs texts lines' := by
  induction texts using List.reverseRecOn generalizing lines' with
  | nil =>
      cases read
      exact readFrom_start
  | append_singleton texts last ih =>
      rw [List.foldlM_append] at read
      rcases Option.bind_eq_some_iff.mp read with ⟨middle, earlier, read⟩
      rw [List.foldlM_cons] at read
      rcases Option.bind_eq_some_iff.mp read with ⟨_, read, done⟩
      cases done
      exact (ih earlier).step different read

end Reading

section Rejecting

/-- The lines behind the first one, without the empty line at the end. -/
def writtenTexts (special value : Bytes) (milliseconds : Int) (headers : HeaderMap) : List Bytes :=
  (if value ≠ [] then [entryLine special value] else []) ++
    entryLine (Bytes.text "Timestamp") (decimalSigned milliseconds) ::
      headers.toList.map fun entry => entryLine entry.1 entry.2

theorem writtenLines_eq : writtenLines special value milliseconds headers =
    (writtenTexts special value milliseconds headers).flatMap (· ++ Bytes.crlf) ++ Bytes.crlf := by
  rw [writtenLines, writtenTexts, serializeHeaders_eq]
  split <;> simp [List.flatMap_map]

theorem length_writtenTexts_le : (writtenTexts special value milliseconds headers).length ≤
    headers.size + 2 := by
  rw [writtenTexts, List.length_append, List.length_cons, List.length_map, OrderedMap.size]
  split
  · rw [List.length_singleton]
    omega
  · rw [List.length_nil]
    omega

/-- A line that is too long or that cannot be read makes the loop fail. -/
theorem parseLines_eq_none (whole : ∀ text ∈ texts, Bytes.Unbroken text ∧ text ≠ [])
    (member : bad ∈ texts)
    (isBad : 8192 < bad.length ∨ ∀ lines, parseLine special nowMs bad lines = none)
    (enough : texts.length ≤ count) :
    parseLines special nowMs count (texts.flatMap (· ++ Bytes.crlf) ++ rest) lines = none := by
  induction texts generalizing lines count with
  | nil => cases member
  | cons text texts ih =>
      cases count with
      | zero => cases enough
      | succ count =>
          rcases whole text List.mem_cons_self with ⟨unbroken, nonempty⟩
          have behind : (text :: texts).flatMap (· ++ Bytes.crlf) ++ rest =
              text ++ Bytes.crlf ++ (texts.flatMap (· ++ Bytes.crlf) ++ rest) := by
            rw [List.flatMap_cons, List.append_assoc]
          rw [behind, parseLines, if_neg (by simp [nonempty]), unbroken.cutAt_crlf]
          dsimp only
          by_cases long : 8192 < text.length
          · rw [if_pos long]
          rw [if_neg long, if_neg nonempty]
          cases read : parseLine special nowMs text lines with
          | none => rfl
          | some lines' =>
              rcases List.mem_cons.mp member with rfl | later
              · rcases isBad with isLong | unreadable
                · exact absurd isLong long
                · cases read.symm.trans (unreadable lines)
              · exact ih (fun other inside => whole other (List.mem_cons_of_mem _ inside)) later
                  (Nat.le_of_succ_le_succ enough)

/-- A negative timestamp is not read. -/
theorem parseLine_negative (different : special ≠ Bytes.text "Timestamp")
    (negative : milliseconds < 0) (bounded : -2 ^ 63 ≤ milliseconds) :
    parseLine special nowMs (entryLine (Bytes.text "Timestamp") (decimalSigned milliseconds)) lines =
      none := by
  have small : milliseconds.natAbs < 2 ^ 63 + 1 := by omega
  have digits : (Bytes.decimal milliseconds.natAbs).length ≤ 19 := by
    apply Bytes.decimal_length_le _ (by decide)
    omega
  have written : decimalSigned milliseconds =
      Bytes.char '-' :: Bytes.decimal milliseconds.natAbs := if_pos negative
  have trimmed : Trimmed (Bytes.char '-' :: Bytes.decimal milliseconds.natAbs) := by
    apply trimmed_of_free
    intro byte member
    rcases List.mem_cons.mp member with rfl | member
    · decide
    · have isDigit := Bytes.isDigit_of_mem_decimal member
      intro blank
      rcases List.mem_cons.mp blank with rfl | blank
      · revert isDigit
        decide
      · rw [List.mem_singleton.mp blank] at isDigit
        revert isDigit
        decide
  have number : safeParseSigned (Bytes.char '-' :: Bytes.decimal milliseconds.natAbs) =
      some milliseconds := by
    have long : (Bytes.char '-' :: Bytes.decimal milliseconds.natAbs).length ≤ 20 := by
      rw [List.length_cons]
      omega
    rw [safeParseSigned, if_neg (not_or.mpr ⟨List.cons_ne_nil _ _, Nat.not_lt.mpr long⟩),
      List.head?_cons, if_pos rfl, List.tail_cons, Bytes.parseUnsigned_decimal small]
    have value : -(milliseconds.natAbs : Int) = milliseconds := by omega
    exact congrArg some value
  have nine : (Bytes.text "Timestamp").length = 9 := by decide
  rw [written, parseLine_entryLine (by decide) (by decide) (by rw [nine, List.length_cons]; omega),
    trimmed]
  cases read : parseEntry special nowMs (Bytes.trim (Bytes.text " \t") (Bytes.text "Timestamp"))
      (Bytes.char '-' :: Bytes.decimal milliseconds.natAbs) lines with
  | none => rfl
  | some lines' =>
      have name : Bytes.trim (Bytes.text " \t") (Bytes.text "Timestamp") = Bytes.text "Timestamp" :=
        by decide
      rw [name] at read
      rcases parseEntry_timestamp different read with ⟨_, other, isOther, notNegative, _⟩
      cases number.symm.trans isOther
      omega

theorem length_of_safeParseSigned (number : safeParseSigned value = some milliseconds) :
    value.length ≤ 20 := by
  rw [safeParseSigned] at number
  split at number
  · cases number
  next short =>
    simp only [not_or, Nat.not_lt] at short
    exact short.2

theorem parseText_eq_none {Start : Type} {startLine : List Bytes → Option Start}
    (unbroken : Bytes.Unbroken line)
    (unread : parseLines special nowMs 100 rest .start = none) :
    parseText startLine special nowMs (line ++ Bytes.crlf ++ rest) = none := by
  rw [parseText, unbroken.cutAt_crlf]
  dsimp only
  rw [unread]
  split
  · rfl
  split
  · rfl
  cases startLine (partsOf line) <;> rfl

end Rejecting

end ProtocolHeader

namespace RequestHeader

open ProtocolHeader

variable {header receiver : RequestHeader} {now : TimePoint} {nowMs : Int} {data : Bytes}

/-- The header lines of a text. -/
def headerLinesOf (data : Bytes) : List Bytes :=
  match Bytes.cutAt Bytes.crlf data with
  | none => []
  | some (_, rest) => headerLines 100 rest

/-- The lines that are not replaced stay within the limit with a blank behind the colon, and the
timestamp is within the range of the clock. -/
structure Restorable (data : Bytes) : Prop where
  short : ∀ line, Latest (headerLinesOf data) line →
    (lineName line).length + 2 + (lineValue line).length ≤ 8192
  early : ∀ line ∈ headerLinesOf data, lineName line = Bytes.text "Timestamp" →
    ∀ milliseconds, safeParseSigned (lineValue line) =
      some milliseconds → milliseconds * 1000000 < 2 ^ 63

/-- What a text is read to. -/
structure Outcome (nowMs : Int) (data : Bytes) (lines : Lines) (milliseconds : Int)
    (header : RequestHeader) : Prop where
  readable : Readable header
  clean : Clean (Bytes.text "User-Agent") lines
  readFrom : ReadFrom (Bytes.text "User-Agent") nowMs (headerLinesOf data) lines
  headers : header.headers = lines.headers
  userAgent : header.userAgent = lines.special.getD []
  present : lines.timestamp = some milliseconds
  timestamp : header.timestamp = ofMilliseconds milliseconds

theorem readable_of_parse {line : Bytes} {start : RequestHeader} (unbroken : Bytes.Unbroken line)
    (read : parseStartLine (partsOf line) = some start) : Readable start := by
  rcases parseStartLine_cases read with ⟨isMethod, isTarget, shortMethod, shortTarget⟩
  have part {limit : Nat} {index : Nat} {text : Bytes}
      (isPart : (partsOf line)[index]? = some text) (short : text.length ≤ limit) :
      Part limit text := by
    have member := List.mem_of_mem_take (List.mem_of_getElem? isPart)
    rcases Bytes.mem_words member with ⟨nonempty, noBlank, _⟩
    exact ⟨nonempty, short, noBlank, unbroken.infix (Bytes.infix_of_mem_words member)⟩
  exact ⟨part isMethod shortMethod, part isTarget shortTarget⟩

theorem exists_outcome (read : receiver.fromString nowMs data = (header, true)) :
    ∃ lines milliseconds, Outcome nowMs data lines milliseconds header := by
  rw [fromString] at read
  split at read
  · cases congrArg Prod.snd read
  next start lines text =>
  cases read
  rcases parseText_cases text with ⟨line, rest, cut, readStart, readLines, _, timed⟩
  rcases Option.isSome_iff_exists.mp timed with ⟨milliseconds, present⟩
  rcases parseLines_foldlM readLines with ⟨last, folded, equal⟩
  have readFrom := readFrom_foldlM (by decide) folded
  have readable := readable_of_parse (Bytes.unbroken_of_cutAt cut) readStart
  refine ⟨lines, milliseconds, ⟨readable.method, readable.target⟩, .parseLines readLines, ?_, rfl,
    rfl, present, ?_⟩
  · rw [headerLinesOf, cut, equal]
    exact ⟨readFrom.entries, readFrom.names, readFrom.few, readFrom.short, readFrom.timestamp,
      readFrom.recent⟩
  · dsimp only
    rw [present]
    rfl

variable {lines : Lines} {milliseconds : Int}

/-- Milliseconds are rounded towards zero. -/
theorem toMilliseconds_rounded (timestamp : TimePoint) :
    timestamp.toInt - 1000000 < toMilliseconds timestamp * 1000000 ∧
      toMilliseconds timestamp * 1000000 < timestamp.toInt + 1000000 := by
  have one : Int.sign 1000000 = 1 := rfl
  rw [toMilliseconds, Int.tdiv_eq_ediv, one]
  split <;> omega

theorem toMilliseconds_ofMilliseconds (notNegative : 0 ≤ milliseconds)
    (early : milliseconds * 1000000 < 2 ^ 63) :
    toMilliseconds (ofMilliseconds milliseconds) = milliseconds := by
  have exact : (Int64.ofInt (milliseconds * 1000000)).toInt = milliseconds * 1000000 :=
    Int64.toInt_ofInt_of_le (by omega) (by omega)
  rw [toMilliseconds, ofMilliseconds, exact]
  exact Int.mul_tdiv_cancel _ (by decide)

/-- Beyond the range of the clock a point of time wraps around. -/
theorem toMilliseconds_late (late : 2 ^ 63 ≤ milliseconds * 1000000)
    (bounded : milliseconds * 1000000 < 2 ^ 63 + 2 ^ 62) :
    toMilliseconds (ofMilliseconds milliseconds) < 0 ∧
      -2 ^ 63 ≤ toMilliseconds (ofMilliseconds milliseconds) := by
  have wrapped : (Int64.ofInt (milliseconds * 1000000)).toInt =
      milliseconds * 1000000 - 2 ^ 64 := by
    rw [Int64.toInt_ofInt, Int.bmod, Int64.size]
    omega
  have rounded := toMilliseconds_rounded (ofMilliseconds milliseconds)
  rw [ofMilliseconds, wrapped] at rounded
  rw [ofMilliseconds]
  omega

/-- A day behind the clock is still within half the range of the clock. -/
theorem bounded_of_recent (recent : milliseconds ≤ toMilliseconds now + 86400000) :
    milliseconds * 1000000 < 2 ^ 63 + 2 ^ 62 := by
  have bound : now.toInt < 2 ^ 63 := Int64.toInt_lt now
  have rounded := toMilliseconds_rounded now
  omega

theorem Outcome.plain (outcome : Outcome nowMs data lines milliseconds header)
    (restorable : Restorable data) : ∀ entry ∈ header.headers.toList,
      Plain (Bytes.text "User-Agent") entry := by
  intro entry member
  rw [outcome.headers] at member
  rcases outcome.clean.entries entry member with
    ⟨trimmedName, trimmed, nonempty, nameFree, valueFree, notSpecial, notTimestamp⟩
  rcases (outcome.readFrom.entries entry).mp member with ⟨line, latest, _, _, rfl⟩
  exact ⟨⟨trimmedName, nonempty, nameFree, outcome.readFrom.names line latest.mem⟩, trimmed,
    valueFree, notSpecial, notTimestamp, restorable.short line latest⟩

/-- What was read from a restorable text is read again from the text that it is written to. -/
theorem Outcome.restored (outcome : Outcome nowMs data lines milliseconds header)
    (restorable : Restorable data) : receiver.fromString nowMs header.toString =
      ({ header with protocolType := receiver.protocolType }, true) := by
  rcases outcome.readFrom.recent milliseconds outcome.present with
    ⟨notNegative, notLate, line, inside, named, number⟩
  have early := restorable.early line inside named milliseconds number
  have agent : Trimmed header.userAgent ∧ header.userAgent.length ≤ 512 ∧
      Bytes.hasAny (Bytes.text "\r\n") header.userAgent = false := by
    rw [outcome.userAgent]
    cases present : lines.special with
    | none => exact ⟨rfl, by decide, rfl⟩
    | some value => exact outcome.clean.special value present
  rcases Int.eq_ofNat_of_zero_le notNegative with ⟨count, rfl⟩
  apply outcome.readable.fromString_toString agent.1 agent.2.2 agent.2.1 _ outcome.timestamp.symm
  · omega
  · exact notLate
  · exact outcome.plain restorable
  · rw [outcome.headers]
    exact outcome.readFrom.few
  · rw [outcome.timestamp]
    exact toMilliseconds_ofMilliseconds notNegative early

theorem notMem_decimalSigned {number : Int} : (13 : UInt8) ∉ decimalSigned number := by
  have digits : (13 : UInt8) ∉ Bytes.decimal number.natAbs :=
    notMem_decimal (by decide)
  rw [decimalSigned]
  split
  · rw [List.mem_cons, not_or]
    exact ⟨by decide, digits⟩
  · exact digits

theorem unbroken_entryLine {key value : Bytes} (keyFree : (13 : UInt8) ∉ key)
    (valueFree : (13 : UInt8) ∉ value) :
    Bytes.Unbroken (entryLine key value) ∧
      entryLine key value ≠ [] := by
  constructor
  · apply Bytes.unbroken_of_not_mem
    rw [entryLine, List.mem_append, List.mem_append, not_or, not_or]
    exact ⟨⟨keyFree, by decide⟩, valueFree⟩
  · intro empty
    have length := congrArg List.length empty
    rw [length_entryLine, List.length_nil] at length
    omega

/-- The written lines are lines. -/
theorem Outcome.unbroken (outcome : Outcome nowMs data lines milliseconds header) {number : Int} :
    ∀ text ∈ writtenTexts (Bytes.text "User-Agent") header.userAgent number
      header.headers, Bytes.Unbroken text ∧ text ≠ [] := by
  intro text member
  rcases List.mem_append.mp member with isAgent | member
  · split at isAgent
    · rw [List.mem_singleton.mp isAgent]
      apply unbroken_entryLine (by decide)
      rw [outcome.userAgent]
      cases present : lines.special with
      | none => exact List.not_mem_nil
      | some value =>
          exact notMem_of_hasAny _ (outcome.clean.special value present).2.2
            (by decide)
    · cases isAgent
  rcases List.mem_cons.mp member with rfl | member
  · exact unbroken_entryLine (by decide) notMem_decimalSigned
  · rcases List.mem_map.mp member with ⟨entry, isEntry, rfl⟩
    rw [outcome.headers] at isEntry
    rcases outcome.clean.entries entry isEntry with ⟨_, _, _, nameFree, valueFree, _⟩
    exact unbroken_entryLine (notMem_of_hasAny _ nameFree (by decide))
      (notMem_of_hasAny _ valueFree (by decide))

/-- A written line that is too long or that cannot be read is rejected. -/
theorem Outcome.rejected (outcome : Outcome nowMs data lines milliseconds header) {bad : Bytes}
    (member : bad ∈ writtenTexts (Bytes.text "User-Agent") header.userAgent
      (toMilliseconds header.timestamp) header.headers)
    (isBad : 8192 < bad.length ∨ ∀ lines, parseLine (Bytes.text "User-Agent") nowMs
      bad lines = none) :
    receiver.fromString nowMs header.toString = (receiver, false) := by
  have few := outcome.readFrom.few
  have count : (writtenTexts (Bytes.text "User-Agent") header.userAgent
      (toMilliseconds header.timestamp) header.headers).length ≤ header.headers.size + 2 :=
    length_writtenTexts_le
  rw [← outcome.headers] at few
  rw [fromString, toString_eq, writtenLines_eq, parseText_eq_none]
  · exact outcome.readable.unbroken
  · exact parseLines_eq_none outcome.unbroken member isBad (by omega)

theorem Outcome.restorable {later : RequestHeader}
    (outcome : Outcome (toMilliseconds now) data lines milliseconds header)
    (again : receiver.fromString (toMilliseconds now) header.toString = (later, true)) :
    Restorable data := by
  have accepted : receiver.fromString (toMilliseconds now) header.toString ≠ (receiver, false) := by
    intro refused
    cases again.symm.trans refused
  constructor
  · intro line latest
    by_cases notSpecial : lineName line = Bytes.text "User-Agent"
    · have short := outcome.readFrom.short line latest.mem notSpecial
      have ten : (Bytes.text "User-Agent").length = 10 := by decide
      rw [notSpecial]
      omega
    by_cases notTimestamp : lineName line = Bytes.text "Timestamp"
    · rcases outcome.readFrom.timestamp line latest.mem notSpecial notTimestamp with
        ⟨_, number, _⟩
      have short := length_of_safeParseSigned number
      have nine : (Bytes.text "Timestamp").length = 9 := by decide
      rw [notTimestamp]
      omega
    · have isEntry : (lineName line, lineValue line) ∈ header.headers.toList := by
        rw [outcome.headers]
        exact (outcome.readFrom.entries _).mpr ⟨line, latest, notSpecial, notTimestamp, rfl⟩
      have written : entryLine (lineName line) (lineValue line) ∈ writtenTexts
          (Bytes.text "User-Agent") header.userAgent (toMilliseconds header.timestamp)
          header.headers :=
        List.mem_append_right _ (List.mem_cons_of_mem _ (List.mem_map.mpr ⟨_, isEntry, rfl⟩))
      by_contra long
      apply accepted (outcome.rejected written (.inl _))
      rw [length_entryLine]
      omega
  · intro line inside named number isNumber
    have notSpecial : lineName line ≠ Bytes.text "User-Agent" := by
      rw [named]
      decide
    rcases outcome.readFrom.timestamp line inside notSpecial named with ⟨_, isNumber', present⟩
    cases isNumber.symm.trans isNumber'
    cases outcome.present.symm.trans present
    have bounded := bounded_of_recent (outcome.readFrom.recent _ present).2.1
    have written : entryLine (Bytes.text "Timestamp")
        (decimalSigned (toMilliseconds header.timestamp)) ∈ writtenTexts (Bytes.text "User-Agent")
          header.userAgent (toMilliseconds header.timestamp) header.headers :=
      List.mem_append_right _ List.mem_cons_self
    by_contra late
    rcases toMilliseconds_late (by omega) bounded with ⟨negative, low⟩
    rw [← outcome.timestamp] at negative low
    have unread : ∀ lines, parseLine (Bytes.text "User-Agent") (toMilliseconds now)
        (entryLine (Bytes.text "Timestamp") (decimalSigned (toMilliseconds header.timestamp)))
        lines = none :=
      fun _ => parseLine_negative (by decide) negative low
    exact accepted (outcome.rejected written (.inr unread))

/-- A text that is accepted is accepted again after it was written, with the same outcome, exactly
if it is restorable. -/
theorem reread_iff (read : receiver.fromString (toMilliseconds now) data = (header, true))
    (other : RequestHeader) : other.fromString (toMilliseconds now) header.toString =
      ({ header with protocolType := other.protocolType }, true) ↔ Restorable data := by
  rcases exists_outcome read with ⟨lines, milliseconds, outcome⟩
  exact ⟨outcome.restorable, outcome.restored⟩

theorem readable_bare : Readable (bare (Bytes.text "/")) := by
  have built : [Setter.method (Bytes.text "GET"), .target (Bytes.text "/")].foldlM set (default 0) =
      .ok (bare (Bytes.text "/")) := rfl
  apply (kept_default.foldlM built).readable
  · exact (by decide : Bytes.text "GET" ≠ [])
  · exact (by decide : Bytes.text "/" ≠ [])
  · exact (by decide : Bytes.char ' ' ∉ Bytes.text "/")

/-- The text of a header with entries. -/
theorem restorable_greeting : Restorable greeting.toString := by
  have read : (default 0).fromString (toMilliseconds 0) greeting.toString = (greeting, true) :=
    fromString_toString (kept_default.foldlM built_greeting) sendable_greeting unblanked_greeting
  exact (reread_iff read (default 0)).mp read

section Long

/-- A value that fills its line. -/
def longValue : Bytes := List.replicate 8190 (Bytes.char 'b')

/-- A line without a blank behind the colon. -/
def longLine : Bytes := Bytes.text "A:" ++ longValue

/-- A text with a line that cannot be longer. -/
def longText : Bytes := (bare (Bytes.text "/")).startLine ++ Bytes.crlf ++
  (entryLine (Bytes.text "Timestamp") (Bytes.text "0") ++ Bytes.crlf ++
    (longLine ++ Bytes.crlf ++ Bytes.crlf))

theorem eq_of_mem_longValue {byte : UInt8} (member : byte ∈ longValue) : byte = Bytes.char 'b' :=
  List.eq_of_mem_replicate member

theorem length_longValue : longValue.length = 8190 := List.length_replicate

theorem trimmed_longValue : Trimmed longValue := by
  apply trimmed_of_free
  intro byte member
  rw [eq_of_mem_longValue member]
  decide

theorem unbroken_longLine : Bytes.Unbroken longLine := by
  apply Bytes.unbroken_of_not_mem
  rw [longLine, List.mem_append, not_or]
  refine ⟨by decide, fun member => ?_⟩
  cases eq_of_mem_longValue member

theorem lineName_longLine : lineName longLine = Bytes.text "A" := rfl

theorem lineValue_longLine : lineValue longLine = longValue := trimmed_longValue

/-- The header that the text is read to. -/
def longHeader : RequestHeader :=
  { bare (Bytes.text "/") with headers := OrderedMap.empty.assign (Bytes.text "A", longValue) }

theorem parseLine_longLine {lines : Lines} (empty : lines.headers = .empty) :
    parseLine (Bytes.text "User-Agent") 0 longLine lines =
      some { lines with headers := OrderedMap.empty.assign (Bytes.text "A", longValue) } := by
  have colon : longLine.takeWhile (· ≠ Bytes.char ':') = Bytes.text "A" := rfl
  have front : longLine.take 1 = Bytes.text "A" := rfl
  have behind : longLine.drop 2 = longValue := rfl
  have one : (Bytes.text "A").length = 1 := rfl
  have length : longLine.length = 8192 := by
    rw [longLine, List.length_append, length_longValue]
    rfl
  have free : Bytes.hasAny (Bytes.text "\r\n") longValue = false := by
    rw [hasAny_eq_false]
    intro byte member
    rw [eq_of_mem_longValue member]
    decide
  rw [parseLine, colon, one, length, if_neg (by decide), front, behind, safeTrim, if_neg (by decide),
    safeTrim, length_longValue, if_neg (by decide), trimmed_longValue]
  change parseEntry _ _ (Bytes.text "A") longValue lines = _
  rw [parseEntry, length_longValue, free, empty, if_neg (by decide), if_neg (by decide),
    if_neg (by decide), if_neg (by decide)]

theorem parseLines_longText : parseLines (Bytes.text "User-Agent") 0 100
    (entryLine (Bytes.text "Timestamp") (Bytes.text "0") ++ Bytes.crlf ++
      (longLine ++ Bytes.crlf ++ Bytes.crlf)) .start =
        some ([], ⟨longHeader.headers, none, some 0, true⟩) := by
  have zero : Bytes.text "0" = decimalSigned ((0 : Nat) : Int) := by decide
  have short : longLine.length ≤ 8192 := by
    rw [longLine, List.length_append, length_longValue]
    decide
  rw [zero, parseLines_timestamp (by decide) rfl (by decide) (by decide),
    parseLines_line unbroken_longLine (List.cons_ne_nil _ _) short, parseLine_longLine rfl]
  rfl

theorem fromString_longText : (default 0).fromString 0 longText = (longHeader, true) := by
  have shortLine := readable_bare.length_startLine
  have time : (entryLine (Bytes.text "Timestamp") (Bytes.text "0")).length = 12 := by decide
  have two : Bytes.crlf.length = 2 := rfl
  have name : (Bytes.text "A:").length = 2 := by decide
  have long : (entryLine (Bytes.text "Timestamp") (Bytes.text "0") ++ Bytes.crlf ++
      (longLine ++ Bytes.crlf ++ Bytes.crlf)).length = 8210 := by
    simp only [longLine, List.length_append, length_longValue, time, two, name]
  rw [fromString, longText, parseText_of_parseLines readable_bare.unbroken (by omega)
    (by rw [maxProtocolMessageSize]; omega) readable_bare.parseStartLine parseLines_longText rfl rfl]
  rfl

theorem headerLines_cons {line rest : Bytes} {count : Nat} (unbroken : Bytes.Unbroken line)
    (nonempty : line ≠ []) : headerLines (count + 1) (line ++ Bytes.crlf ++ rest) =
      line :: headerLines count rest := by
  rw [headerLines, unbroken.cutAt_crlf]
  exact if_neg nonempty

theorem headerLinesOf_longText : headerLinesOf longText =
    [entryLine (Bytes.text "Timestamp") (Bytes.text "0"), longLine] := by
  have timeLine : Bytes.Unbroken (entryLine (Bytes.text "Timestamp") (Bytes.text "0")) :=
    Bytes.unbroken_of_not_mem (by decide)
  have nonempty : longLine ≠ [] := List.cons_ne_nil _ _
  have ended : headerLines 98 Bytes.crlf = [] := rfl
  rw [headerLinesOf, longText, readable_bare.unbroken.cutAt_crlf]
  dsimp only
  rw [headerLines_cons timeLine (by decide), headerLines_cons unbroken_longLine nonempty, ended]

theorem not_restorable_longText : ¬ Restorable longText := by
  intro restorable
  have latest : Latest (headerLinesOf longText) longLine :=
    ⟨[entryLine (Bytes.text "Timestamp") (Bytes.text "0")], [], headerLinesOf_longText,
      fun _ member => by cases member⟩
  have short := restorable.short longLine latest
  rw [lineName_longLine, lineValue_longLine, length_longValue] at short
  revert short
  decide

/-- The header of the text is not read again. -/
theorem reread_broken : ¬ ∀ (now : TimePoint) (receiver header : RequestHeader) (data : Bytes),
    receiver.fromString (toMilliseconds now) data = (header, true) →
      header.fromString (toMilliseconds now) header.toString = (header, true) := by
  intro always
  have read : (default 0).fromString (toMilliseconds 0) longText = (longHeader, true) :=
    fromString_longText
  rcases exists_outcome read with ⟨lines, milliseconds, outcome⟩
  exact not_restorable_longText (outcome.restorable (always 0 _ _ _ read))

end Long

end RequestHeader

end Wan.Network
