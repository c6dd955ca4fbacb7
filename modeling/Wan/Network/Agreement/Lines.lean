import Wan.Network.Agreement.Header

/-!
# Reading and writing header lines

What the loop over the header lines makes of the lines that `ToString` writes, and what
holds of everything that it has read.
-/

namespace Wan.Network.ProtocolHeader

open Wan.Library

variable {special line rest data key value : Bytes} {nowMs : Int} {lines lines' : Lines}
  {count : Nat}

section Writing

/-- A text that trimming leaves alone. -/
def Trimmed (text : Bytes) : Prop := Bytes.trim (Bytes.text " \t") text = text

instance (text : Bytes) : Decidable (Trimmed text) := inferInstanceAs (Decidable (_ = _))

/-- The text of a header line. -/
def entryLine (key value : Bytes) : Bytes := key ++ Bytes.text ": " ++ value

theorem serializeHeaders_eq (headers : HeaderMap) : serializeHeaders headers =
    headers.toList.flatMap fun entry => entryLine entry.1 entry.2 ++ Bytes.crlf := rfl

theorem length_entryLine : (entryLine key value).length = key.length + 2 + value.length := by
  rw [entryLine, List.length_append, List.length_append]
  rfl

/-- A written line is split into its key and its value, without outer blanks. -/
theorem parseLine_entryLine (nonempty : key ≠ []) (noColon : Bytes.char ':' ∉ key)
    (short : key.length + 2 + value.length ≤ 8192) :
    parseLine special nowMs (entryLine key value) lines =
      parseEntry special nowMs (Bytes.trim (Bytes.text " \t") key)
        (Bytes.trim (Bytes.text " \t") value) lines := by
  have whole : entryLine key value = key ++ Bytes.char ':' :: Bytes.char ' ' :: value := by
    rw [entryLine, List.append_assoc]
    rfl
  have colon : (entryLine key value).takeWhile (· ≠ Bytes.char ':') = key := by
    rw [whole, List.takeWhile_append_of_pos]
    · simp
    · intro byte member
      rw [decide_eq_true_eq]
      intro same
      exact noColon (same ▸ member)
  have positive := List.length_pos_of_ne_nil nonempty
  have long : (entryLine key value).length = key.length + 2 + value.length := length_entryLine
  have behind : (entryLine key value).drop (key.length + 1) = Bytes.char ' ' :: value := by
    rw [whole, List.drop_append, List.drop_eq_nil_of_le (Nat.le_succ _), Nat.add_sub_cancel_left]
    rfl
  have front : (entryLine key value).take key.length = key := by
    rw [whole, List.take_left]
  rw [parseLine, colon, long, if_neg (by omega), front, behind, safeTrim, if_neg (by omega),
    safeTrim, if_neg (by rw [List.length_cons]; omega), Bytes.trim_cons (by decide)]

/-- A written line that is read at the start of the text. -/
theorem parseLines_line (unbroken : Bytes.Unbroken line) (nonempty : line ≠ [])
    (short : line.length ≤ 8192) :
    parseLines special nowMs (count + 1) (line ++ Bytes.crlf ++ rest) lines =
      match parseLine special nowMs line lines with
      | none => none
      | some lines => parseLines special nowMs count rest lines := by
  rw [parseLines, if_neg (by simp [nonempty]), unbroken.cutAt_crlf]
  dsimp only
  rw [if_neg (Nat.not_lt.mpr short)]
  exact if_neg nonempty

theorem hasAny_eq_false {among bytes : Bytes} :
    Bytes.hasAny among bytes = false ↔ ∀ byte ∈ bytes, byte ∉ among := by
  rw [Bytes.hasAny, List.any_eq_false]
  simp

/-- A line break is not in a text that has none of its bytes. -/
theorem notMem_of_hasAny {among bytes : Bytes} (byte : UInt8)
    (free : Bytes.hasAny among bytes = false) (isOne : byte ∈ among) : byte ∉ bytes :=
  fun inside => hasAny_eq_false.mp free byte inside isOne

/-- A name that is read as it stands. -/
structure Name (key : Bytes) : Prop where
  trimmed : Trimmed key
  nonempty : key ≠ []
  free : Bytes.hasAny (Bytes.text "\r\n:") key = false
  short : key.length ≤ 256

/-- The loop takes a written line apart again. -/
theorem parseLines_entryLine (name : Name key) (trimmed : Trimmed value)
    (valueFree : Bytes.hasAny (Bytes.text "\r\n") value = false)
    (short : key.length + 2 + value.length ≤ 8192) :
    parseLines special nowMs (count + 1) (entryLine key value ++ Bytes.crlf ++ rest) lines =
      match parseEntry special nowMs key value lines with
      | none => none
      | some lines => parseLines special nowMs count rest lines := by
  have keyFree := notMem_of_hasAny 13 name.free (by decide)
  have valueFree := notMem_of_hasAny 13 valueFree (by decide)
  have noColon := notMem_of_hasAny (Bytes.char ':') name.free (by decide)
  rw [parseLines_line, parseLine_entryLine name.nonempty noColon short, name.trimmed, trimmed]
  · apply Bytes.unbroken_of_not_mem
    rw [entryLine, List.mem_append, List.mem_append, not_or, not_or]
    exact ⟨⟨keyFree, by decide⟩, valueFree⟩
  · intro empty
    have none := congrArg List.length empty
    rw [length_entryLine, List.length_nil] at none
    omega
  · rw [length_entryLine]
    exact short

/-- An entry that is read as it stands. -/
structure Plain (special : Bytes) (entry : Bytes × Bytes) : Prop where
  name : Name entry.1
  trimmed : Trimmed entry.2
  valueFree : Bytes.hasAny (Bytes.text "\r\n") entry.2 = false
  notSpecial : entry.1 ≠ special
  notTimestamp : entry.1 ≠ Bytes.text "Timestamp"
  short : entry.1.length + 2 + entry.2.length ≤ 8192

/-- The checks on an entry hold of a name with a value that fits into its line. -/
theorem Name.valid (name : Name key) (valueFree : Bytes.hasAny (Bytes.text "\r\n") value = false)
    (short : key.length + 2 + value.length ≤ 8192) :
    ¬ (key = [] ∨ 256 < key.length ∨ 8192 < value.length ∨
      Bytes.hasAny (Bytes.text "\r\n:") key = true ∨
      Bytes.hasAny (Bytes.text "\r\n") value = true) := by
  have shortKey := name.short
  simp only [name.nonempty, name.free, valueFree, Bool.false_eq_true, false_or, or_false, not_or,
    Nat.not_lt]
  omega

theorem Plain.parseEntry {entry : Bytes × Bytes} (plain : Plain special entry)
    (room : lines.headers.size < 90) :
    parseEntry special nowMs entry.1 entry.2 lines =
      some { lines with headers := lines.headers.assign entry } := by
  rw [ProtocolHeader.parseEntry, if_neg (plain.name.valid plain.valueFree plain.short),
    if_neg plain.notSpecial, if_neg plain.notTimestamp, if_neg (Nat.not_le.mpr room)]

/-- What the loop reads from plain entries and the empty line behind them. -/
theorem parseLines_entries {entries : List (Bytes × Bytes)}
    (plain : ∀ entry ∈ entries, Plain special entry)
    (room : lines.headers.size + entries.length ≤ 90) (enough : entries.length < count) :
    parseLines special nowMs count
        (entries.flatMap (fun entry => entryLine entry.1 entry.2 ++ Bytes.crlf) ++ Bytes.crlf)
        lines =
      some ([], { lines with
        headers := entries.foldl OrderedMap.assign lines.headers
        sawTerminator := true }) := by
  induction entries generalizing lines count with
  | nil =>
      cases count with
      | zero => cases enough
      | succ count => rfl
  | cons entry entries ih =>
      cases count with
      | zero => cases enough
      | succ count =>
          have first := plain entry (List.mem_cons_self ..)
          have grown : (lines.headers.assign entry).size ≤ lines.headers.size + 1 :=
            OrderedMap.size_assign_le
          rw [List.length_cons] at room enough
          rw [List.flatMap_cons, List.append_assoc,
            parseLines_entryLine first.name first.trimmed first.valueFree first.short,
            first.parseEntry (by omega)]
          dsimp only
          rw [ih]
          · rfl
          · exact fun other member => plain other (List.mem_cons_of_mem _ member)
          · dsimp only
            omega
          · omega

end Writing

section Reading

variable {lines'' : Lines} {unread : Bytes}

/-- The lines that the loop reads, up to the empty line. -/
def headerLines : Nat → Bytes → List Bytes
  | 0, _ => []
  | count + 1, data =>
      match Bytes.cutAt Bytes.crlf data with
      | none => []
      | some (line, rest) => if line = [] then [] else line :: headerLines count rest

/-- The name that a line starts with. -/
def lineName (line : Bytes) : Bytes :=
  Bytes.trim (Bytes.text " \t") (line.takeWhile (· ≠ Bytes.char ':'))

/-- Everything that can become of an entry. -/
theorem parseEntry_cases (read : parseEntry special nowMs key value lines = some lines') :
    key ≠ [] ∧ Bytes.hasAny (Bytes.text "\r\n:") key = false ∧
      Bytes.hasAny (Bytes.text "\r\n") value = false ∧
      ((key = special ∧ value.length ≤ 512 ∧ lines' = { lines with special := some value }) ∨
        (key ≠ special ∧ key = Bytes.text "Timestamp" ∧
          ∃ timestamp, 0 ≤ timestamp ∧ timestamp ≤ nowMs + 86400000 ∧
            lines' = { lines with timestamp := some timestamp }) ∨
        (key ≠ special ∧ key ≠ Bytes.text "Timestamp" ∧
          lines' = { lines with headers := lines.headers.assign (key, value) })) := by
  rw [parseEntry] at read
  split at read
  · cases read
  next valid =>
  simp only [not_or, Bool.not_eq_true] at valid
  refine ⟨valid.1, valid.2.2.2.1, valid.2.2.2.2, ?_⟩
  split at read
  next isSpecial =>
    split at read
    · cases read
    next short =>
    cases read
    exact .inl ⟨isSpecial, by omega, rfl⟩
  next notSpecial =>
    apply Or.inr
    split at read
    next isTimestamp =>
      apply Or.inl
      refine ⟨notSpecial, isTimestamp, ?_⟩
      split at read
      · cases read
      split at read
      · cases read
      next timestamp _ =>
      split at read
      · cases read
      next inRange =>
      cases read
      exact ⟨timestamp, by omega, by omega, rfl⟩
    next notTimestamp =>
      apply Or.inr
      split at read
      · cases read
      cases read
      exact ⟨notSpecial, notTimestamp, rfl⟩

/-- The value behind the name of a line. -/
def lineValue (line : Bytes) : Bytes :=
  Bytes.trim (Bytes.text " \t") (line.drop ((line.takeWhile (· ≠ Bytes.char ':')).length + 1))

/-- A line is read as its name and its value. -/
theorem parseEntry_of_parseLine (read : parseLine special nowMs line lines = some lines') :
    parseEntry special nowMs (lineName line) (lineValue line) lines = some lines' := by
  have front : line.take (line.takeWhile (· ≠ Bytes.char ':')).length =
      line.takeWhile (· ≠ Bytes.char ':') :=
    (List.prefix_iff_eq_take.mp (List.takeWhile_prefix _)).symm
  rw [parseLine] at read
  split at read
  · cases read
  rw [front] at read
  split at read
  next key value keyRead valueRead =>
    rw [safeTrim] at keyRead valueRead
    split at keyRead
    · cases keyRead
    split at valueRead
    · cases valueRead
    cases keyRead
    cases valueRead
    exact read
  · cases read

/-- A line that was read gave an entry with its name. -/
theorem parseLine_cases (read : parseLine special nowMs line lines = some lines') :
    ∃ value, Trimmed value ∧
      parseEntry special nowMs (lineName line) value lines = some lines' :=
  ⟨lineValue line, Bytes.trim_trim, parseEntry_of_parseLine read⟩

/-- The loop reads its lines one after the other. -/
theorem parseLines_foldlM
    (read : parseLines special nowMs count data lines = some (unread, lines')) :
    ∃ last, (headerLines count data).foldlM
        (fun lines line => parseLine special nowMs line lines) lines = some last ∧
      lines' = { last with sawTerminator := lines'.sawTerminator } := by
  induction count generalizing data lines with
  | zero =>
      cases read
      exact ⟨_, rfl, rfl⟩
  | succ count ih =>
      rw [parseLines] at read
      split at read
      next empty =>
        cases read
        rw [empty]
        exact ⟨_, rfl, rfl⟩
      next _ =>
      rw [headerLines]
      cases cut : Bytes.crlf.cutAt data with
      | none =>
          rw [cut] at read
          cases read
      | some parts =>
      rcases parts with ⟨line, rest⟩
      rw [cut] at read
      dsimp only at read ⊢
      split at read
      · cases read
      split at read
      next empty =>
        cases read
        rw [if_pos empty]
        exact ⟨_, rfl, rfl⟩
      next nonempty =>
        rw [if_neg nonempty, List.foldlM_cons]
        cases readLine : parseLine special nowMs line lines with
        | none =>
            rw [readLine] at read
            cases read
        | some lines'' =>
            rw [readLine] at read
            exact ih read

/-- What every line keeps holds behind the loop. -/
theorem foldlM_keeps (holds : Lines → Prop) {texts : List Bytes}
    (step : ∀ line ∈ texts, ∀ lines lines', parseLine special nowMs line lines = some lines' →
      holds lines → holds lines')
    (start : holds lines)
    (read : texts.foldlM (fun lines line => parseLine special nowMs line lines) lines =
      some lines') :
    holds lines' := by
  induction texts generalizing lines with
  | nil =>
      cases read
      exact start
  | cons line texts ih =>
      rw [List.foldlM_cons] at read
      cases readLine : parseLine special nowMs line lines with
      | none =>
          rw [readLine] at read
          cases read
      | some next =>
          rw [readLine] at read
          apply ih (fun other member => step other (List.mem_cons_of_mem _ member)) _ read
          exact step line (List.mem_cons_self ..) lines next readLine start

/-- What holds of everything that is read. -/
structure Clean (special : Bytes) (lines : Lines) : Prop where
  entries : ∀ entry ∈ lines.headers.toList, Trimmed entry.1 ∧ Trimmed entry.2 ∧ entry.1 ≠ [] ∧
    Bytes.hasAny (Bytes.text "\r\n:") entry.1 = false ∧
    Bytes.hasAny (Bytes.text "\r\n") entry.2 = false ∧
    entry.1 ≠ special ∧ entry.1 ≠ Bytes.text "Timestamp"
  special : ∀ value ∈ lines.special, Trimmed value ∧ value.length ≤ 512 ∧
    Bytes.hasAny (Bytes.text "\r\n") value = false

theorem Clean.start : Clean special .start := by
  constructor
  · intro entry member
    cases member
  · intro value member
    cases member

/-- What is read for the special header has no outer blanks. -/
theorem Clean.trimmed_special (clean : Clean special lines) :
    Trimmed (lines.special.getD []) := by
  cases found : lines.special with
  | none => rfl
  | some value => exact (clean.special value found).1

theorem Clean.parseLine (clean : Clean special lines)
    (read : parseLine special nowMs line lines = some lines') : Clean special lines' := by
  rcases parseLine_cases read with ⟨value, trimmed, entry⟩
  rcases parseEntry_cases entry with ⟨nonempty, keyFree, valueFree, read | read | read⟩
  · rcases read with ⟨_, short, rfl⟩
    constructor
    · exact clean.entries
    · intro _ member
      cases member
      exact ⟨trimmed, short, valueFree⟩
  · rcases read with ⟨_, _, _, _, _, rfl⟩
    exact ⟨clean.entries, clean.special⟩
  · rcases read with ⟨notSpecial, notTimestamp, rfl⟩
    constructor
    · intro entry member
      rcases OrderedMap.mem_assign.mp member with rfl | ⟨old, _⟩
      · exact ⟨Bytes.trim_trim, trimmed, nonempty, keyFree, valueFree, notSpecial, notTimestamp⟩
      · exact clean.entries entry old
    · exact clean.special

theorem Clean.parseLines
    (read : parseLines special nowMs count data .start = some (unread, lines)) :
    Clean special lines := by
  rcases parseLines_foldlM read with ⟨last, folded, equal⟩
  have clean : Clean special last :=
    foldlM_keeps (Clean special) (fun _ _ _ _ read clean => clean.parseLine read) .start folded
  rw [equal]
  exact ⟨clean.entries, clean.special⟩

/-- A line whose name has no field of its own leaves an entry under its name. -/
theorem exists_entry_of_mem
    (read : parseLines special nowMs count data .start = some (unread, lines))
    (member : line ∈ headerLines count data) (notSpecial : lineName line ≠ special)
    (notTimestamp : lineName line ≠ Bytes.text "Timestamp") :
    ∃ entry ∈ lines.headers.toList, entry.1 = lineName line := by
  rcases parseLines_foldlM read with ⟨last, folded, equal⟩
  rcases List.append_of_mem member with ⟨before, after, split⟩
  rw [split, List.foldlM_append, Option.bind_eq_bind, Option.bind_eq_some_iff] at folded
  rcases folded with ⟨middle, _, folded⟩
  rw [List.foldlM_cons, Option.bind_eq_bind, Option.bind_eq_some_iff] at folded
  rcases folded with ⟨next, readLine, folded⟩
  rw [equal]
  apply foldlM_keeps (fun lines => ∃ entry ∈ lines.headers.toList,
    entry.1 = lineName line) _ _ folded
  · intro other _ lines lines' readOther present
    rcases present with ⟨entry, inside, named⟩
    rcases parseLine_cases readOther with ⟨value, _, readEntry⟩
    rcases parseEntry_cases readEntry with ⟨_, _, _, read | read | read⟩
    · rcases read with ⟨_, _, rfl⟩
      exact ⟨entry, inside, named⟩
    · rcases read with ⟨_, _, _, _, _, rfl⟩
      exact ⟨entry, inside, named⟩
    · rcases read with ⟨_, _, rfl⟩
      by_cases same : lineName other = lineName line
      · exact ⟨_, OrderedMap.mem_assign.mpr (.inl rfl), same⟩
      · refine ⟨entry, OrderedMap.mem_assign.mpr (.inr ⟨inside, ?_⟩), named⟩
        rw [named, ← Bool.not_eq_true, Bytes.equivalent_before]
        exact Ne.symm same
  · rcases parseLine_cases readLine with ⟨value, _, readEntry⟩
    rcases parseEntry_cases readEntry with ⟨_, _, _, read | read | read⟩
    · exact absurd read.1 notSpecial
    · exact absurd read.2.1 notTimestamp
    · rcases read with ⟨_, _, rfl⟩
      exact ⟨_, OrderedMap.mem_assign.mpr (.inl rfl), rfl⟩

/-- All entries come from lines with their names. -/
theorem exists_line_of_mem {entry : Bytes × Bytes}
    (read : parseLines special nowMs count data .start = some (unread, lines))
    (member : entry ∈ lines.headers.toList) :
    ∃ line ∈ headerLines count data, lineName line = entry.1 := by
  rcases parseLines_foldlM read with ⟨last, folded, equal⟩
  rw [equal] at member
  apply foldlM_keeps (fun lines => ∀ entry ∈ lines.headers.toList,
    ∃ line ∈ headerLines count data, lineName line = entry.1) _ _ folded entry member
  · intro line isLine lines lines' readLine known entry inside
    rcases parseLine_cases readLine with ⟨value, _, readEntry⟩
    rcases parseEntry_cases readEntry with ⟨_, _, _, read | read | read⟩
    · rcases read with ⟨_, _, rfl⟩
      exact known entry inside
    · rcases read with ⟨_, _, _, _, _, rfl⟩
      exact known entry inside
    · rcases read with ⟨_, _, rfl⟩
      rcases OrderedMap.mem_assign.mp inside with rfl | ⟨old, _⟩
      · exact ⟨line, isLine, rfl⟩
      · exact known entry old
  · intro entry inside
    cases inside

theorem parseLine_sawTerminator (read : parseLine special nowMs line lines = some lines') :
    lines'.sawTerminator = lines.sawTerminator := by
  rcases parseLine_cases read with ⟨value, _, entry⟩
  rcases parseEntry_cases entry with ⟨_, _, _, read | read | read⟩
  · rw [read.2.2]
  · rcases read.2.2 with ⟨_, _, _, equal⟩
    rw [equal]
  · rw [read.2.2]

/-- A terminator that was seen is an empty line at the end of what was read. -/
theorem terminated (read : parseLines special nowMs count data lines = some ([], lines'))
    (notBefore : lines.sawTerminator = false) (seen : lines'.sawTerminator = true) :
    data = Bytes.crlf ∨ ∃ front, data = front ++ Bytes.crlf ++ Bytes.crlf := by
  induction count generalizing data lines with
  | zero =>
      cases read
      rw [notBefore] at seen
      cases seen
  | succ count ih =>
      rw [parseLines] at read
      split at read
      · cases read
        rw [notBefore] at seen
        cases seen
      split at read
      · cases read
      next line rest cut =>
      have split := (Bytes.cutAt_some cut).1
      split at read
      · cases read
      split at read
      next empty =>
        cases read
        rw [split, empty]
        exact .inl rfl
      next _ =>
        apply Or.inr
        split at read
        · cases read
        next readLine =>
        rcases ih read ((parseLine_sawTerminator readLine).trans notBefore) with
          last | ⟨front, later⟩
        · rw [split, last]
          exact ⟨line, rfl⟩
        · rw [split, later]
          exact ⟨line ++ Bytes.crlf ++ front, by simp only [List.append_assoc]⟩

/-- What a text that is read consists of. -/
theorem parseText_cases {Start : Type} {startLine : List Bytes → Option Start} {start : Start}
    (read : parseText startLine special nowMs data = some (start, lines)) :
    ∃ line rest, Bytes.cutAt Bytes.crlf data = some (line, rest) ∧
      startLine (partsOf line) = some start ∧
      parseLines special nowMs 100 rest .start = some ([], lines) ∧ lines.sawTerminator = true ∧
      lines.timestamp.isSome = true := by
  rw [parseText] at read
  split at read
  · cases read
  split at read
  · cases read
  next line rest cut =>
  split at read
  · cases read
  split at read
  · cases read
  next start' readStart =>
  split at read
  · cases read
  next unread lines' readLines =>
  split at read
  next complete =>
    cases read
    rw [complete.2.2] at readLines
    exact ⟨line, rest, cut, readStart, readLines, complete.1, complete.2.1⟩
  · cases read

end Reading

end Wan.Network.ProtocolHeader
