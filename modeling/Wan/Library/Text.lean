import Mathlib.Data.List.Chain
import Mathlib.Data.List.TakeWhile
import Mathlib.Data.List.DropRight
import Mathlib.Data.Nat.Digits.Lemmas
import Wan.Library.Bytes

/-!
# Texts in byte strings

What line-based text formats are made of: lines up to a separator, words between blanks,
trimmed values and decimal numbers.  Each reader comes with what it makes of the text that
the matching writer produces.
-/

namespace Wan.Library.Bytes

/-- A carriage return and a line feed. -/
def crlf : Bytes := [13, 10]

/-- Whether some byte of the string is among the given ones. -/
def hasAny (among bytes : Bytes) : Bool := bytes.any (· ∈ among)

section Cut

/-- The string before and after the first occurrence of a separator. -/
@[grind =] def cutAt (separator : Bytes) : Bytes → Option (Bytes × Bytes)
  | [] => if separator = [] then some ([], []) else none
  | byte :: bytes =>
      if separator <+: byte :: bytes then
        some ([], (byte :: bytes).drop separator.length)
      else
        (cutAt separator bytes).map fun parts => (byte :: parts.1, parts.2)

variable {separator bytes before after line rest : Bytes}

/-- A separator that was found stands between the parts, and not earlier. -/
theorem cutAt_some (found : cutAt separator bytes = some (before, after)) :
    bytes = before ++ separator ++ after ∧
      ∀ front back, bytes = front ++ separator ++ back → before.length ≤ front.length := by
  induction bytes generalizing before with
  | nil =>
      rw [cutAt] at found
      split at found
      · next empty =>
        cases found
        exact ⟨by simp [empty], fun _ _ _ => Nat.zero_le _⟩
      · cases found
  | cons byte bytes ih =>
      rw [cutAt] at found
      split at found
      · next start =>
        cases found
        rcases start with ⟨rest, start⟩
        refine ⟨?_, fun _ _ _ => Nat.zero_le _⟩
        rw [← start, List.drop_left, List.nil_append]
      · next different =>
        rcases Option.map_eq_some_iff.mp found with ⟨⟨first, second⟩, later, equal⟩
        cases equal
        rcases ih later with ⟨rfl, first_occurrence⟩
        refine ⟨rfl, ?_⟩
        intro front back split
        cases front with
        | nil =>
            rw [List.nil_append] at split
            exact absurd ⟨back, split.symm⟩ different
        | cons head front =>
            rw [List.cons_append, List.cons_append, List.cons.injEq] at split
            exact Nat.succ_le_succ (first_occurrence front back split.2)

/-- No line break inside. Each of its two bytes may stand alone. -/
def Unbroken (bytes : Bytes) : Prop :=
  bytes.IsChain fun first second => ¬ (first = 13 ∧ second = 10)

theorem unbroken_of_not_mem (free : (13 : UInt8) ∉ line) : Unbroken line := by
  induction line with
  | nil => exact .nil
  | cons byte line ih =>
      rw [List.mem_cons, not_or] at free
      exact (ih free.2).cons fun _ _ pair => free.1 pair.1.symm

/-- Parts of an unbroken text are unbroken. -/
theorem Unbroken.infix (whole : Unbroken bytes) (part : line <:+: bytes) : Unbroken line :=
  List.IsChain.infix whole part

/-- A byte other than a line feed does not complete a line break. -/
theorem Unbroken.append_cons {byte : UInt8} (front : Unbroken line) (notFeed : byte ≠ 10)
    (notReturn : byte ≠ 13) (back : Unbroken rest) : Unbroken (line ++ byte :: rest) := by
  apply List.IsChain.append front
  · exact List.IsChain.cons back fun _ _ pair => notReturn pair.1
  · intro _ _ next isNext pair
    cases isNext
    exact notFeed pair.2

/-- What stands before the first line break has none. -/
theorem unbroken_of_cutAt (cut : cutAt crlf bytes = some (line, rest)) : Unbroken line := by
  induction bytes generalizing line with
  | nil => cases cut
  | cons byte bytes ih =>
      rw [cutAt] at cut
      split at cut
      · cases cut
        exact .nil
      next notHere =>
        rcases Option.map_eq_some_iff.mp cut with ⟨⟨front, back⟩, later, equal⟩
        cases equal
        apply (ih later).cons
        intro next isNext pair
        rcases (cutAt_some later).1 with rfl
        cases front with
        | nil => cases isNext
        | cons first front =>
            cases isNext
            apply notHere
            rw [pair.1, pair.2]
            exact ⟨_, rfl⟩

/-- An unbroken line ends at the separator behind it. -/
theorem Unbroken.cutAt_crlf (unbroken : Unbroken line) :
    cutAt crlf (line ++ crlf ++ rest) = some (line, rest) := by
  induction line with
  | nil => rfl
  | cons byte line ih =>
      rw [List.cons_append, List.cons_append, cutAt, if_neg, ih unbroken.tail]
      · rfl
      · intro start
        rcases List.cons_prefix_cons.mp start with ⟨isReturn, start⟩
        cases line with
        | nil => cases (List.cons_prefix_cons.mp start).1
        | cons next line =>
            have isFeed := (List.cons_prefix_cons.mp start).1
            exact unbroken.rel ⟨isReturn.symm, isFeed.symm⟩

end Cut

section Segments

/-- The segments of a text between separators, without blanks at the start of all but the
first. -/
def segments (separator blank : UInt8) (bytes : Bytes) : List Bytes :=
  match bytes.splitOn separator with
  | [] => []
  | first :: later => first :: later.map (List.dropWhile (· == blank))

variable {separator blank byte : UInt8} {front back bytes segment : Bytes}

theorem splitOn_dropWhile (apart : separator ≠ blank) :
    (bytes.dropWhile (· == blank)).splitOn separator =
      (bytes.splitOn separator).modifyHead (List.dropWhile (· == blank)) := by
  induction bytes with
  | nil => rfl
  | cons byte bytes ih =>
      rw [List.dropWhile_cons, List.splitOn_cons_eq_if_modifyHead]
      by_cases isBlank : byte = blank
      · have other : (byte == separator) = false := by simp [isBlank, apart.symm]
        rw [if_pos (by simpa using isBlank), ih, other, if_neg Bool.false_ne_true]
        cases bytes.splitOn separator with
        | nil => rfl
        | cons first later => simp [isBlank]
      · rw [if_neg (by simpa using isBlank), List.splitOn_cons_eq_if_modifyHead]
        split
        · rfl
        · cases bytes.splitOn separator with
          | nil => rfl
          | cons first later => simp [isBlank]

theorem segments_of_not_mem (free : separator ∉ bytes) :
    segments separator blank bytes = [bytes] := by
  rw [segments, List.splitOn_eq_singleton free]
  rfl

/-- The segment before the first separator is the first one, and those behind it are the
segments of the rest without its leading blanks. -/
theorem segments_append (apart : separator ≠ blank) (free : separator ∉ front) :
    segments separator blank (front ++ separator :: back) =
      front :: segments separator blank (back.dropWhile (· == blank)) := by
  rw [segments, segments, List.splitOn_append_cons_self_of_not_mem free, splitOn_dropWhile apart]
  cases back.splitOn separator with
  | nil => rfl
  | cons first later => rfl

theorem mem_dropWhile (visible : byte ≠ blank) :
    byte ∈ bytes.dropWhile (· == blank) ↔ byte ∈ bytes := by
  induction bytes with
  | nil => rfl
  | cons first bytes ih =>
      rw [List.dropWhile_cons]
      by_cases isBlank : first = blank
      · simp [isBlank, ih, visible]
      · simp [isBlank]

/-- A byte other than separators and blanks stands in one of the segments. -/
theorem mem_iff_segments (kept : byte ≠ separator) (visible : byte ≠ blank) :
    byte ∈ bytes ↔ ∃ segment ∈ segments separator blank bytes, byte ∈ segment := by
  have parts : ∀ bytes : Bytes, byte ∈ bytes ↔ ∃ part ∈ bytes.splitOn separator, byte ∈ part := by
    intro bytes
    induction bytes with
    | nil => simp
    | cons first bytes ih =>
        rw [List.splitOn_cons_eq_if_modifyHead, List.mem_cons, ih]
        by_cases isSeparator : first = separator
        · simp [isSeparator, kept]
        · cases found : bytes.splitOn separator with
          | nil => exact absurd found (List.splitOn_ne_nil separator bytes)
          | cons head later => simp [isSeparator, or_assoc]
  rw [parts, segments]
  cases bytes.splitOn separator with
  | nil => rfl
  | cons head later => simp [mem_dropWhile visible]

theorem not_mem_of_mem_segments (member : segment ∈ segments separator blank bytes) :
    separator ∉ segment := by
  have parts : ∀ bytes : Bytes, ∀ part ∈ bytes.splitOn separator, separator ∉ part := by
    intro bytes
    induction bytes with
    | nil => simp
    | cons first bytes ih =>
        rw [List.splitOn_cons_eq_if_modifyHead]
        by_cases isSeparator : first = separator
        · simpa [isSeparator] using ih
        · cases found : bytes.splitOn separator with
          | nil => exact absurd found (List.splitOn_ne_nil separator bytes)
          | cons head later =>
              rw [found] at ih
              simpa [isSeparator, Ne.symm isSeparator] using ih
  have whole := parts bytes
  rw [segments] at member
  cases found : bytes.splitOn separator with
  | nil => simp [found] at member
  | cons head later =>
      rw [found] at member whole
      rcases List.mem_cons.mp member with rfl | behind
      · exact whole _ List.mem_cons_self
      · rcases List.mem_map.mp behind with ⟨part, stands, rfl⟩
        intro present
        exact whole part (List.mem_cons_of_mem _ stands)
          ((List.dropWhile_sublist _).subset present)

end Segments

section Joined

variable {glue front : List UInt8} {back : List Bytes}

/-- Joined texts are the first one and the others with the glue before each. -/
theorem intercalate_cons :
    glue.intercalate (front :: back) = front ++ back.flatMap (glue ++ ·) := by
  induction back generalizing front with
  | nil => simp
  | cons next back ih =>
      rw [List.intercalate_cons_cons, ih, List.flatMap_cons, List.append_assoc, List.append_assoc]

end Joined

section Words

/-- The non-empty words between blanks, where `current` is the start of the next word. -/
@[grind =] def wordsFrom (blank : UInt8) (current : Bytes) : Bytes → List Bytes
  | [] => if current = [] then [] else [current]
  | byte :: bytes =>
      if byte = blank then
        if current = [] then wordsFrom blank [] bytes else current :: wordsFrom blank [] bytes
      else
        wordsFrom blank (current ++ [byte]) bytes

/-- The non-empty words between blanks. -/
def words (blank : UInt8) (bytes : Bytes) : List Bytes := wordsFrom blank [] bytes

variable {blank : UInt8} {current word bytes : Bytes}

theorem wordsFrom_append (free : blank ∉ word) :
    wordsFrom blank current (word ++ bytes) = wordsFrom blank (current ++ word) bytes := by
  induction word generalizing current with
  | nil => rw [List.nil_append, List.append_nil]
  | cons byte word ih =>
      rw [List.mem_cons, not_or] at free
      rw [List.cons_append, wordsFrom, if_neg (Ne.symm free.1), ih free.2, List.append_assoc,
        List.singleton_append]

/-- The first word ends at the first blank. -/
theorem words_cons (free : blank ∉ word) (nonempty : word ≠ []) :
    words blank (word ++ blank :: bytes) = word :: words blank bytes := by
  rw [words, wordsFrom_append free, List.nil_append, wordsFrom, if_pos rfl, if_neg nonempty, words]

/-- A text without blanks is a single word. -/
theorem words_singleton (free : blank ∉ word) (nonempty : word ≠ []) :
    words blank word = [word] := by
  rw [← List.append_nil word, words, wordsFrom_append free, List.nil_append, wordsFrom,
    if_neg nonempty, List.append_nil]

/-- Words are parts of the text. -/
theorem infix_of_mem_wordsFrom (member : word ∈ wordsFrom blank current bytes) :
    word <:+: current ++ bytes := by
  induction bytes generalizing current with
  | nil =>
      rw [wordsFrom] at member
      split at member
      · cases member
      · rw [List.mem_singleton.mp member]
        exact List.infix_append_left ..
  | cons byte bytes ih =>
      have behind : bytes <:+: current ++ byte :: bytes := ⟨current ++ [byte], [], by simp⟩
      rw [wordsFrom] at member
      split at member
      · split at member
        · exact (ih member).trans behind
        · rcases List.mem_cons.mp member with rfl | member
          · exact ⟨[], byte :: bytes, by simp⟩
          · exact (ih member).trans behind
      · have whole := ih member
        rw [List.append_assoc, List.singleton_append] at whole
        exact whole

theorem infix_of_mem_words (member : word ∈ words blank bytes) : word <:+: bytes :=
  infix_of_mem_wordsFrom member

/-- Words are not empty, have no blanks, and consist of bytes of the text. -/
theorem mem_wordsFrom (free : blank ∉ current) (member : word ∈ wordsFrom blank current bytes) :
    word ≠ [] ∧ blank ∉ word ∧ ∀ byte ∈ word, byte ∈ current ∨ byte ∈ bytes := by
  induction bytes generalizing current with
  | nil =>
      rw [wordsFrom] at member
      split at member
      · cases member
      · next nonempty =>
        rw [List.mem_singleton.mp member]
        exact ⟨nonempty, free, fun byte inside => .inl inside⟩
  | cons byte bytes ih =>
      have later : ∀ byte', byte' ∈ bytes → byte' ∈ byte :: bytes :=
        fun _ inside => List.mem_cons_of_mem _ inside
      rw [wordsFrom] at member
      split at member
      · split at member
        · rcases ih (List.not_mem_nil) member with ⟨nonempty, noBlank, within⟩
          refine ⟨nonempty, noBlank, fun byte' inside => .inr (later byte' ?_)⟩
          exact (within byte' inside).resolve_left List.not_mem_nil
        · next nonempty =>
          rcases List.mem_cons.mp member with rfl | member
          · exact ⟨nonempty, free, fun byte inside => .inl inside⟩
          · rcases ih (List.not_mem_nil) member with ⟨nonempty, noBlank, within⟩
            refine ⟨nonempty, noBlank, fun byte' inside => .inr (later byte' ?_)⟩
            exact (within byte' inside).resolve_left List.not_mem_nil
      · next different =>
        have stillFree : blank ∉ current ++ [byte] := by
          rw [List.mem_append, List.mem_singleton, not_or]
          exact ⟨free, Ne.symm different⟩
        rcases ih stillFree member with ⟨nonempty, noBlank, within⟩
        refine ⟨nonempty, noBlank, fun byte' inside => ?_⟩
        rcases within byte' inside with inCurrent | inBytes
        · rcases List.mem_append.mp inCurrent with old | new
          · exact .inl old
          · exact .inr (List.mem_singleton.mp new ▸ List.mem_cons_self ..)
        · exact .inr (later byte' inBytes)

theorem mem_words (member : word ∈ words blank bytes) :
    word ≠ [] ∧ blank ∉ word ∧ ∀ byte ∈ word, byte ∈ bytes := by
  rcases mem_wordsFrom List.not_mem_nil member with ⟨nonempty, noBlank, within⟩
  exact ⟨nonempty, noBlank, fun byte inside => (within byte inside).resolve_left List.not_mem_nil⟩

end Words

section Trim

/-- The string without the blanks at its start and at its end. -/
def trim (blanks bytes : Bytes) : Bytes :=
  (bytes.dropWhile (· ∈ blanks)).rdropWhile (· ∈ blanks)

variable {blanks bytes : Bytes} {blank byte : UInt8}

theorem trim_cons (isBlank : blank ∈ blanks) :
    trim blanks (blank :: bytes) = trim blanks bytes := by
  rw [trim, List.dropWhile_cons_of_pos (by simpa using isBlank), trim]

theorem dropWhile_prefix_eq {test : UInt8 → Bool} {front whole : Bytes} (start : front <+: whole)
    (kept : whole.dropWhile test = whole) : front.dropWhile test = front := by
  cases front with
  | nil => rfl
  | cons first front =>
      rcases start with ⟨rest, rfl⟩
      rw [List.cons_append, List.dropWhile_cons] at kept
      split at kept
      · have shorter := congrArg List.length kept
        have short := (List.dropWhile_suffix (l := front ++ rest) test).length_le
        rw [List.length_cons] at shorter
        omega
      · next fails => rw [List.dropWhile_cons_of_neg fails]

/-- Trimming once is enough. -/
theorem trim_trim : trim blanks (trim blanks bytes) = trim blanks bytes := by
  have kept : (trim blanks bytes).dropWhile (· ∈ blanks) = trim blanks bytes :=
    dropWhile_prefix_eq (List.rdropWhile_prefix _ _) (List.dropWhile_idempotent _ _)
  conv_lhs => rw [trim, kept]
  exact List.rdropWhile_idempotent _ _

/-- Bytes stay as they are exactly if no blank stands at their ends. -/
theorem trim_eq_self_iff : trim blanks bytes = bytes ↔
    (∀ byte ∈ bytes.head?, byte ∉ blanks) ∧ ∀ byte ∈ bytes.getLast?, byte ∉ blanks := by
  have front : bytes.dropWhile (· ∈ blanks) = bytes ↔ ∀ byte ∈ bytes.head?, byte ∉ blanks := by
    cases bytes with
    | nil => simp
    | cons first bytes => simp [List.dropWhile_eq_self_iff]
  have back : bytes.rdropWhile (· ∈ blanks) = bytes ↔ ∀ byte ∈ bytes.getLast?, byte ∉ blanks := by
    rw [List.rdropWhile_eq_self_iff]
    cases bytes with
    | nil => simp
    | cons first bytes =>
        have whole : first :: bytes ≠ [] := List.cons_ne_nil _ _
        simp only [List.getLast?_eq_some_getLast whole, Option.mem_some_iff, forall_eq',
          decide_eq_true_eq, whole, ne_eq, not_false_eq_true, forall_true_left]
  rw [← front, ← back, trim]
  constructor
  · intro same
    have whole : bytes.dropWhile (· ∈ blanks) = bytes := by
      apply (List.dropWhile_sublist _).eq_of_length_le
      conv_lhs => rw [← same]
      exact (List.rdropWhile_prefix _ _).length_le
    rw [whole] at same
    exact ⟨whole, same⟩
  · rintro ⟨whole, same⟩
    rw [whole, same]

end Trim

section Decimal

/-- The decimal digits of a number. -/
def decimal (number : Nat) : Bytes :=
  if number = 0 then [48] else ((Nat.digits 10 number).map fun digit => 48 + digit.toUInt8).reverse

/-- The digits of a signed number. -/
def signedDecimal (number : Int) : Bytes :=
  if number < 0 then char '-' :: decimal number.natAbs else decimal number.natAbs

/-- The number that decimal digits stand for. -/
def ofDecimal (bytes : Bytes) : Nat :=
  Nat.ofDigits 10 (bytes.reverse.map fun byte => (byte - 48).toNat)

/-- Read an unsigned decimal number below a bound: digits and nothing else. -/
def parseUnsigned (bound : Nat) (bytes : Bytes) : Option Nat :=
  if bytes ≠ [] ∧ bytes.all isDigit ∧ ofDecimal bytes < bound then some (ofDecimal bytes) else none

variable {number bound : Nat} {byte : UInt8}

theorem digit_toUInt8 {digit : Nat} (small : digit < 10) :
    isDigit (48 + digit.toUInt8) = true ∧ (48 + digit.toUInt8 - 48).toNat = digit := by
  interval_cases digit <;> decide

theorem decimal_ne_nil : decimal number ≠ [] := by
  rw [decimal]
  split
  · exact List.cons_ne_nil _ _
  · next positive => simpa [Nat.digits_eq_nil_iff_eq_zero] using positive

theorem isDigit_of_mem_decimal (member : byte ∈ decimal number) : isDigit byte = true := by
  rw [decimal] at member
  split at member
  · rw [List.mem_singleton.mp member]
    rfl
  · rcases List.mem_map.mp (List.mem_reverse.mp member) with ⟨digit, isOne, rfl⟩
    exact (digit_toUInt8 (Nat.digits_lt_base (by decide) isOne)).1

theorem ofDecimal_decimal : ofDecimal (decimal number) = number := by
  rw [decimal]
  split
  · next zero => rw [zero]; rfl
  · rw [ofDecimal, List.reverse_reverse, List.map_map]
    have digits : (Nat.digits 10 number).map
        ((fun byte : UInt8 => (byte - 48).toNat) ∘ fun digit => 48 + digit.toUInt8) =
          Nat.digits 10 number := by
      conv_rhs => rw [← List.map_id (Nat.digits 10 number)]
      apply List.map_congr_left
      intro digit isOne
      exact (digit_toUInt8 (Nat.digits_lt_base (by decide) isOne)).2
    rw [digits, Nat.ofDigits_digits]

/-- What is printed is read back. -/
theorem parseUnsigned_decimal (small : number < bound) :
    parseUnsigned bound (decimal number) = some number := by
  rw [parseUnsigned, if_pos, ofDecimal_decimal]
  refine ⟨decimal_ne_nil, ?_, ?_⟩
  · rw [List.all_eq_true]
    exact fun _ member => isDigit_of_mem_decimal member
  · rw [ofDecimal_decimal]
    exact small

theorem decimal_length_le {width : Nat} (small : number < 10 ^ width) (positive : 0 < width) :
    (decimal number).length ≤ width := by
  rw [decimal]
  split
  · exact positive
  · rw [List.length_reverse, List.length_map]
    exact (Nat.digits_length_le_iff (by decide) number).mpr small

end Decimal

end Wan.Library.Bytes
