import Wan.Network.Agreement.Written

/-!
# The text round trip of request headers

`FromString` cuts the first line at blanks and trims the values of the header lines, so
exactly the headers without blanks in the target and without outer blanks elsewhere come
back from their text.
-/

namespace Wan.Network

open Wan.Library

namespace RequestHeader

variable {header receiver : RequestHeader} {now : TimePoint} {nowMs : Int} {setters : List Setter}

/-- What the setters guarantee. -/
structure Kept (header : RequestHeader) : Prop where
  method : header.method = [] ∨ validMethod header.method = true
  target : header.target = [] ∨ validTarget header.target = true
  userAgent : validUserAgent header.userAgent = true
  headers : ProtocolHeader.Accepted header.headers

theorem kept_default : Kept (default now) :=
  ⟨.inl rfl, .inl rfl, rfl, ProtocolHeader.accepted_empty⟩

theorem Kept.changed {header' : RequestHeader} (kept : Kept header)
    (changed : Changed header header') :
    Kept header' := by
  cases changed with
  | common result => exact ⟨kept.method, kept.target, kept.userAgent, kept.headers.set result⟩
  | method valid => exact ⟨.inr valid, kept.target, kept.userAgent, kept.headers⟩
  | target valid => exact ⟨kept.method, .inr valid, kept.userAgent, kept.headers⟩
  | userAgent valid => exact ⟨kept.method, kept.target, valid, kept.headers⟩
  | timestamp => exact ⟨kept.method, kept.target, kept.userAgent, kept.headers⟩

theorem Kept.foldlM {header' : RequestHeader} (kept : Kept header)
    (built : setters.foldlM set header = .ok header') : Kept header' := by
  apply foldlM_keeps Kept _ kept built
  intro header setter later taken kept
  exact kept.changed (set_cases taken)

/-- The headers that the round trip is about: the method and the target are set, and
everything is within the limits of the parser. -/
structure Sendable (nowMs : Int) (header : RequestHeader) : Prop where
  method : header.method ≠ []
  target : header.target ≠ []
  few : header.headers.size ≤ 90
  short : ∀ entry ∈ header.headers.toList,
    entry.1.length ≤ 256 ∧ entry.1.length + 2 + entry.2.length ≤ 8192
  timestamp : Recent nowMs header.timestamp

/-- No blank in the target, and none around the user agent, the keys and the values. -/
structure Unblanked (header : RequestHeader) : Prop where
  target : Bytes.char ' ' ∉ header.target
  userAgent : ProtocolHeader.Trimmed header.userAgent
  headers : ∀ entry ∈ header.headers.toList,
    ProtocolHeader.Trimmed entry.1 ∧ ProtocolHeader.Trimmed entry.2

/-- The first line, blank by blank. -/
theorem startLine_eq (header : RequestHeader) : header.startLine =
    header.method ++ Bytes.char ' ' :: (header.target ++ Bytes.char ' ' ::
      (Bytes.decimal header.version.toNat ++ Bytes.char ' ' ::
        (Bytes.decimal header.checksumType.value ++ Bytes.char ' ' ::
          (Bytes.decimal header.checksumValue.toNat ++ Bytes.char ' ' ::
            Bytes.decimal header.contentLength.toNat)))) := by
  have blank : Bytes.text " " = [Bytes.char ' '] := by decide
  simp only [startLine, blank, List.append_assoc, List.cons_append, List.nil_append]

theorem toString_eq (header : RequestHeader) : header.toString =
    header.startLine ++ Bytes.crlf ++ ProtocolHeader.writtenLines (Bytes.text "User-Agent")
      header.userAgent (toMilliseconds header.timestamp) header.headers := by
  have agent : Bytes.text "User-Agent: " = Bytes.text "User-Agent" ++ Bytes.text ": " := by decide
  have time : Bytes.text "Timestamp: " = Bytes.text "Timestamp" ++ Bytes.text ": " := by decide
  simp only [toString, ProtocolHeader.writtenLines, ProtocolHeader.entryLine, agent, time,
    List.append_assoc]

theorem blank_notMem_method (kept : Kept header) : Bytes.char ' ' ∉ header.method := by
  rcases kept.method with empty | valid
  · rw [empty]
    exact List.not_mem_nil
  · exact ProtocolHeader.notMem_of_hasAny _ (validMethod_iff.mp valid).2.2 (by decide)

/-- A method or a target that is read back from the first line. -/
structure Part (limit : Nat) (text : Bytes) : Prop where
  nonempty : text ≠ []
  short : text.length ≤ limit
  noBlank : Bytes.char ' ' ∉ text
  unbroken : Bytes.Unbroken text

/-- A header whose first line is read back. -/
structure Readable (header : RequestHeader) : Prop where
  method : Part 10 header.method
  target : Part 2048 header.target

theorem Kept.readable (kept : Kept header) (method : header.method ≠ []) (target : header.target ≠ [])
    (noBlank : Bytes.char ' ' ∉ header.target) : Readable header := by
  rcases validMethod_iff.mp (kept.method.resolve_left method) with ⟨_, shortMethod, methodFree⟩
  rcases validTarget_iff.mp (kept.target.resolve_left target) with ⟨_, shortTarget, targetFree⟩
  constructor
  · refine ⟨method, shortMethod, blank_notMem_method kept, Bytes.unbroken_of_not_mem ?_⟩
    exact ProtocolHeader.notMem_of_hasAny _ methodFree (by decide)
  · refine ⟨target, shortTarget, noBlank, Bytes.unbroken_of_not_mem ?_⟩
    exact ProtocolHeader.notMem_of_hasAny _ targetFree (by decide)

/-- The first line is cut into its fields. -/
theorem Readable.partsOf_startLine (readable : Readable header) :
    ProtocolHeader.partsOf header.startLine = [header.method, header.target,
      Bytes.decimal header.version.toNat, Bytes.decimal header.checksumType.value,
      Bytes.decimal header.checksumValue.toNat, Bytes.decimal header.contentLength.toNat] := by
  have noDigit : ∀ number, Bytes.char ' ' ∉ Bytes.decimal number :=
    fun number => ProtocolHeader.notMem_decimal (by decide)
  rw [ProtocolHeader.partsOf, startLine_eq,
    Bytes.words_cons readable.method.noBlank readable.method.nonempty,
    Bytes.words_cons readable.target.noBlank readable.target.nonempty,
    Bytes.words_cons (noDigit _) Bytes.decimal_ne_nil,
    Bytes.words_cons (noDigit _) Bytes.decimal_ne_nil,
    Bytes.words_cons (noDigit _) Bytes.decimal_ne_nil,
    Bytes.words_singleton (noDigit _) Bytes.decimal_ne_nil]
  rfl

/-- The first line is on one line. -/
theorem Readable.unbroken (readable : Readable header) : Bytes.Unbroken header.startLine := by
  have digits : ∀ number, Bytes.Unbroken (Bytes.decimal number) := fun number =>
    Bytes.unbroken_of_not_mem (ProtocolHeader.notMem_decimal (by decide))
  have notFeed : Bytes.char ' ' ≠ 10 := by decide
  have notReturn : Bytes.char ' ' ≠ 13 := by decide
  rw [startLine_eq]
  apply readable.method.unbroken.append_cons notFeed notReturn
  apply readable.target.unbroken.append_cons notFeed notReturn
  apply (digits _).append_cons notFeed notReturn
  apply (digits _).append_cons notFeed notReturn
  exact (digits _).append_cons notFeed notReturn (digits _)

theorem Readable.length_startLine (readable : Readable header) :
    header.startLine.length ≤ 4096 := by
  have version := ProtocolHeader.length_decimal_le (by decide) header.version.toNat_lt
  have checksumType := ProtocolHeader.length_decimal_le (by decide) header.checksumType.value_lt
  have checksumValue := ProtocolHeader.length_decimal_le (by decide) header.checksumValue.toNat_lt
  have contentLength := ProtocolHeader.length_decimal_le (by decide) header.contentLength.toNat_lt
  have method := readable.method.short
  have target := readable.target.short
  rw [startLine_eq]
  simp only [List.length_append, List.length_cons]
  omega

/-- The fields of the first line come back. -/
theorem Readable.parseStartLine (readable : Readable header) :
    parseStartLine (ProtocolHeader.partsOf header.startLine) =
        some { RequestHeader.default 0 with
          method := header.method
          target := header.target
          version := header.version
          checksumType := header.checksumType
          checksumValue := header.checksumValue
          contentLength := header.contentLength } := by
  have method := readable.method
  have target := readable.target
  rw [readable.partsOf_startLine, RequestHeader.parseStartLine,
    if_neg (by simp [method.nonempty, method.short, target.nonempty, target.short]),
    ProtocolHeader.safeParse_decimal (by decide) header.version.toNat_lt,
    ProtocolHeader.safeParse_decimal (by decide) header.checksumType.value_lt,
    ProtocolHeader.safeParse_decimal (by decide) header.checksumValue.toNat_lt,
    ProtocolHeader.safeParse_decimal (by decide) header.contentLength.toNat_lt]
  simp

/-- A header that is within the limits of the parser comes back. -/
theorem Readable.fromString_toString {milliseconds : Nat} (readable : Readable header)
    (trimmed : ProtocolHeader.Trimmed header.userAgent)
    (agentFree : Bytes.hasAny (Bytes.text "\r\n") header.userAgent = false)
    (shortAgent : header.userAgent.length ≤ 512)
    (equal : toMilliseconds header.timestamp = milliseconds)
    (whole : ofMilliseconds milliseconds = header.timestamp) (small : milliseconds < 2 ^ 63)
    (recent : (milliseconds : Int) ≤ nowMs + 86400000)
    (plain : ∀ entry ∈ header.headers.toList, ProtocolHeader.Plain (Bytes.text "User-Agent") entry)
    (few : header.headers.size ≤ 90) :
    receiver.fromString nowMs header.toString =
      ({ header with protocolType := receiver.protocolType }, true) := by
  rw [fromString, toString_eq, equal, ProtocolHeader.parseText_written (by decide) trimmed agentFree
    shortAgent small recent plain few readable.unbroken readable.length_startLine
    readable.parseStartLine]
  dsimp only
  rw [Option.getD_some, whole, ProtocolHeader.getD_special]

/-- A header without such blanks comes back. -/
theorem fromString_toString (kept : Kept header) (sendable : Sendable nowMs header)
    (unblanked : Unblanked header) : receiver.fromString nowMs header.toString =
      ({ header with protocolType := receiver.protocolType }, true) := by
  rcases sendable.timestamp.exists_milliseconds with ⟨milliseconds, equal, small, recent⟩
  rcases validUserAgent_iff.mp kept.userAgent with ⟨shortAgent, agentFree⟩
  have plain := ProtocolHeader.plain_of_accepted (Bytes.text "User-Agent") (by decide) kept.headers
    sendable.short unblanked.headers
  have whole : ofMilliseconds milliseconds = header.timestamp := by
    rw [← equal, ofMilliseconds_toMilliseconds sendable.timestamp.whole]
  exact (kept.readable sendable.method sendable.target unblanked.target).fromString_toString
    unblanked.userAgent agentFree shortAgent equal whole small recent plain sendable.few

/-- A header that comes back has no such blanks. -/
theorem unblanked_of_fromString {data : Bytes}
    (read : receiver.fromString nowMs data =
      ({ header with protocolType := receiver.protocolType }, true)) :
    Unblanked header := by
  rw [fromString] at read
  split at read
  · cases congrArg Prod.snd read
  next start lines text =>
  rcases ProtocolHeader.parseText_cases text with ⟨line, rest, _, readStart, readLines, _⟩
  have clean := ProtocolHeader.Clean.parseLines readLines
  have target : start.target = header.target := congrArg (fun outcome => outcome.1.target) read
  have userAgent : lines.special.getD [] = header.userAgent :=
    congrArg (fun outcome => outcome.1.userAgent) read
  have headers : lines.headers = header.headers :=
    congrArg (fun outcome => outcome.1.toProtocolHeader.headers) read
  constructor
  · have isPart := List.mem_of_getElem? (parseStartLine_cases readStart).2.1
    rw [← target]
    exact (Bytes.mem_words (List.mem_of_mem_take isPart)).2.1
  · rw [← userAgent]
    exact clean.trimmed_special
  · intro entry member
    rw [← headers] at member
    exact ⟨(clean.entries entry member).1, (clean.entries entry member).2.1⟩

/-- The headers that setters build come back exactly if the target has no blank and the
user agent, the keys and the values have none at their ends. -/
theorem request_text_roundtrip (built : setters.foldlM set (default now) = .ok header)
    (sendable : Sendable nowMs header) :
    receiver.fromString nowMs header.toString =
        ({ header with protocolType := receiver.protocolType }, true) ↔ Unblanked header :=
  ⟨unblanked_of_fromString, fromString_toString (kept_default.foldlM built) sendable⟩

/-- A header with a method and a target only. -/
def bare (target : Bytes) : RequestHeader := { default 0 with
  method := Bytes.text "GET"
  target := target }

theorem sendable_bare {target : Bytes} (nonempty : target ≠ []) : Sendable 0 (bare target) where
  method := (by decide : Bytes.text "GET" ≠ [])
  target := nonempty
  few := Nat.zero_le _
  short _ member := by cases member
  timestamp := recent_zero

/-- A header with a user agent, the length of a body and two entries. -/
def greeting : RequestHeader := { default 0 with
  method := Bytes.text "POST"
  target := Bytes.text "/greet?name=you"
  version := 2
  userAgent := Bytes.text "wan 1"
  contentLength := 5
  headers := (OrderedMap.empty.assign (Bytes.text "Host", Bytes.text "a:80")).assign
    (Bytes.text "Accept", Bytes.text "text/plain, */*") }

theorem built_greeting : [Setter.method (Bytes.text "POST"),
    .target (Bytes.text "/greet?name=you"), .common (.version 2), .userAgent (Bytes.text "wan 1"),
    .common (.contentLength 5), .common (.header (Bytes.text "Host") (Bytes.text "a:80")),
    .common (.header (Bytes.text "Accept") (Bytes.text "text/plain, */*"))].foldlM set
      (default 0) = .ok greeting := by
  rfl

theorem sendable_greeting : Sendable 0 greeting where
  method := (by decide : Bytes.text "POST" ≠ [])
  target := (by decide : Bytes.text "/greet?name=you" ≠ [])
  few := by decide +kernel
  short := by decide +kernel
  timestamp := recent_zero

theorem unblanked_greeting : Unblanked greeting where
  target := by decide +kernel
  userAgent := by decide +kernel
  headers := by decide +kernel

theorem request_text_roundtrip_example :
    (default 5).fromString 0 greeting.toString = (greeting, true) :=
  (request_text_roundtrip built_greeting sendable_greeting).mpr unblanked_greeting

/-- A blank in the target is not kept. -/
theorem request_text_roundtrip_broken :
    ¬ ∀ now nowMs (setters : List Setter) (header receiver : RequestHeader),
    setters.foldlM set (default now) = .ok header → Sendable nowMs header →
      receiver.fromString nowMs header.toString =
        ({ header with protocolType := receiver.protocolType }, true) := by
  intro always
  have read := always 0 0 [.method (Bytes.text "GET"), .target (Bytes.text "/a b")]
    (bare (Bytes.text "/a b")) (default 0) rfl (sendable_bare (by decide))
  have noBlank := (unblanked_of_fromString read).target
  revert noBlank
  rw [bare]
  decide

end RequestHeader

end Wan.Network
