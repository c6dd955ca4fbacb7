import Wan.Network.Agreement.Written
import Wan.Network.Agreement.Message

/-!
# The text round trip of response headers

As for requests, with the status message as the part of the first line that may hold
blanks.  The factories for missing targets and internal errors make such messages.
-/

namespace Wan.Network.ResponseHeader

open Wan.Library

variable {header receiver : ResponseHeader} {now : TimePoint} {nowMs : Int} {setters : List Setter}

/-- What the setters guarantee. -/
structure Kept (header : ResponseHeader) : Prop where
  statusCode : validStatusCode header.statusCode.toNat = true
  statusMessage : validStatusMessage header.statusMessage = true
  server : validServer header.server = true
  headers : ProtocolHeader.Accepted header.headers

theorem kept_default : Kept (default now) :=
  ⟨(by decide : validStatusCode (200 : UInt16).toNat = true),
    (by decide : validStatusMessage (Bytes.text "OK") = true), rfl, ProtocolHeader.accepted_empty⟩

theorem Kept.changed {header' : ResponseHeader} (kept : Kept header)
    (changed : Changed header header') :
    Kept header' := by
  cases changed with
  | common result =>
      exact ⟨kept.statusCode, kept.statusMessage, kept.server, kept.headers.set result⟩
  | statusCode valid => exact ⟨valid, kept.statusMessage, kept.server, kept.headers⟩
  | statusMessage valid => exact ⟨kept.statusCode, valid, kept.server, kept.headers⟩
  | server valid => exact ⟨kept.statusCode, kept.statusMessage, valid, kept.headers⟩
  | timestamp => exact ⟨kept.statusCode, kept.statusMessage, kept.server, kept.headers⟩

theorem Kept.foldlM {header' : ResponseHeader} (kept : Kept header)
    (built : setters.foldlM set header = .ok header') : Kept header' := by
  apply foldlM_keeps Kept _ kept built
  intro header setter later taken kept
  exact kept.changed (set_cases taken)

section Factories

/-- The headers that a response starts with: a new one, or that of a factory. -/
inductive Created (now : TimePoint) : ResponseHeader → Prop where
  | default : Created now (default now)
  | success {body server response} (made : Message.createSuccess now body server = .ok response) :
      Created now response.header
  | error {code message body response}
      (made : Message.createError now code message body = .ok response) :
      Created now response.header
  | notFound {body response} (made : Message.createNotFound now body = .ok response) :
      Created now response.header
  | internalError {body response} (made : Message.createInternalError now body = .ok response) :
      Created now response.header

variable {code : UInt16} {message body server : Bytes} {response : Message ResponseHeader}

theorem kept_ofStatus (made : Message.ofStatus now code message body = .ok response) :
    Kept response.header := by
  rw [Message.ofStatus, bind_eq_ok] at made
  rcases made with ⟨header, first, made⟩
  rw [bind_eq_ok] at made
  rcases made with ⟨header', second, made⟩
  cases made
  exact (kept_default.changed (set_cases first)).changed (set_cases second)

theorem kept_createSuccess (made : Message.createSuccess now body server = .ok response) :
    Kept response.header := by
  rw [Message.createSuccess, bind_eq_ok] at made
  rcases made with ⟨started, first, made⟩
  split at made
  · rw [bind_eq_ok] at made
    rcases made with ⟨header, second, made⟩
    cases made
    exact (kept_ofStatus first).changed (set_cases second)
  · cases made
    exact kept_ofStatus first

theorem Created.kept (created : Created now header) : Kept header := by
  cases created with
  | default => exact kept_default
  | success made => exact kept_createSuccess made
  | error made | notFound made | internalError made => exact kept_ofStatus made

end Factories

/-- The headers that the round trip is about: everything is within the limits of the
parser. -/
structure Sendable (nowMs : Int) (header : ResponseHeader) : Prop where
  few : header.headers.size ≤ 90
  short : ∀ entry ∈ header.headers.toList,
    entry.1.length ≤ 256 ∧ entry.1.length + 2 + entry.2.length ≤ 8192
  timestamp : Recent nowMs header.timestamp

/-- No blank in the status message, and none around the server, the keys and the values. -/
structure Unblanked (header : ResponseHeader) : Prop where
  statusMessage : Bytes.char ' ' ∉ header.statusMessage
  server : ProtocolHeader.Trimmed header.server
  headers : ∀ entry ∈ header.headers.toList,
    ProtocolHeader.Trimmed entry.1 ∧ ProtocolHeader.Trimmed entry.2

/-- The first line, blank by blank. -/
theorem startLine_eq (header : ResponseHeader) : header.startLine =
    Bytes.decimal header.version.toNat ++ Bytes.char ' ' ::
      (Bytes.decimal header.statusCode.toNat ++ Bytes.char ' ' ::
        (header.statusMessage ++ Bytes.char ' ' ::
          (Bytes.decimal header.checksumType.value ++ Bytes.char ' ' ::
            (Bytes.decimal header.checksumValue.toNat ++ Bytes.char ' ' ::
              Bytes.decimal header.contentLength.toNat)))) := by
  have blank : Bytes.text " " = [Bytes.char ' '] := by decide
  simp only [startLine, blank, List.append_assoc, List.cons_append, List.nil_append]

theorem toString_eq (header : ResponseHeader) : header.toString =
    header.startLine ++ Bytes.crlf ++ ProtocolHeader.writtenLines (Bytes.text "Server")
      header.server (toMilliseconds header.timestamp) header.headers := by
  have server : Bytes.text "Server: " = Bytes.text "Server" ++ Bytes.text ": " := by decide
  have time : Bytes.text "Timestamp: " = Bytes.text "Timestamp" ++ Bytes.text ": " := by decide
  simp only [toString, ProtocolHeader.writtenLines, ProtocolHeader.entryLine, server, time,
    List.append_assoc]

/-- The first line is cut into its fields. -/
theorem partsOf_startLine (kept : Kept header) (noBlank : Bytes.char ' ' ∉ header.statusMessage) :
    ProtocolHeader.partsOf header.startLine = [Bytes.decimal header.version.toNat,
      Bytes.decimal header.statusCode.toNat, header.statusMessage,
      Bytes.decimal header.checksumType.value, Bytes.decimal header.checksumValue.toNat,
      Bytes.decimal header.contentLength.toNat] := by
  have noDigit : ∀ number, Bytes.char ' ' ∉ Bytes.decimal number :=
    fun number => ProtocolHeader.notMem_decimal (by decide)
  have nonempty := (validStatusMessage_iff.mp kept.statusMessage).1
  rw [ProtocolHeader.partsOf, startLine_eq, Bytes.words_cons (noDigit _) Bytes.decimal_ne_nil,
    Bytes.words_cons (noDigit _) Bytes.decimal_ne_nil, Bytes.words_cons noBlank nonempty,
    Bytes.words_cons (noDigit _) Bytes.decimal_ne_nil,
    Bytes.words_cons (noDigit _) Bytes.decimal_ne_nil,
    Bytes.words_singleton (noDigit _) Bytes.decimal_ne_nil]
  rfl

/-- The first line is short and on one line. -/
theorem startLine_plain (kept : Kept header) :
    (13 : UInt8) ∉ header.startLine ∧ header.startLine.length ≤ 4096 := by
  have noDigit : ∀ number, (13 : UInt8) ∉ Bytes.decimal number :=
    fun number => ProtocolHeader.notMem_decimal (by decide)
  have noBlank : (13 : UInt8) ≠ Bytes.char ' ' := by decide
  have version := ProtocolHeader.length_decimal_le (by decide) header.version.toNat_lt
  have statusCode := ProtocolHeader.length_decimal_le (by decide) header.statusCode.toNat_lt
  have checksumType := ProtocolHeader.length_decimal_le (by decide) header.checksumType.value_lt
  have checksumValue := ProtocolHeader.length_decimal_le (by decide) header.checksumValue.toNat_lt
  have contentLength := ProtocolHeader.length_decimal_le (by decide) header.contentLength.toNat_lt
  rcases validStatusMessage_iff.mp kept.statusMessage with ⟨_, short, free⟩
  have message : (13 : UInt8) ∉ header.statusMessage :=
    ProtocolHeader.notMem_of_hasAny _ free (by decide)
  rw [startLine_eq]
  constructor
  · simp only [List.mem_append, List.mem_cons, not_or]
    exact ⟨noDigit _, noBlank, noDigit _, noBlank, message, noBlank, noDigit _, noBlank, noDigit _,
      noBlank, noDigit _⟩
  · simp only [List.length_append, List.length_cons]
    omega

/-- The fields of the first line come back. -/
theorem parseStartLine_fields (kept : Kept header) :
    parseStartLine [Bytes.decimal header.version.toNat, Bytes.decimal header.statusCode.toNat,
      header.statusMessage, Bytes.decimal header.checksumType.value,
      Bytes.decimal header.checksumValue.toNat, Bytes.decimal header.contentLength.toNat] =
        some { ResponseHeader.default 0 with
          version := header.version
          statusCode := header.statusCode
          statusMessage := header.statusMessage
          checksumType := header.checksumType
          checksumValue := header.checksumValue
          contentLength := header.contentLength } := by
  rcases validStatusCode_iff.mp kept.statusCode with ⟨low, high⟩
  rcases validStatusMessage_iff.mp kept.statusMessage with ⟨nonempty, short, _⟩
  rw [parseStartLine, ProtocolHeader.safeParse_decimal (by decide) header.version.toNat_lt,
    ProtocolHeader.safeParse_decimal (by decide) header.statusCode.toNat_lt,
    ProtocolHeader.safeParse_decimal (by decide) header.checksumType.value_lt,
    ProtocolHeader.safeParse_decimal (by decide) header.checksumValue.toNat_lt,
    ProtocolHeader.safeParse_decimal (by decide) header.contentLength.toNat_lt]
  simp [nonempty, short, low, high]

/-- A header without such blanks comes back. -/
theorem fromString_toString (kept : Kept header) (sendable : Sendable nowMs header)
    (unblanked : Unblanked header) : receiver.fromString nowMs header.toString =
      ({ header with protocolType := receiver.protocolType }, true) := by
  rcases sendable.timestamp.exists_milliseconds with ⟨milliseconds, equal, small, recent⟩
  rcases startLine_plain kept with ⟨lineFree, shortLine⟩
  rcases validServer_iff.mp kept.server with ⟨shortServer, serverFree⟩
  have plain := ProtocolHeader.plain_of_accepted (Bytes.text "Server") (by decide) kept.headers
    sendable.short unblanked.headers
  have readStart := parseStartLine_fields kept
  rw [← partsOf_startLine kept unblanked.statusMessage] at readStart
  rw [fromString, toString_eq, equal, ProtocolHeader.parseText_written (by decide) unblanked.server
    serverFree shortServer small recent plain sendable.few (Bytes.unbroken_of_not_mem lineFree)
    shortLine readStart]
  dsimp only
  rw [Option.getD_some, ← equal, ofMilliseconds_toMilliseconds sendable.timestamp.whole,
    ProtocolHeader.getD_special]

theorem parseStartLine_message {parts : List Bytes} {start : ResponseHeader}
    (read : parseStartLine parts = some start) : parts[2]? = some start.statusMessage := by
  unfold parseStartLine at read
  split at read
  next version statusCode statusMessage checksumType checksumValue contentLength =>
    simp only [Option.bind_eq_bind, Option.bind_eq_some_iff] at read
    rcases read with ⟨_, _, _, _, read⟩
    split at read
    · cases read
    simp only [Option.bind_eq_some_iff] at read
    rcases read with ⟨_, _, _, _, _, _, _, _, equal⟩
    cases equal
    rfl
  · cases read

/-- A header that comes back has no such blanks. -/
theorem unblanked_of_fromString {data : Bytes}
    (read : receiver.fromString nowMs data =
      ({ header with protocolType := receiver.protocolType }, true)) :
    Unblanked header := by
  rw [fromString] at read
  split at read
  · cases congrArg Prod.snd read
  next start lines text =>
  rcases ProtocolHeader.parseText_cases text with ⟨line, rest, _, readStart, readLines, _⟩
  have clean := ProtocolHeader.Clean.parseLines readLines
  have message : start.statusMessage = header.statusMessage :=
    congrArg (fun outcome => outcome.1.statusMessage) read
  have server : lines.special.getD [] = header.server :=
    congrArg (fun outcome => outcome.1.server) read
  have headers : lines.headers = header.headers :=
    congrArg (fun outcome => outcome.1.toProtocolHeader.headers) read
  constructor
  · have isPart := List.mem_of_getElem? (parseStartLine_message readStart)
    rw [← message]
    exact (Bytes.mem_words (List.mem_of_mem_take isPart)).2.1
  · rw [← server]
    exact clean.trimmed_special
  · intro entry member
    rw [← headers] at member
    exact ⟨(clean.entries entry member).1, (clean.entries entry member).2.1⟩

/-- The headers that setters and factories build come back exactly if the status message
has no blank and the server, the keys and the values have none at their ends. -/
theorem response_text_roundtrip {start : ResponseHeader} (created : Created now start)
    (built : setters.foldlM set start = .ok header) (sendable : Sendable nowMs header) :
    receiver.fromString nowMs header.toString =
        ({ header with protocolType := receiver.protocolType }, true) ↔ Unblanked header :=
  ⟨unblanked_of_fromString, fromString_toString (created.kept.foldlM built) sendable⟩

/-- The header of a response with a status message. -/
def answer (code : UInt16) (message : Bytes) : ResponseHeader := { default 0 with
  statusCode := code
  statusMessage := message }

theorem sendable_answer {code : UInt16} {message : Bytes} : Sendable 0 (answer code message) where
  few := Nat.zero_le _
  short _ member := by cases member
  timestamp := recent_zero

/-- The header of a success with a server, the length of a body and two entries. -/
def created : ResponseHeader := { answer 201 (Bytes.text "Created") with
  server := Bytes.text "wan 1"
  contentLength := 5
  headers := (OrderedMap.empty.assign (Bytes.text "Location", Bytes.text "/a b")).assign
    (Bytes.text "ETag", Bytes.text "\"1:2\"") }

theorem built_created : [Setter.statusCode 201, .statusMessage (Bytes.text "Created"),
    .server (Bytes.text "wan 1"), .common (.contentLength 5),
    .common (.header (Bytes.text "Location") (Bytes.text "/a b")),
    .common (.header (Bytes.text "ETag") (Bytes.text "\"1:2\""))].foldlM set
      (answer 200 (Bytes.text "OK")) = .ok created := by
  rfl

theorem response_text_roundtrip_example :
    (default 5).fromString 0 created.toString = (created, true) := by
  have made : Message.createSuccess 0 [] [] = .ok (.new (answer 200 (Bytes.text "OK")) []) := rfl
  have sendable : Sendable 0 created :=
    ⟨by decide +kernel, by decide +kernel, recent_zero⟩
  apply (response_text_roundtrip (.success made) built_created sendable).mpr
  exact ⟨by decide +kernel, by decide +kernel, by decide +kernel⟩

/-- The response of `CreateNotFound` is not read back. -/
theorem response_text_roundtrip_broken :
    ¬ ∀ now nowMs (setters : List Setter) (start header receiver : ResponseHeader),
      Created now start → setters.foldlM set start = .ok header → Sendable nowMs header →
        receiver.fromString nowMs header.toString =
          ({ header with protocolType := receiver.protocolType }, true) := by
  intro always
  have made : Message.createNotFound 0 [] = .ok (.new (answer 404 (Bytes.text "not found")) []) :=
    rfl
  have read := always 0 0 [] _ _ (default 0) (.notFound made) rfl sendable_answer
  have noBlank := (unblanked_of_fromString read).statusMessage
  revert noBlank
  exact not_not.mpr (by decide : Bytes.char ' ' ∈ Bytes.text "not found")

end Wan.Network.ResponseHeader
