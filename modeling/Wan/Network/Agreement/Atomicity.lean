import Wan.Network.Agreement.MessageJson
import Wan.Network.Agreement.ParserRules

/-!
# A message is read as a whole or not at all

A parser that returns false leaves its object as it was, unless the memory runs out while a
candidate is assigned.  A parser that returns true leaves nothing of the earlier object, except for
the protocol type, which the text form does not have.
-/

namespace Wan.Network

open Wan.Library Wan.Library.Program

variable {Value : Type} {json : JsonLibrary Value} {digests : Digests} {around : Surroundings}
  {nowMs later : Int}

/-- What the parsers of a header class do: what the two forms say, whatever the clock shows, and
how the parsers and the assignment end. -/
class HeaderMeaning (Header : Type) [HeaderConstraint Header] [HeaderParsers Header] where
  untyped : Header → Header
  version : Header → UInt32
  ofText : Int → Bytes → Option Header
  ofJson : {Value : Type} → JsonLibrary Value → Int → Value → Option Header
  ofText_unique : ∀ {nowMs later data first second}, ofText nowMs data = some first →
    ofText later data = some second → first = second
  ofJson_unique : ∀ {Value : Type} {json : JsonLibrary Value} {nowMs later value first second},
    ofJson json nowMs value = some first → ofJson json later value = some second → first = second
  fromString_runs : ∀ {around data header}, Runs (HeaderParsers.fromString around data) header
    (fun _ last => ofText around.nowMs data = some (untyped last)) fun _ last => last = header
  fromJson_none : ∀ {Value : Type} {json : JsonLibrary Value} {around value} {header : Header},
    ofJson json around.nowMs value = none →
    Runs (HeaderParsers.fromJson json around value) header (fun _ _ => False)
      fun leave last => leave = .returnFalse ∧ last = header
  fromJson_some : ∀ {Value : Type} {json : JsonLibrary Value} {around value header other},
    ofJson json around.nowMs value = some other →
    Runs (HeaderParsers.fromJson json around value) header
      (fun _ last => last = other ∧ around.exhausted ≠ some ⟨.header, .assigning⟩)
      fun leave last => leave = .returnFalse ∧
        Exhausted around .header version (version other) header last
  assign_runs : ∀ {around level header other}, Runs (HeaderParsers.assign around level other) header
    (fun _ last => last = other ∧ around.exhausted ≠ some ⟨level, .assigning⟩)
    fun leave last => leave = .thrown ∧ around.exhausted = some ⟨level, .assigning⟩ ∧
      version last = version other
  fromString_does : ∀ {around data} (header : Header), around.exhausted = none →
    Does (HeaderParsers.fromString around data) header
      (HeaderConstraint.fromString around.nowMs header data)
  fromJson_does : ∀ {Value : Type} {json : JsonLibrary Value} {around value} (header : Header),
    around.exhausted = none → Does (HeaderParsers.fromJson json around value) header
      (HeaderConstraint.fromJson json around.nowMs header value)

/-- What is kept by a later clock does not depend on the clock. -/
theorem eq_of_later {Read : Type} {read : Int → Option Read}
    (kept : ∀ {nowMs later result}, nowMs ≤ later → read nowMs = some result →
      read later = some result) {first second : Read} (early : read nowMs = some first)
    (late : read later = some second) : first = second := by
  rcases Int.le_total nowMs later with order | order
  · exact Option.some.inj ((kept order early).symm.trans late)
  · exact Option.some.inj (early.symm.trans (kept order late))

instance : HeaderMeaning RequestHeader where
  untyped := RequestHeader.untyped
  version header := header.version
  ofText := RequestHeader.ofText
  ofJson := RequestHeader.parseJson
  ofText_unique := by
    intro nowMs later data first second early late
    rw [RequestHeader.ofText, Option.map_eq_some_iff] at early late
    rcases early with ⟨read, isRead, rfl⟩
    rcases late with ⟨read', isRead', rfl⟩
    rw [eq_of_later ProtocolHeader.parseText_later isRead isRead']
  ofJson_unique := eq_of_later RequestHeader.parseJson_later
  fromString_runs := RequestHeader.runFromString_runs
  fromJson_none := RequestHeader.runFromJson_none
  fromJson_some := RequestHeader.runFromJson_some
  assign_runs := RequestHeader.assign_runs
  fromString_does := RequestHeader.runFromString_does
  fromJson_does := RequestHeader.runFromJson_does

instance : HeaderMeaning ResponseHeader where
  untyped := ResponseHeader.untyped
  version header := header.version
  ofText := ResponseHeader.ofText
  ofJson := ResponseHeader.parseJson
  ofText_unique := by
    intro nowMs later data first second early late
    rw [ResponseHeader.ofText, Option.map_eq_some_iff] at early late
    rcases early with ⟨read, isRead, rfl⟩
    rcases late with ⟨read', isRead', rfl⟩
    rw [eq_of_later ProtocolHeader.parseText_later isRead isRead']
  ofJson_unique := eq_of_later ResponseHeader.parseJson_later
  fromString_runs := ResponseHeader.runFromString_runs
  fromJson_none := ResponseHeader.runFromJson_none
  fromJson_some := ResponseHeader.runFromJson_some
  assign_runs := ResponseHeader.assign_runs
  fromString_does := ResponseHeader.runFromString_does
  fromJson_does := ResponseHeader.runFromJson_does

namespace Message

variable {Header : Type} [HeaderConstraint Header] [HeaderParsers Header] [HeaderMeaning Header]
  {candidate : Header} {body data : Bytes} {request : Message Header} {value : Value}

/-- The version of the header. -/
def version (request : Message Header) : UInt32 := HeaderMeaning.version request.header

/-- What the JSON form of a message says. -/
def ofJson (digests : Digests) (json : JsonLibrary Value) (nowMs : Int) (value : Value) :
    Option (Header × Bytes) := do
  let (header, body) ← partsOfJson json value
  let candidate ← HeaderMeaning.ofJson json nowMs header
  if HeaderConstraint.verifyIntegrity digests candidate body then
    return (candidate, body)
  else
    none

/-- What the text form of a message says. -/
def ofText (nowMs : Int) (data : Bytes) : Option (Header × Bytes) := do
  let (line, body) ← Bytes.cutAt (Bytes.crlf ++ Bytes.crlf) data
  let header ← HeaderMeaning.ofText nowMs (data.take (line.length + 2))
  return (header, body)

theorem ofText_unique {first second : Header × Bytes} (early : ofText nowMs data = some first)
    (late : ofText later data = some second) : first = second := by
  rcases Option.bind_eq_some_iff.mp early with ⟨parts, cut, early⟩
  rcases Option.bind_eq_some_iff.mp late with ⟨parts', cut', late⟩
  cases cut.symm.trans cut'
  rcases Option.bind_eq_some_iff.mp early with ⟨header, isHeader, early⟩
  rcases Option.bind_eq_some_iff.mp late with ⟨header', isHeader', late⟩
  cases HeaderMeaning.ofText_unique isHeader isHeader'
  exact Option.some.inj (early.symm.trans late)

theorem ofJson_unique {first second : Header × Bytes}
    (early : ofJson digests json nowMs value = some first)
    (late : ofJson digests json later value = some second) : first = second := by
  rcases Option.bind_eq_some_iff.mp early with ⟨parts, isParts, early⟩
  rcases Option.bind_eq_some_iff.mp late with ⟨parts', isParts', late⟩
  cases isParts.symm.trans isParts'
  rcases Option.bind_eq_some_iff.mp early with ⟨header, isHeader, early⟩
  rcases Option.bind_eq_some_iff.mp late with ⟨header', isHeader', late⟩
  cases HeaderMeaning.ofJson_unique isHeader isHeader'
  exact Option.some.inj (early.symm.trans late)

omit [HeaderMeaning Header] in
theorem commit_rejected (bad : HeaderConstraint.verifyIntegrity digests candidate body = false) :
    Runs (commit digests around candidate body) request (fun _ _ => False)
      fun leave last => last = request ∧ (around.exhausted = none → leave = .returnFalse) := by
  simp only [commit, runs_bind, runs_allocate, runs_refuse, true_and, implies_true, and_true]
  refine ⟨fun here enough => ?_, fun _ good => absurd bad good⟩
  cases enough.symm.trans here

theorem commit_verified (good : HeaderConstraint.verifyIntegrity digests candidate body = true) :
    Runs (commit digests around candidate body) request
      (fun _ last => last = { request with header := candidate, message := body }.invalidateCache ∧
        around.exhausted ≠ some ⟨.message, .assigning⟩)
      fun leave last => leave = .thrown ∧
        Exhausted around .message version (HeaderMeaning.version candidate) request last := by
  simp only [commit, runs_bind, runs_allocate, runs_refuse, runs_onPart, runs_modify]
  refine ⟨fun here => ⟨trivial, .of_phase here (by decide)⟩, fun _ => ⟨fun bad => ?_, fun _ => ?_⟩⟩
  · cases good.symm.trans bad
  · apply HeaderMeaning.assign_runs.mono
    · rintro _ _ ⟨rfl, elsewhere⟩
      exact ⟨rfl, elsewhere⟩
    · rintro leave last ⟨isThrown, here, same⟩
      exact ⟨isThrown, ⟨_, here⟩, fun elsewhere => absurd here elsewhere, fun _ => same⟩

theorem runFromString_runs : Runs (runFromString digests around data) request
    (fun _ last => (∃ line,
        Bytes.cutAt (Bytes.crlf ++ Bytes.crlf) data = some (line, last.message) ∧
        HeaderMeaning.ofText around.nowMs (data.take (line.length + 2)) =
          some (HeaderMeaning.untyped last.header)) ∧
      HeaderConstraint.verifyIntegrity digests last.header last.message = true)
    fun leave last => leave = .returnFalse → last = request := by
  simp only [runFromString, runs_bind, runs_require, runs_allocate, runs_get, runs_onLocal]
  refine ⟨fun _ _ => trivial, fun parts cut =>
    ⟨(fun _ impossible => by cases impossible), fun _ => ?_⟩⟩
  apply HeaderMeaning.fromString_runs.mono
  · intro _ candidate read
    cases verified : HeaderConstraint.verifyIntegrity digests candidate parts.2 with
    | false =>
        apply (commit_rejected verified).mono
        · exact fun _ _ never => never.elim
        · exact fun _ _ ended _ => ended.1
    | true =>
        apply (commit_verified verified).mono
        · rintro _ _ ⟨rfl, -⟩
          exact ⟨⟨parts.1, cut, read⟩, verified⟩
        · rintro leave last ⟨rfl, -⟩
          intro impossible
          cases impossible
  · intro leave _ _ _
    trivial

theorem runFromJson_none
    (unread : (ofJson digests json around.nowMs value : Option (Header × Bytes)) = none) :
    Runs (runFromJson json digests around value) request (fun _ _ => False)
      fun leave last => leave = .returnFalse ∧ last = request := by
  simp only [runFromJson, runs_absorb, runs_bind, runs_require, runs_allocate, runs_get,
    runs_onLocal, true_and, implies_true]
  intro parts isParts _
  cases read : (HeaderMeaning.ofJson json around.nowMs parts.1 : Option Header) with
  | none =>
      apply (HeaderMeaning.fromJson_none read).mono
      · exact fun _ _ never => never.elim
      · exact fun _ _ _ => trivial
  | some other =>
      apply (HeaderMeaning.fromJson_some read).mono
      · rintro _ candidate ⟨rfl, -⟩
        have bad : HeaderConstraint.verifyIntegrity digests candidate parts.2 = false := by
          rw [ofJson, isParts] at unread
          simpa [read] using unread
        exact (commit_rejected bad).mono (fun _ _ never => never.elim) fun _ _ ended => ended.1
      · exact fun _ _ _ => trivial

theorem runFromJson_some (read : ofJson digests json around.nowMs value = some (candidate, body)) :
    Runs (runFromJson json digests around value) request
      (fun _ last => last = { request with header := candidate, message := body }.invalidateCache ∧
        HeaderConstraint.verifyIntegrity digests candidate body = true ∧
        around.exhausted ≠ some ⟨.message, .assigning⟩)
      fun leave last => leave = .returnFalse ∧
        (around.exhausted ≠ some ⟨.message, .assigning⟩ → last = request) ∧
        (around.exhausted = some ⟨.message, .assigning⟩ →
          last.version = HeaderMeaning.version candidate) := by
  rcases Option.bind_eq_some_iff.mp read with ⟨parts, isParts, read⟩
  rcases Option.bind_eq_some_iff.mp read with ⟨other, isOther, read⟩
  split at read
  next good =>
    cases read
    simp only [runFromJson, runs_absorb, runs_bind, isParts, runs_require_some, runs_allocate,
      runs_get, runs_onLocal]
    refine ⟨fun here => ⟨trivial, fun _ => trivial, fun there => ?_⟩, fun _ => ?_⟩
    · cases here.symm.trans there
    apply (HeaderMeaning.fromJson_some isOther).mono
    · rintro _ _ ⟨rfl, -⟩
      apply (commit_verified good).mono
      · rintro _ _ ⟨rfl, elsewhere⟩
        exact ⟨rfl, good, elsewhere⟩
      · rintro leave last ⟨-, ended⟩
        exact ⟨trivial, ended.kept, ended.torn⟩
    · rintro leave _ ⟨-, ended⟩
      refine ⟨trivial, fun _ => trivial, fun there => ?_⟩
      rcases ended.here with ⟨phase, here⟩
      cases here.symm.trans there
  next => cases read

/-- With enough memory, the program of a message does what the function says. -/
theorem runFromString_does (enough : around.exhausted = none) :
    Does (runFromString digests around data) request
      (request.fromString digests around.nowMs data) := by
  simp only [Does, runFromString, runs_bind, runs_require, runs_allocate, runs_get, runs_onLocal,
    enough]
  refine ⟨fun uncut => ⟨trivial, ?_⟩, fun parts cut => ⟨(fun here => by cases here), fun _ => ?_⟩⟩
  · rw [fromString, uncut]
  rw [fromString, cut]
  apply (HeaderMeaning.fromString_does request.header enough).mono
  · intro _ candidate read
    dsimp only
    rw [read, Bool.true_and]
    cases verified : HeaderConstraint.verifyIntegrity digests candidate parts.2 with
    | false =>
        apply (commit_rejected verified).mono
        · exact fun _ _ never => never.elim
        · rintro leave _ ⟨rfl, isReturn⟩
          exact ⟨isReturn enough, rfl⟩
    | true =>
        apply (commit_verified verified).mono
        · rintro _ _ ⟨rfl, -⟩
          rfl
        · rintro leave _ ⟨-, ended⟩
          rcases ended.here with ⟨_, here⟩
          cases enough.symm.trans here
  · rintro leave candidate ⟨isReturn, read⟩
    dsimp only
    rw [read, Bool.false_and]
    exact ⟨isReturn, rfl⟩

theorem runFromJson_does (enough : around.exhausted = none) :
    Does (runFromJson json digests around value) request
      (request.fromJson digests json around.nowMs value) := by
  simp only [Does, runFromJson, runs_absorb, runs_bind, runs_require, runs_allocate, runs_get,
    runs_onLocal, enough]
  refine ⟨fun unread => ⟨trivial, ?_⟩, fun parts isParts =>
    ⟨(fun here => by cases here), fun _ => ?_⟩⟩
  · rw [fromJson, unread]
  rw [fromJson, isParts]
  apply (HeaderMeaning.fromJson_does request.header enough).mono
  · intro _ candidate read
    dsimp only
    rw [read, Bool.true_and]
    cases verified : HeaderConstraint.verifyIntegrity digests candidate parts.2 with
    | false =>
        apply (commit_rejected verified).mono
        · exact fun _ _ never => never.elim
        · rintro leave _ ⟨rfl, -⟩
          exact ⟨trivial, rfl⟩
    | true =>
        apply (commit_verified verified).mono
        · rintro _ _ ⟨rfl, -⟩
          rfl
        · rintro leave _ ⟨-, ended⟩
          rcases ended.here with ⟨_, here⟩
          cases enough.symm.trans here
  · rintro leave candidate ⟨-, read⟩
    dsimp only
    rw [read, Bool.false_and]
    exact ⟨trivial, rfl⟩

end Message

section Main

variable {exhausted : Option Place}

/-- A parser ends. If it returns false, its object is as it was; if it returns true, what is to be
seen of its object is a matter of the input. -/
structure Atomic {Object Input View : Type} (exhausted : Option Place)
    (parser : Surroundings → Input → Parser Object Unit) (view : Object → View) : Prop where
  ends : ∀ around input object, ((parser around input).run.run object).isSome
  unchanged : ∀ nowMs left input object last,
    (parser ⟨nowMs, exhausted, left⟩ input).run.run object = some (.error .returnFalse, last) →
      last = object
  determined : ∀ around around' input object object' last last',
    (parser around input).run.run object = some (.ok (), last) →
    (parser around' input).run.run object' = some (.ok (), last') → view last = view last'

/-- The parsers of a header class and of its messages are atomic, and the length and the checksum of
a message that is read are those of its body. -/
structure ParseAtomic (Header : Type) [HeaderConstraint Header] [HeaderParsers Header]
    [HeaderMeaning Header] (digests : Digests) (json : JsonLibrary Value)
    (exhausted : Option Place) : Prop where
  headerText : Atomic exhausted
    (HeaderParsers.fromString : Surroundings → Bytes → Parser Header Unit) HeaderMeaning.untyped
  headerJson : Atomic exhausted
    (HeaderParsers.fromJson json : Surroundings → Value → Parser Header Unit) id
  messageText : Atomic exhausted
    (Message.runFromString digests : Surroundings → Bytes → Parser (Message Header) Unit)
    fun request => (HeaderMeaning.untyped request.header, request.message)
  messageJson : Atomic exhausted
    (Message.runFromJson json digests : Surroundings → Value → Parser (Message Header) Unit)
    fun request => (request.header, request.message)
  matchingText : ∀ around data (request last : Message Header),
    (Message.runFromString digests around data).run.run request = some (.ok (), last) →
      HeaderConstraint.verifyIntegrity digests last.header last.message = true
  matchingJson : ∀ around value (request last : Message Header),
    (Message.runFromJson json digests around value).run.run request = some (.ok (), last) →
      HeaderConstraint.verifyIntegrity digests last.header last.message = true

/-- A parser is atomic that is known to end with what its input means, whatever the clock
shows. -/
theorem Atomic.of_runs {Object Input View : Type}
    {parser : Surroundings → Input → Parser Object Unit} {view : Object → View}
    (meaning : Int → Input → Option View)
    (unique : ∀ {nowMs later input first second}, meaning nowMs input = some first →
      meaning later input = some second → first = second)
    (runs : ∀ around input object, Runs (parser around input) object
      (fun _ last => meaning around.nowMs input = some (view last))
      fun leave last => leave = .returnFalse → around.exhausted = exhausted → last = object) :
    Atomic exhausted parser view where
  ends around input object := (runs around input object).isSome
  unchanged nowMs left input object _ ended :=
    (runs ⟨nowMs, exhausted, left⟩ input object).ended ended rfl rfl
  determined around around' input object object' _ _ ended ended' :=
    unique ((runs around input object).ended ended) ((runs around' input object').ended ended')

section Class

variable {Header : Type} [HeaderConstraint Header] [HeaderParsers Header] [HeaderMeaning Header]

theorem atomic_headerText : Atomic exhausted
    (HeaderParsers.fromString : Surroundings → Bytes → Parser Header Unit)
    HeaderMeaning.untyped := by
  apply Atomic.of_runs HeaderMeaning.ofText HeaderMeaning.ofText_unique
  intro around data header
  apply HeaderMeaning.fromString_runs.mono
  · exact fun _ _ read => read
  · exact fun _ _ same _ _ => same

theorem atomic_headerJson (elsewhere : exhausted ≠ some ⟨.header, .assigning⟩) : Atomic exhausted
    (HeaderParsers.fromJson json : Surroundings → Value → Parser Header Unit) id := by
  apply Atomic.of_runs (HeaderMeaning.ofJson json) HeaderMeaning.ofJson_unique
  intro around value header
  cases read : (HeaderMeaning.ofJson json around.nowMs value : Option Header) with
  | none =>
      apply (HeaderMeaning.fromJson_none read).mono
      · exact fun _ _ never => never.elim
      · exact fun _ _ ended _ _ => ended.2
  | some other =>
      apply (HeaderMeaning.fromJson_some read).mono
      · rintro _ _ ⟨rfl, -⟩
        rfl
      · rintro leave last ⟨-, ended⟩ - rfl
        exact ended.kept elsewhere

theorem atomic_messageText : Atomic exhausted
    (Message.runFromString digests : Surroundings → Bytes → Parser (Message Header) Unit)
    fun request => (HeaderMeaning.untyped request.header, request.message) := by
  apply Atomic.of_runs Message.ofText Message.ofText_unique
  intro around data request
  apply Message.runFromString_runs.mono
  · rintro _ last ⟨⟨line, cut, read⟩, -⟩
    rw [Message.ofText, cut]
    simp only [Option.bind_eq_bind, Option.bind_some, read]
    rfl
  · exact fun _ _ kept refused _ => kept refused

theorem atomic_messageJson (elsewhere : exhausted ≠ some ⟨.message, .assigning⟩) : Atomic exhausted
    (Message.runFromJson json digests : Surroundings → Value → Parser (Message Header) Unit)
    fun request => (request.header, request.message) := by
  apply Atomic.of_runs (Message.ofJson digests json) Message.ofJson_unique
  intro around value request
  cases read : (Message.ofJson digests json around.nowMs value : Option (Header × Bytes)) with
  | none =>
      apply (Message.runFromJson_none read).mono
      · exact fun _ _ never => never.elim
      · exact fun _ _ ended _ _ => ended.2
  | some parts =>
      apply (Message.runFromJson_some read).mono
      · rintro _ _ ⟨rfl, -⟩
        rfl
      · rintro leave last ⟨-, kept, -⟩ - rfl
        exact kept elsewhere

theorem parseAtomic (header : exhausted ≠ some ⟨.header, .assigning⟩)
    (message : exhausted ≠ some ⟨.message, .assigning⟩) :
    ParseAtomic Header digests json exhausted where
  headerText := atomic_headerText
  headerJson := atomic_headerJson header
  messageText := atomic_messageText
  messageJson := atomic_messageJson message
  matchingText around data request last ended := (Message.runFromString_runs.ended ended).2
  matchingJson around value request last ended := by
    cases read : (Message.ofJson digests json around.nowMs value : Option (Header × Bytes)) with
    | none => exact ((Message.runFromJson_none read).ended ended).elim
    | some parts =>
        rcases (Message.runFromJson_some read).ended ended with ⟨rfl, verified, -⟩
        exact verified

end Class

/-- A header that can be sent, with a version. -/
def versioned (version : UInt32) : RequestHeader :=
  { RequestHeader.bare (Bytes.text "/") with version := version }

theorem parseJson_bare (lawful : json.Lawful) {common : ProtocolHeader}
    (accepted : ProtocolHeader.Accepted common.headers) :
    RequestHeader.parseJson json 0 (RequestHeader.toJson json
        { RequestHeader.bare (Bytes.text "/") with toProtocolHeader := common }) =
      some { RequestHeader.bare (Bytes.text "/") with toProtocolHeader := common } := by
  apply RequestHeader.parseJson_toJson lawful
  · exact ⟨.inr rfl, .inr rfl, rfl, accepted⟩
  · exact (by decide : Bytes.text "GET" ≠ [])
  · exact (by decide : Bytes.text "/" ≠ [])
  · exact recent_zero

/-- A header is left with a part of the input when the memory runs out while it is assigned. -/
theorem not_unchanged_header (lawful : json.Lawful) :
    ¬ ParseAtomic RequestHeader digests json (some ⟨.header, .assigning⟩) := by
  intro atomic
  have read : RequestHeader.parseJson json 0 ((versioned 1).toJson json) = some (versioned 1) :=
    parseJson_bare lawful ProtocolHeader.accepted_empty
  have runs : Runs (RequestHeader.runFromJson json ⟨0, some ⟨.header, .assigning⟩, .empty⟩ _)
    (versioned 2) _ _ := RequestHeader.runFromJson_some read
  rcases runs.outcome with ⟨_, last, -, -, elsewhere⟩ | ⟨leave, last, ended, rfl, torn⟩
  · exact elsewhere rfl
  · have same := atomic.headerJson.unchanged _ _ _ _ _ ended
    have version := torn.torn rfl
    rw [same] at version
    cases version

/-- So is the header of a message. -/
theorem not_unchanged_message (lawful : json.Lawful) :
    ¬ ParseAtomic RequestHeader digests json (some ⟨.message, .assigning⟩) := by
  intro atomic
  have isHeader : RequestHeader.parseJson json 0 (RequestHeader.toJson json
      (HeaderConstraint.calculateAndSetChecksum digests (versioned 1) [])) =
        some (HeaderConstraint.calculateAndSetChecksum digests (versioned 1) []) := by
    apply parseJson_bare lawful
    exact ProtocolHeader.accepted_empty
  have read : Message.ofJson digests json 0
      ((Message.new (versioned 1) []).toJson digests json).2 =
        some (HeaderConstraint.calculateAndSetChecksum digests (versioned 1) [], []) := by
    rw [Message.ofJson, Message.partsOfJson_toJson lawful]
    change Option.bind (RequestHeader.parseJson json 0 (RequestHeader.toJson json _)) _ = _
    rw [Message.new, isHeader, Option.bind_some]
    exact if_pos (Message.verifyIntegrity_calculateAndSetChecksum _ _)
  have runs : Runs (Message.runFromJson json digests ⟨0, some ⟨.message, .assigning⟩, .empty⟩ _)
    (.new (versioned 2) []) _ _ := Message.runFromJson_some read
  rcases runs.outcome with ⟨_, last, -, -, -, elsewhere⟩ | ⟨leave, last, ended, rfl, -, torn⟩
  · exact elsewhere rfl
  · have same := atomic.messageJson.unchanged _ _ _ _ _ ended
    have version := torn rfl
    rw [same] at version
    cases version

/-- The parsers are atomic exactly if the memory does not run out while a candidate is assigned. -/
theorem parseAtomic_iff (lawful : json.Lawful) :
    (ParseAtomic RequestHeader digests json exhausted ∧
      ParseAtomic ResponseHeader digests json exhausted) ↔
        ∀ level, exhausted ≠ some ⟨level, .assigning⟩ := by
  constructor
  · rintro ⟨atomic, -⟩ level rfl
    cases level with
    | header => exact not_unchanged_header lawful atomic
    | message => exact not_unchanged_message lawful atomic
  · intro elsewhere
    exact ⟨parseAtomic (elsewhere .header) (elsewhere .message),
      parseAtomic (elsewhere .header) (elsewhere .message)⟩

theorem parseAtomic_copying :
    ParseAtomic RequestHeader ⟨id, id⟩ JsonValue.library (some ⟨.message, .copying⟩) ∧
      ParseAtomic ResponseHeader ⟨id, id⟩ JsonValue.library (some ⟨.message, .copying⟩) :=
  (parseAtomic_iff JsonValue.library_lawful).mpr nofun

/-- The memory runs out while the header of a message is assigned. -/
theorem not_parseAtomic_assigning : ¬ ∀ exhausted,
    ParseAtomic RequestHeader ⟨id, id⟩ JsonValue.library exhausted ∧
      ParseAtomic ResponseHeader ⟨id, id⟩ JsonValue.library exhausted := by
  intro always
  exact not_unchanged_message JsonValue.library_lawful (always (some ⟨.message, .assigning⟩)).1

end Main

end Wan.Network
