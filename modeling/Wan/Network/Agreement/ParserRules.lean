import Wan.Network.Agreement.Parsers

/-!
# How the parsers of the headers end

For each parser, the way it ends on an input that it can read, the way it ends on another, and
how it compares with the function of the same name.
-/
namespace Wan.Network

open Wan.Library Wan.Library.Program

variable {Value : Type} {json : JsonLibrary Value} {digests : Digests} {around : Surroundings}
  {nowMs later : Int}

section Rules

variable {Object : Type} {object : Object} {level : Level} {phase : Phase}
  {post : Unit → Object → Prop} {raises : Leave → Object → Prop}

@[simp] theorem runs_allocate : Runs (allocate around level phase) object post raises ↔
    (around.exhausted = some ⟨level, phase⟩ → raises .thrown object) ∧
      (around.exhausted ≠ some ⟨level, phase⟩ → post () object) := runs_refuse

@[simp] theorem runs_absorb {body : Parser Object Unit} : Runs (absorb body) object post raises ↔
    Runs body object post fun _ last => raises .returnFalse last := by
  rw [absorb, runs_tryCatch]
  rfl

/-- How a call ends that runs out of memory. Only a candidate that is being assigned leaves its
traces, such as the version that was read. -/
structure Exhausted (around : Surroundings) (level : Level) (version : Object → UInt32)
    (read : UInt32) (object last : Object) : Prop where
  here : ∃ phase, around.exhausted = some ⟨level, phase⟩
  kept : around.exhausted ≠ some ⟨level, .assigning⟩ → last = object
  torn : around.exhausted = some ⟨level, .assigning⟩ → version last = read

variable {version : Object → UInt32} {read : UInt32}

theorem Exhausted.of_phase (here : around.exhausted = some ⟨level, phase⟩)
    (different : phase ≠ .assigning) : Exhausted around level version read object object where
  here := ⟨phase, here⟩
  kept _ := rfl
  torn there := by
    cases here.symm.trans there
    exact absurd rfl different

end Rules

namespace ProtocolHeader

variable {header other : ProtocolHeader} {value : Value} {level : Level} {special key text : Bytes}
  {lines last : Lines} {data rest : Bytes}

theorem runFromJson_runs : Runs (runFromJson json around value) header
    (fun _ last => fromJson json value = some last)
    fun leave _ => leave = .returnFalse ∧
      (fromJson json value = none ∨ around.exhausted = some ⟨.header, .reading⟩) := by
  simp only [runFromJson, runs_absorb, runs_bind, runs_allocate, runs_require, runs_modify]
  refine ⟨fun here => ⟨trivial, .inr here⟩, fun _ => ⟨fun absent => ⟨trivial, .inl absent⟩, ?_⟩⟩
  intro parsed read
  exact read

theorem assign_runs : Runs (other.assign around level) header
    (fun _ last => last = other ∧ around.exhausted ≠ some ⟨level, .assigning⟩)
    fun leave last => leave = .thrown ∧ around.exhausted = some ⟨level, .assigning⟩ ∧
      last.version = other.version := by
  simp only [assign, runs_bind, runs_modify]
  split
  next here =>
    simp only [runs_bind, runs_modify, runs_throw]
    exact ⟨trivial, here, trivial⟩
  next elsewhere =>
    simp only [runs_bind, runs_modify]
    exact ⟨trivial, elsewhere⟩

/-- What is accepted early is accepted later. -/
theorem parseEntry_later (order : nowMs ≤ later)
    (read : parseEntry special nowMs key text lines = some last) :
    parseEntry special later key text lines = some last := by
  rw [parseEntry] at read ⊢
  split at read
  next => cases read
  next valid =>
    rw [if_neg valid]
    split at read
    next isSpecial =>
      rw [if_pos isSpecial]
      exact read
    next notSpecial =>
      rw [if_neg notSpecial]
      split at read
      next isTimestamp =>
        rw [if_pos isTimestamp]
        split at read
        next => cases read
        next unread =>
          rw [if_neg unread]
          cases number : safeParseSigned text with
          | none =>
              rw [number] at read
              cases read
          | some timestamp =>
              rw [number] at read
              dsimp only at read ⊢
              split at read
              next => cases read
              next timely =>
                have stillTimely : ¬ (timestamp < 0 ∨ later + 86400000 < timestamp) := by omega
                rw [if_neg stillTimely]
                exact read
      next isEntry =>
        rw [if_neg isEntry]
        exact read

theorem parseLine_later {line : Bytes} (order : nowMs ≤ later)
    (read : parseLine special nowMs line lines = some last) :
    parseLine special later line lines = some last := by
  rw [parseLine] at read ⊢
  split at read
  next => cases read
  next shape =>
    rw [if_neg shape]
    split at read
    next key text isKey isText => exact parseEntry_later order read
    next => cases read

theorem parseLines_later {count : Nat} (order : nowMs ≤ later)
    (read : parseLines special nowMs count data lines = some (rest, last)) :
    parseLines special later count data lines = some (rest, last) := by
  induction count generalizing data lines with
  | zero => exact read
  | succ count ih =>
      rw [parseLines] at read ⊢
      split at read
      next ended =>
        rw [if_pos ended]
        exact read
      next more =>
        rw [if_neg more]
        cases cut : Bytes.cutAt Bytes.crlf data with
        | none =>
            rw [cut] at read
            cases read
        | some pair =>
            rw [cut] at read
            dsimp only at read ⊢
            split at read
            next => cases read
            next short =>
              rw [if_neg short]
              split at read
              next blank =>
                rw [if_pos blank]
                exact read
              next filled =>
                rw [if_neg filled]
                cases one : parseLine special nowMs pair.1 lines with
                | none =>
                    rw [one] at read
                    cases read
                | some middle =>
                    rw [one] at read
                    rw [parseLine_later order one]
                    exact ih read

theorem parseText_later {Start : Type} {startLine : List Bytes → Option Start} {start : Start}
    (order : nowMs ≤ later)
    (read : parseText startLine special nowMs data = some (start, lines)) :
    parseText startLine special later data = some (start, lines) := by
  rw [parseText] at read ⊢
  split at read
  next => cases read
  next sized =>
    rw [if_neg sized]
    cases cut : Bytes.cutAt Bytes.crlf data with
    | none =>
        rw [cut] at read
        cases read
    | some pair =>
        rw [cut] at read
        dsimp only at read ⊢
        split at read
        next => cases read
        next inside =>
          rw [if_neg inside]
          cases first : startLine (partsOf pair.1) with
          | none =>
              rw [first] at read
              cases read
          | some start =>
              rw [first] at read
              dsimp only at read ⊢
              cases headers : parseLines special nowMs 100 pair.2 .start with
              | none =>
                  rw [headers] at read
                  cases read
              | some result =>
                  rw [headers] at read
                  rw [parseLines_later order headers]
                  exact read

end ProtocolHeader

namespace RequestHeader

variable {header other : RequestHeader} {value : Value} {data : Bytes} {level : Level}

/-- A header without its protocol type. -/
def untyped (header : RequestHeader) : RequestHeader := { header with protocolType := .customTcp }

/-- What the text form of a header says. -/
def ofText (nowMs : Int) (data : Bytes) : Option RequestHeader :=
  (ProtocolHeader.parseText parseStartLine (Bytes.text "User-Agent") nowMs data).map fun read =>
    { read.1 with
      headers := read.2.headers
      protocolType := .customTcp
      userAgent := read.2.special.getD []
      timestamp := ofMilliseconds (read.2.timestamp.getD 0) }

theorem runFromString_runs : Runs (runFromString around data) header
    (fun _ last => ofText around.nowMs data = some last.untyped) fun _ last => last = header := by
  simp only [runFromString, runs_bind, runs_allocate, runs_require, runs_modify]
  refine ⟨fun _ => trivial, fun _ => ⟨fun _ => trivial, ?_⟩⟩
  intro read isRead
  rw [ofText, isRead]
  rfl

theorem assign_runs : Runs (assign around level other) header
    (fun _ last => last = other ∧ around.exhausted ≠ some ⟨level, .assigning⟩)
    fun leave last => leave = .thrown ∧ around.exhausted = some ⟨level, .assigning⟩ ∧
      last.version = other.version := by
  simp only [assign, runs_bind, runs_onPart, runs_modify]
  apply ProtocolHeader.assign_runs.mono
  · rintro _ common ⟨rfl, elsewhere⟩
    exact ⟨rfl, elsewhere⟩
  · rintro leave common ⟨isThrown, here, version⟩
    exact ⟨isThrown, here, version⟩

/-- What a value holds that is read. -/
theorem parseJson_eq_some : parseJson json nowMs value = some header ↔
    ∃ common members method target userAgent timestamp,
      ProtocolHeader.fromJson json value = some common ∧ json.members value = some members ∧
      (JsonLibrary.find members (Bytes.text "method")).bind json.asString = some method ∧
      (JsonLibrary.find members (Bytes.text "target")).bind json.asString = some target ∧
      (JsonLibrary.find members (Bytes.text "user_agent")).bind json.asString = some userAgent ∧
      (JsonLibrary.find members (Bytes.text "timestamp")).bind json.toSigned = some timestamp ∧
      ¬ (method = [] ∨ 10 < method.length ∨ target = [] ∨ 2048 < target.length ∨
        512 < userAgent.length ∨ timestamp < 0 ∨ nowMs + 86400000 < timestamp) ∧
      { common with
        method := method
        target := target
        userAgent := userAgent
        timestamp := ofMilliseconds timestamp } = header := by
  constructor
  · intro read
    rcases Option.bind_eq_some_iff.mp read with ⟨common, isCommon, read⟩
    rcases Option.bind_eq_some_iff.mp read with ⟨members, isObject, read⟩
    rcases Option.bind_eq_some_iff.mp read with ⟨method, isMethod, read⟩
    rcases Option.bind_eq_some_iff.mp read with ⟨target, isTarget, read⟩
    rcases Option.bind_eq_some_iff.mp read with ⟨userAgent, isUserAgent, read⟩
    rcases Option.bind_eq_some_iff.mp read with ⟨timestamp, isTimestamp, read⟩
    split at read
    next => cases read
    next valid =>
      cases read
      exact ⟨common, members, method, target, userAgent, timestamp, isCommon, isObject, isMethod,
        isTarget, isUserAgent, isTimestamp, valid, rfl⟩
  · rintro ⟨common, members, method, target, userAgent, timestamp, isCommon, isObject, isMethod,
      isTarget, isUserAgent, isTimestamp, valid, rfl⟩
    simp only [parseJson, isCommon, isObject, Option.bind_eq_bind, Option.bind_some, isMethod,
      isTarget, isUserAgent, isTimestamp]
    rw [if_neg valid]
    rfl

/-- What is read does not depend on the clock. -/
theorem parseJson_later (order : nowMs ≤ later) (read : parseJson json nowMs value = some header) :
    parseJson json later value = some header := by
  rw [parseJson_eq_some] at read ⊢
  rcases read with ⟨common, members, method, target, userAgent, timestamp, isCommon, isObject,
    isMethod, isTarget, isUserAgent, isTimestamp, valid, equal⟩
  refine ⟨common, members, method, target, userAgent, timestamp, isCommon, isObject, isMethod,
    isTarget, isUserAgent, isTimestamp, ?_, equal⟩
  grind

theorem runFromJson_none (unread : parseJson json around.nowMs value = none) :
    Runs (runFromJson json around value) header (fun _ _ => False)
      fun leave last => leave = .returnFalse ∧ last = header := by
  simp only [runFromJson, runs_absorb, runs_bind, runs_allocate, runs_get, runs_onLocal,
    runs_require, runs_refuse, implies_true, true_and]
  intro _
  apply ProtocolHeader.runFromJson_runs.mono
  · intro _ common isCommon members isObject method isMethod target isTarget userAgent isUserAgent
      value' isValue _ timestamp isTimestamp valid
    have isTimestamp := Option.bind_eq_some_iff.mpr ⟨value', isValue, isTimestamp⟩
    cases unread.symm.trans (parseJson_eq_some.mpr ⟨common, members, method, target, userAgent,
      timestamp, isCommon, isObject, isMethod, isTarget, isUserAgent, isTimestamp, valid, rfl⟩)
  · intro leave last _
    trivial

theorem runFromJson_some (read : parseJson json around.nowMs value = some other) :
    Runs (runFromJson json around value) header
      (fun _ last => last = other ∧ around.exhausted ≠ some ⟨.header, .assigning⟩)
      fun leave last => leave = .returnFalse ∧
        Exhausted around .header (fun header => header.version) other.version header last := by
  rcases parseJson_eq_some.mp read with ⟨common, members, method, target, userAgent, timestamp,
    isCommon, isObject, isMethod, isTarget, isUserAgent, isTimestamp, valid, rfl⟩
  rcases Option.bind_eq_some_iff.mp isTimestamp with ⟨value', isValue, isTimestamp⟩
  simp only [runFromJson, runs_absorb, runs_bind, runs_allocate, runs_get, runs_onLocal,
    runs_refuse, isObject, isMethod, isTarget, isUserAgent, isValue, isTimestamp, runs_require_some]
  refine ⟨fun here => ⟨trivial, .of_phase here (by decide)⟩, fun _ => ?_⟩
  apply ProtocolHeader.runFromJson_runs.mono
  · intro _ read' isRead
    cases isCommon.symm.trans isRead
    refine ⟨fun here => ⟨trivial, .of_phase here (by decide)⟩, fun _ =>
      ⟨fun bad => absurd bad valid, ?_⟩⟩
    intro _
    apply assign_runs.mono
    · intro _ last ended
      exact ended
    · rintro leave last ⟨_, here, version⟩
      exact ⟨trivial, ⟨_, here⟩, fun elsewhere => absurd here elsewhere, fun _ => version⟩
  · rintro leave _ ⟨_, unread | here⟩
    · cases unread.symm.trans isCommon
    · exact ⟨trivial, .of_phase here (by decide)⟩

end RequestHeader

namespace ResponseHeader

variable {header other : ResponseHeader} {value : Value} {data : Bytes} {level : Level}

/-- A header without its protocol type. -/
def untyped (header : ResponseHeader) : ResponseHeader := { header with protocolType := .customTcp }

/-- What the text form of a header says. -/
def ofText (nowMs : Int) (data : Bytes) : Option ResponseHeader :=
  (ProtocolHeader.parseText parseStartLine (Bytes.text "Server") nowMs data).map fun read =>
    { read.1 with
      headers := read.2.headers
      protocolType := .customTcp
      server := read.2.special.getD []
      timestamp := ofMilliseconds (read.2.timestamp.getD 0) }

theorem runFromString_runs : Runs (runFromString around data) header
    (fun _ last => ofText around.nowMs data = some last.untyped) fun _ last => last = header := by
  simp only [runFromString, runs_bind, runs_allocate, runs_require, runs_modify]
  refine ⟨fun _ => trivial, fun _ => ⟨fun _ => trivial, ?_⟩⟩
  intro read isRead
  rw [ofText, isRead]
  rfl

theorem assign_runs : Runs (assign around level other) header
    (fun _ last => last = other ∧ around.exhausted ≠ some ⟨level, .assigning⟩)
    fun leave last => leave = .thrown ∧ around.exhausted = some ⟨level, .assigning⟩ ∧
      last.version = other.version := by
  simp only [assign, runs_bind, runs_onPart, runs_modify]
  apply ProtocolHeader.assign_runs.mono
  · rintro _ common ⟨rfl, elsewhere⟩
    exact ⟨rfl, elsewhere⟩
  · rintro leave common ⟨isThrown, here, version⟩
    exact ⟨isThrown, here, version⟩

/-- What a value holds that is read. -/
theorem parseJson_eq_some : parseJson json nowMs value = some header ↔
    ∃ common members code message server statusCode timestamp,
      ProtocolHeader.fromJson json value = some common ∧ json.members value = some members ∧
      JsonLibrary.find members (Bytes.text "status_code") = some code ∧
      (JsonLibrary.find members (Bytes.text "status_message")).bind json.asString = some message ∧
      (JsonLibrary.find members (Bytes.text "server")).bind json.asString = some server ∧
      json.isNumber code = true ∧ json.toUnsigned (2 ^ 16) code = some statusCode ∧
      (JsonLibrary.find members (Bytes.text "timestamp")).bind json.toSigned = some timestamp ∧
      ¬ (statusCode < 100 ∨ 599 < statusCode ∨ message = [] ∨ 256 < message.length ∨
        512 < server.length ∨ timestamp < 0 ∨ nowMs + 86400000 < timestamp) ∧
      { common with
        server := server
        statusCode := statusCode.toUInt16
        statusMessage := message
        timestamp := ofMilliseconds timestamp } = header := by
  constructor
  · intro read
    simp only [parseJson, Option.bind_eq_bind] at read
    rcases Option.bind_eq_some_iff.mp read with ⟨common, isCommon, read⟩
    rcases Option.bind_eq_some_iff.mp read with ⟨members, isObject, read⟩
    rcases Option.bind_eq_some_iff.mp read with ⟨code, isCode, read⟩
    rcases Option.bind_eq_some_iff.mp read with ⟨message, isMessage, read⟩
    rcases Option.bind_eq_some_iff.mp read with ⟨server, isServer, read⟩
    cases isNumber : json.isNumber code with
    | false => simp [isNumber] at read
    | true =>
      rw [if_pos isNumber] at read
      rcases Option.bind_eq_some_iff.mp read with ⟨statusCode, isStatus, read⟩
      rcases Option.bind_eq_some_iff.mp read with ⟨timestamp, isTimestamp, read⟩
      split at read
      next => cases read
      next valid =>
        cases read
        exact ⟨common, members, code, message, server, statusCode, timestamp, isCommon, isObject,
          isCode, isMessage, isServer, isNumber, isStatus, isTimestamp, valid, rfl⟩
  · rintro ⟨common, members, code, message, server, statusCode, timestamp, isCommon, isObject,
      isCode, isMessage, isServer, isNumber, isStatus, isTimestamp, valid, rfl⟩
    simp only [parseJson, isCommon, isObject, Option.bind_eq_bind, Option.bind_some, isCode,
      isMessage, isServer, isNumber, isStatus, isTimestamp, if_true]
    rw [if_neg valid]
    rfl

/-- What is read does not depend on the clock. -/
theorem parseJson_later (order : nowMs ≤ later) (read : parseJson json nowMs value = some header) :
    parseJson json later value = some header := by
  rw [parseJson_eq_some] at read ⊢
  rcases read with ⟨common, members, code, message, server, statusCode, timestamp, isCommon,
    isObject, isCode, isMessage, isServer, isNumber, isStatus, isTimestamp, valid, equal⟩
  refine ⟨common, members, code, message, server, statusCode, timestamp, isCommon, isObject,
    isCode, isMessage, isServer, isNumber, isStatus, isTimestamp, ?_, equal⟩
  grind

theorem runFromJson_none (unread : parseJson json around.nowMs value = none) :
    Runs (runFromJson json around value) header (fun _ _ => False)
      fun leave last => leave = .returnFalse ∧ last = header := by
  simp only [runFromJson, runs_absorb, runs_bind, runs_allocate, runs_get, runs_onLocal,
    runs_require, runs_refuse, implies_true, true_and]
  intro _
  apply ProtocolHeader.runFromJson_runs.mono
  · intro _ common isCommon members isObject code isCode message isMessage server isServer
      value' isValue isNumber statusCode isStatus _ timestamp isTimestamp valid
    have isNumber : json.isNumber code = true := Bool.of_not_eq_false isNumber
    have isTimestamp := Option.bind_eq_some_iff.mpr ⟨value', isValue, isTimestamp⟩
    cases unread.symm.trans (parseJson_eq_some.mpr ⟨common, members, code, message, server,
      statusCode, timestamp, isCommon, isObject, isCode, isMessage, isServer, isNumber, isStatus,
      isTimestamp, valid, rfl⟩)
  · intro leave last _
    trivial

theorem runFromJson_some (read : parseJson json around.nowMs value = some other) :
    Runs (runFromJson json around value) header
      (fun _ last => last = other ∧ around.exhausted ≠ some ⟨.header, .assigning⟩)
      fun leave last => leave = .returnFalse ∧
        Exhausted around .header (fun header => header.version) other.version header last := by
  rcases parseJson_eq_some.mp read with ⟨common, members, code, message, server, statusCode,
    timestamp, isCommon, isObject, isCode, isMessage, isServer, isNumber, isStatus, isTimestamp,
    valid, rfl⟩
  rcases Option.bind_eq_some_iff.mp isTimestamp with ⟨value', isValue, isTimestamp⟩
  simp only [runFromJson, runs_absorb, runs_bind, runs_allocate, runs_get, runs_onLocal,
    runs_refuse, isObject, isCode, isMessage, isServer, isNumber, isStatus, isValue, isTimestamp,
    runs_require_some]
  refine ⟨fun here => ⟨trivial, .of_phase here (by decide)⟩, fun _ => ?_⟩
  apply ProtocolHeader.runFromJson_runs.mono
  · intro _ read' isRead
    cases isCommon.symm.trans isRead
    refine ⟨(fun here => by cases here), fun _ =>
      ⟨fun here => ⟨trivial, .of_phase here (by decide)⟩, fun _ =>
      ⟨fun bad => absurd bad valid, fun _ => ?_⟩⟩⟩
    apply assign_runs.mono
    · intro _ last ended
      exact ended
    · rintro leave last ⟨_, here, version⟩
      exact ⟨trivial, ⟨_, here⟩, fun elsewhere => absurd here elsewhere, fun _ => version⟩
  · rintro leave _ ⟨_, unread | here⟩
    · cases unread.symm.trans isCommon
    · exact ⟨trivial, .of_phase here (by decide)⟩

end ResponseHeader

section Enough

/-- A program on an object ends as a function says that yields the object afterwards and whether
true is returned. -/
def Does {Object : Type} (parser : Parser Object Unit) (object : Object) (result : Object × Bool) :
    Prop :=
  Runs parser object (fun _ last => result = (last, true))
    fun leave last => leave = .returnFalse ∧ result = (last, false)

variable {value : Value} {data : Bytes}

theorem RequestHeader.runFromString_does (header : RequestHeader)
    (enough : around.exhausted = none) : Does (runFromString around data) header
      (header.fromString around.nowMs data) := by
  simp only [Does, runFromString, runs_bind, runs_allocate, runs_require, runs_modify, enough]
  refine ⟨(fun here => by cases here), fun _ =>
    ⟨fun unread => ⟨trivial, ?_⟩, fun read isRead => ?_⟩⟩
  · rw [fromString, unread]
  · rw [fromString, isRead]

theorem ResponseHeader.runFromString_does (header : ResponseHeader)
    (enough : around.exhausted = none) : Does (runFromString around data) header
      (header.fromString around.nowMs data) := by
  simp only [Does, runFromString, runs_bind, runs_allocate, runs_require, runs_modify, enough]
  refine ⟨(fun here => by cases here), fun _ =>
    ⟨fun unread => ⟨trivial, ?_⟩, fun read isRead => ?_⟩⟩
  · rw [fromString, unread]
  · rw [fromString, isRead]

theorem RequestHeader.runFromJson_does (header : RequestHeader)
    (enough : around.exhausted = none) : Does (runFromJson json around value) header
      (header.fromJson json around.nowMs value) := by
  rw [Does, fromJson]
  cases read : parseJson json around.nowMs value with
  | none =>
      apply (runFromJson_none read).mono
      · exact fun _ _ never => never.elim
      · rintro _ _ ⟨rfl, rfl⟩
        exact ⟨rfl, rfl⟩
  | some other =>
      apply (runFromJson_some read).mono
      · rintro _ _ ⟨rfl, -⟩
        rfl
      · rintro _ _ ⟨-, ended⟩
        rcases ended.here with ⟨_, here⟩
        cases enough.symm.trans here

theorem ResponseHeader.runFromJson_does (header : ResponseHeader)
    (enough : around.exhausted = none) : Does (runFromJson json around value) header
      (header.fromJson json around.nowMs value) := by
  rw [Does, fromJson]
  cases read : parseJson json around.nowMs value with
  | none =>
      apply (runFromJson_none read).mono
      · exact fun _ _ never => never.elim
      · rintro _ _ ⟨rfl, rfl⟩
        exact ⟨rfl, rfl⟩
  | some other =>
      apply (runFromJson_some read).mono
      · rintro _ _ ⟨rfl, -⟩
        rfl
      · rintro _ _ ⟨-, ended⟩
        rcases ended.here with ⟨_, here⟩
        cases enough.symm.trans here

end Enough

end Wan.Network
