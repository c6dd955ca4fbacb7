import Wan.Network.Agreement.Lines
import Wan.Network.Agreement.Request

/-!
# Header injection

The rules of the setters as a property of request headers, and what the two readers keep
of them.  `FromString` lets line breaks into the target and a `Server` entry into the
headers, `FromJson` lets line breaks into the target and the user agent; every call that
brings in none of these keeps the rules.
-/

namespace Wan.Network.RequestHeader

open Wan.Library

variable {Value : Type} (json : JsonLibrary Value)

/-- The rules of the setters. -/
structure Safe (header : RequestHeader) : Prop where
  method : header.method.length ≤ 10
  target : header.target.length ≤ 2048 ∧ Bytes.hasAny (Bytes.text "\r\n") header.target = false
  userAgent : header.userAgent.length ≤ 512 ∧
    Bytes.hasAny (Bytes.text "\r\n") header.userAgent = false
  headers : ProtocolHeader.Accepted header.headers

/-- The calls that change a header. -/
inductive Call (Value : Type) where
  | setter (setter : Setter)
  | fromString (nowMs : Int) (data : Bytes)
  | fromJson (nowMs : Int) (value : Value)

/-- A call, and whether it succeeds. -/
def apply (header : RequestHeader) : Call Value → RequestHeader × Bool
  | .setter setter =>
      match header.set setter with
      | .ok header => (header, true)
      | .error _ => (header, false)
  | .fromString nowMs data => header.fromString nowMs data
  | .fromJson nowMs value => header.fromJson json nowMs value

/-- The header after a sequence of calls. -/
def run (header : RequestHeader) (calls : List (Call Value)) : RequestHeader :=
  calls.foldl (fun header call => (header.apply json call).1) header

/-- No line break in the second part of the first line, and no header line with the name
`Server`. -/
def HarmlessText (data : Bytes) : Prop :=
  ∀ line rest, Bytes.cutAt Bytes.crlf data = some (line, rest) →
    (∀ target, (ProtocolHeader.partsOf line)[1]? = some target →
      Bytes.hasAny (Bytes.text "\r\n") target = false) ∧
    ∀ header ∈ ProtocolHeader.headerLines 100 rest,
      ProtocolHeader.lineName header ≠ Bytes.text "Server"

/-- No line break in the members `target` and `user_agent`. -/
def HarmlessValue (value : Value) : Prop :=
  ∀ members, json.members value = some members →
    ∀ key ∈ [Bytes.text "target", Bytes.text "user_agent"], ∀ text,
      (JsonLibrary.find members key).bind json.asString = some text →
        Bytes.hasAny (Bytes.text "\r\n") text = false

/-- Whether a call brings in nothing that the setters refuse. -/
def Harmless : Call Value → Prop
  | .setter _ => True
  | .fromString _ data => HarmlessText data
  | .fromJson _ value => HarmlessValue json value

variable {json} {header header' : RequestHeader} {now : TimePoint} {nowMs : Int}
  {data : Bytes} {value : Value}
  {setter : Setter}

theorem safe_default : Safe (default now) :=
  ⟨Nat.zero_le _, ⟨Nat.zero_le _, rfl⟩, ⟨Nat.zero_le _, rfl⟩, fun _ member => by cases member⟩

section Setters

theorem Safe.set (safe : Safe header) (done : header.set setter = .ok header') : Safe header' := by
  cases set_cases done with
  | common result => exact ⟨safe.method, safe.target, safe.userAgent, safe.headers.set result⟩
  | method valid =>
      exact ⟨(validMethod_iff.mp valid).2.1, safe.target, safe.userAgent, safe.headers⟩
  | target valid => exact ⟨safe.method, (validTarget_iff.mp valid).2, safe.userAgent, safe.headers⟩
  | userAgent valid => exact ⟨safe.method, safe.target, validUserAgent_iff.mp valid, safe.headers⟩
  | timestamp => exact ⟨safe.method, safe.target, safe.userAgent, safe.headers⟩

end Setters

section Texts

/-- A text that is read gives a header under the rules exactly if it is harmless. -/
theorem fromString_safe_iff (read : (header.fromString nowMs data).2 = true) :
    Safe (header.fromString nowMs data).1 ↔ HarmlessText data := by
  rw [fromString] at read ⊢
  split
  next failed =>
    rw [failed] at read
    cases read
  next start lines text =>
  rcases ProtocolHeader.parseText_cases text with ⟨line, rest, cut, readStart, readLines, _⟩
  rcases parseStartLine_cases readStart with ⟨_, isTarget, shortMethod, shortTarget⟩
  have clean := ProtocolHeader.Clean.parseLines readLines
  constructor
  · intro safe line' rest' cut'
    rw [cut] at cut'
    cases cut'
    constructor
    · intro target isTarget'
      rw [isTarget] at isTarget'
      cases isTarget'
      exact safe.target.2
    · intro text isLine named
      rcases ProtocolHeader.exists_entry_of_mem readLines isLine (by rw [named]; decide)
        (by rw [named]; decide) with ⟨entry, member, same⟩
      apply (ProtocolHeader.acceptable_iff.mp (safe.headers entry member)).2.1
      rw [same, named]
      decide
  · intro harmless
    rcases harmless line rest cut with ⟨targetFree, noServer⟩
    constructor
    · exact shortMethod
    · exact ⟨shortTarget, targetFree _ isTarget⟩
    · cases found : lines.special with
      | none => exact ⟨Nat.zero_le _, rfl⟩
      | some value =>
          rcases clean.special value found with ⟨_, short, free⟩
          exact ⟨short, free⟩
    · intro entry member
      rcases clean.entries entry member with
        ⟨_, _, nonempty, keyFree, valueFree, notAgent, notTimestamp⟩
      rcases ProtocolHeader.exists_line_of_mem readLines member with ⟨text, isLine, named⟩
      rw [ProtocolHeader.acceptable_iff]
      refine ⟨nonempty, ?_, ?_, valueFree⟩
      · have notServer := noServer text isLine
        rw [named] at notServer
        simp only [ProtocolHeader.reserved, List.mem_cons, List.not_mem_nil, or_false, not_or]
        exact ⟨notAgent, notTimestamp, notServer⟩
      · rw [ProtocolHeader.hasAny_eq_false] at keyFree ⊢
        intro byte inside among
        exact keyFree byte inside ((by decide : (Bytes.text ":\r\n") ⊆ Bytes.text "\r\n:") among)

end Texts

section Json

/-- The loop over the members keeps what `SetHeader` accepts. -/
theorem acceptable_readHeaders {members : List (Bytes × Value)} {headers headers' : HeaderMap}
    (accepted : ProtocolHeader.Accepted headers)
    (read : ProtocolHeader.readHeaders json members headers = some headers') :
    ProtocolHeader.Accepted headers' := by
  induction members generalizing headers with
  | nil =>
      cases read
      exact accepted
  | cons member members ih =>
      rw [ProtocolHeader.readHeaders] at read
      split at read
      · split at read
        · cases read
        next text _ =>
        split at read
        next valid =>
          apply ih _ read
          intro entry inside
          rcases OrderedMap.mem_of_mem_insert inside with rfl | old
          · exact valid
          · exact accepted entry old
        · cases read
      · exact ih accepted read

/-- What an object must hold to be read. -/
theorem parseJson_cases (read : parseJson json nowMs value = some header) :
    ∃ members, json.members value = some members ∧
      (JsonLibrary.find members (Bytes.text "target")).bind json.asString = some header.target ∧
      (JsonLibrary.find members (Bytes.text "user_agent")).bind json.asString =
        some header.userAgent ∧
      header.method.length ≤ 10 ∧ header.target.length ≤ 2048 ∧ header.userAgent.length ≤ 512 ∧
      ∃ entries, ProtocolHeader.readHeaders json entries .empty = some header.headers := by
  simp only [parseJson, Option.bind_eq_bind, Option.bind_eq_some_iff] at read
  rcases read with ⟨common, readCommon, members, isObject, method, _, target, isTarget, userAgent,
    isUserAgent, timestamp, _, rest⟩
  split at rest
  · cases rest
  next short =>
  simp only [not_or, Nat.not_lt] at short
  cases rest
  refine ⟨members, isObject, Option.bind_eq_some_iff.mpr isTarget,
    Option.bind_eq_some_iff.mpr isUserAgent, short.2.1, short.2.2.2.1, short.2.2.2.2.1, ?_⟩
  simp only [ProtocolHeader.fromJson, Option.bind_eq_bind, Option.bind_eq_some_iff] at readCommon
  rcases readCommon with
    ⟨members', _, _, _, _, _, _, _, _, _, _, _, _, _, _, _, headers, readHeaders,
    equal⟩
  cases equal
  exact ⟨members', readHeaders⟩

/-- A value that is read gives a header under the rules exactly if it is harmless. -/
theorem fromJson_safe_iff (read : (header.fromJson json nowMs value).2 = true) :
    Safe (header.fromJson json nowMs value).1 ↔ HarmlessValue json value := by
  rw [fromJson] at read ⊢
  split
  next failed =>
    rw [failed] at read
    cases read
  next header' parsed =>
  rcases parseJson_cases parsed with ⟨members, isObject, isTarget, isUserAgent, shortMethod,
    shortTarget, shortUserAgent, entries, readHeaders⟩
  constructor
  · intro safe members' isObject' key isKey text found
    rw [isObject] at isObject'
    cases isObject'
    rcases List.mem_cons.mp isKey with rfl | isKey
    · rw [isTarget] at found
      cases found
      exact safe.target.2
    · rw [List.mem_singleton.mp isKey, isUserAgent] at found
      cases found
      exact safe.userAgent.2
  · intro harmless
    have free := harmless members isObject
    constructor
    · exact shortMethod
    · exact ⟨shortTarget, free _ (List.mem_cons_self ..) _ isTarget⟩
    · exact ⟨shortUserAgent,
        free _ (List.mem_cons_of_mem _ (List.mem_singleton.mpr rfl)) _ isUserAgent⟩
    · exact acceptable_readHeaders (fun _ member => by cases member) readHeaders

end Json

section Runs

/-- A harmless call keeps the rules, whether it succeeds or not. -/
theorem Safe.apply {call : Call Value} (safe : Safe header) (harmless : Harmless json call) :
    Safe (header.apply json call).1 := by
  cases call with
  | setter setter =>
      rw [RequestHeader.apply]
      split
      next done => exact safe.set done
      · exact safe
  | fromString nowMs data =>
      cases success : (header.fromString nowMs data).2 with
      | false =>
          rw [RequestHeader.apply]
          rw [fromString] at success ⊢
          split
          · exact safe
          next read =>
            rw [read] at success
            cases success
      | true => exact (fromString_safe_iff success).mpr harmless
  | fromJson nowMs value =>
      cases success : (header.fromJson json nowMs value).2 with
      | false =>
          rw [RequestHeader.apply]
          rw [fromJson] at success ⊢
          split
          · exact safe
          next read =>
            rw [read] at success
            cases success
      | true => exact (fromJson_safe_iff success).mpr harmless

theorem Safe.run {calls : List (Call Value)} (safe : Safe header)
    (harmless : ∀ call ∈ calls, Harmless json call) : Safe (header.run json calls) := by
  induction calls generalizing header with
  | nil => exact safe
  | cons call calls ih =>
      apply ih (safe.apply (harmless call (List.mem_cons_self ..)))
      exact fun other member => harmless other (List.mem_cons_of_mem _ member)

/-- A successful call keeps the rules exactly if it is harmless. -/
theorem safe_apply_iff {call : Call Value} (safe : Safe header)
    (success : (header.apply json call).2 = true) :
    Safe (header.apply json call).1 ↔ Harmless json call := by
  cases call with
  | setter setter =>
      apply iff_of_true _ trivial
      have harmless : Harmless json (.setter setter) := trivial
      exact safe.apply harmless
  | fromString nowMs data => exact fromString_safe_iff success
  | fromJson nowMs value => exact fromJson_safe_iff success

/-- Runs of harmless calls keep the rules of the setters, and no other successful call
does. -/
theorem rules_kept (json : JsonLibrary Value) :
    (∀ now (calls : List (Call Value)), (∀ call ∈ calls, Harmless json call) →
      Safe ((default now).run json calls)) ∧
    ∀ header (call : Call Value), Safe header → (header.apply json call).2 = true →
      (Safe (header.apply json call).1 ↔ Harmless json call) :=
  ⟨fun _ _ harmless => safe_default.run harmless,
    fun _ _ safe success => safe_apply_iff safe success⟩

/-- A request line with a carriage return in its target. -/
def brokenTarget : Bytes := Bytes.text "GET /a\rb 1 0 0 0\r\nTimestamp: 0\r\n\r\n"

theorem target_brokenTarget :
    ((default 0).fromString 0 brokenTarget).1.target = Bytes.text "/a\rb" := by
  decide +kernel

theorem not_safe_brokenTarget : ¬ Safe ((default 0).fromString 0 brokenTarget).1 := by
  intro safe
  have free := safe.target.2
  rw [target_brokenTarget] at free
  revert free
  decide

theorem rules_broken : ¬ ∀ (json : JsonLibrary JsonValue) now calls,
    Safe ((default now).run json calls) :=
  fun always => not_safe_brokenTarget (always JsonValue.library 0 [.fromString 0 brokenTarget])

theorem rules_kept_example :
    Safe ((default 0).run JsonValue.library [.setter (.target (Bytes.text "/"))]) ∧
      ¬ Harmless JsonValue.library (.fromString 0 brokenTarget) := by
  constructor
  · apply (rules_kept JsonValue.library).1
    intro call member
    rw [List.mem_singleton.mp member]
    trivial
  · intro harmless
    apply not_safe_brokenTarget
    exact ((rules_kept JsonValue.library).2 (default 0) (.fromString 0 brokenTarget) safe_default
      (by decide +kernel)).mpr harmless

end Runs

end Wan.Network.RequestHeader
