import Wan.Network.Agreement.Json

/-!
# `RequestHeader` of `Agreement/Protocol.hpp`

Points of time are counted in nanoseconds, as the system clock does.  The two readers look
at the clock once, and its reading in milliseconds is an argument here.
-/

namespace Wan.Network

open Wan.Library

/-- `std::chrono::system_clock::time_point`. -/
abbrev TimePoint := Int64

/-- `RequestHeader`. -/
structure RequestHeader extends ProtocolHeader where
  method : Bytes
  target : Bytes
  userAgent : Bytes
  timestamp : TimePoint

/-- Milliseconds of a point of time. -/
def toMilliseconds (timestamp : TimePoint) : Int := timestamp.toInt.tdiv 1000000

/-- The point of time of milliseconds. -/
def ofMilliseconds (milliseconds : Int) : TimePoint := Int64.ofInt (milliseconds * 1000000)

/-- The decimal digits of an integer. -/
def decimalSigned (number : Int) : Bytes :=
  if number < 0 then Bytes.char '-' :: Bytes.decimal number.natAbs else Bytes.decimal number.natAbs

namespace RequestHeader

/-- A new header. -/
def default (now : TimePoint) : RequestHeader := { ProtocolHeader.default with
  method := []
  target := []
  userAgent := []
  timestamp := now }

section Setters

/-- The methods that `SetMethod` accepts. -/
def validMethod (method : Bytes) : Bool :=
  !(method.isEmpty || 10 < method.length || Bytes.hasAny (Bytes.text " \t\r\n") method)

/-- The targets that `SetTarget` accepts. -/
def validTarget (target : Bytes) : Bool :=
  !(target.isEmpty || 2048 < target.length || Bytes.hasAny (Bytes.text "\r\n") target)

/-- The values that `SetUserAgent` accepts. -/
def validUserAgent (userAgent : Bytes) : Bool :=
  !(512 < userAgent.length || Bytes.hasAny (Bytes.text "\r\n") userAgent)

/-- The public setters with their arguments. -/
inductive Setter where
  | common (setter : ProtocolHeader.Setter)
  | method (value : Bytes)
  | target (value : Bytes)
  | userAgent (value : Bytes)
  | timestamp (value : TimePoint)

/-- A call of a setter. -/
def set (header : RequestHeader) : Setter → Except InvalidArgument RequestHeader
  | .common setter => do
      return { header with toProtocolHeader := ← header.toProtocolHeader.set setter }
  | .method value =>
      if validMethod value then .ok { header with method := value }
      else .error ⟨"invalid protocol method"⟩
  | .target value =>
      if validTarget value then .ok { header with target := value }
      else .error ⟨"invalid protocol target"⟩
  | .userAgent value =>
      if validUserAgent value then .ok { header with userAgent := value }
      else .error ⟨"invalid user agent"⟩
  | .timestamp value => .ok { header with timestamp := value }

/-- What a successful setter changes. -/
inductive Changed (header : RequestHeader) : RequestHeader → Prop where
  | common {setter : ProtocolHeader.Setter} {common : ProtocolHeader}
      (done : header.toProtocolHeader.set setter = .ok common) :
      Changed header { header with toProtocolHeader := common }
  | method {value} (valid : validMethod value = true) :
      Changed header { header with method := value }
  | target {value} (valid : validTarget value = true) :
      Changed header { header with target := value }
  | userAgent {value} (valid : validUserAgent value = true) :
      Changed header { header with userAgent := value }
  | timestamp {value} : Changed header { header with timestamp := value }

variable {header header' : RequestHeader} {setter : Setter} {value : Bytes}

theorem validMethod_iff : validMethod value = true ↔
    value ≠ [] ∧ value.length ≤ 10 ∧ Bytes.hasAny (Bytes.text " \t\r\n") value = false := by
  rw [validMethod]
  simp [and_assoc]

theorem validTarget_iff : validTarget value = true ↔
    value ≠ [] ∧ value.length ≤ 2048 ∧ Bytes.hasAny (Bytes.text "\r\n") value = false := by
  rw [validTarget]
  simp [and_assoc]

theorem validUserAgent_iff : validUserAgent value = true ↔
    value.length ≤ 512 ∧ Bytes.hasAny (Bytes.text "\r\n") value = false := by
  rw [validUserAgent]
  simp

theorem set_cases (done : header.set setter = .ok header') : Changed header header' := by
  cases setter with
  | common setter =>
      rw [RequestHeader.set] at done
      cases result : header.toProtocolHeader.set setter with
      | error _ =>
          rw [result] at done
          cases done
      | ok common =>
          rw [result] at done
          cases done
          exact .common result
  | method value =>
      rw [RequestHeader.set] at done
      split at done
      next valid =>
        cases done
        exact .method valid
      · cases done
  | target value =>
      rw [RequestHeader.set] at done
      split at done
      next valid =>
        cases done
        exact .target valid
      · cases done
  | userAgent value =>
      rw [RequestHeader.set] at done
      split at done
      next valid =>
        cases done
        exact .userAgent valid
      · cases done
  | timestamp value =>
      cases done
      exact .timestamp

end Setters

section Texts

/-- The first line that `ToString` writes. -/
def startLine (header : RequestHeader) : Bytes :=
  header.method ++ Bytes.text " " ++ header.target ++ Bytes.text " " ++
    Bytes.decimal header.version.toNat ++ Bytes.text " " ++
    Bytes.decimal header.checksumType.value ++ Bytes.text " " ++
    Bytes.decimal header.checksumValue.toNat ++ Bytes.text " " ++
    Bytes.decimal header.contentLength.toNat

/-- `ToString`. -/
def toString (header : RequestHeader) : Bytes :=
  header.startLine ++ Bytes.crlf ++
    (if header.userAgent ≠ [] then Bytes.text "User-Agent: " ++ header.userAgent ++ Bytes.crlf
      else []) ++
    (Bytes.text "Timestamp: " ++ decimalSigned (toMilliseconds header.timestamp) ++ Bytes.crlf) ++
    ProtocolHeader.serializeHeaders header.headers ++ Bytes.crlf

/-- What `FromString` reads from the parts of the first line. -/
def parseStartLine : List Bytes → Option RequestHeader
  | [method, target, version, checksumType, checksumValue, contentLength] =>
      if method = [] ∨ 10 < method.length ∨ target = [] ∨ 2048 < target.length then none
      else do
        let version ← ProtocolHeader.safeParse 32 version
        let checksumType ← ProtocolHeader.safeParse 8 checksumType
        let checksumValue ← ProtocolHeader.safeParse 32 checksumValue
        let contentLength ← ProtocolHeader.safeParse 64 contentLength
        let checksumType ← ChecksumType.ofValue checksumType
        return { RequestHeader.default 0 with
          method := method
          target := target
          version := version.toUInt32
          checksumType := checksumType
          checksumValue := checksumValue.toUInt32
          contentLength := contentLength.toUInt64 }
  | _ => none

/-- `FromString`: whether it succeeds, and the header afterwards. -/
def fromString (nowMs : Int) (header : RequestHeader) (data : Bytes) : RequestHeader × Bool :=
  match ProtocolHeader.parseText parseStartLine (Bytes.text "User-Agent") nowMs data with
  | none => (header, false)
  | some (start, lines) =>
      ({ start with
          headers := lines.headers
          protocolType := header.protocolType
          userAgent := lines.special.getD []
          timestamp := ofMilliseconds (lines.timestamp.getD 0) }, true)

/-- What the first line must be to be read. -/
theorem parseStartLine_cases {parts : List Bytes} {start : RequestHeader}
    (read : parseStartLine parts = some start) :
    parts[0]? = some start.method ∧ parts[1]? = some start.target ∧
      start.method.length ≤ 10 ∧ start.target.length ≤ 2048 := by
  unfold parseStartLine at read
  split at read
  next method target version checksumType checksumValue contentLength =>
    split at read
    · cases read
    next short =>
    simp only [not_or, Nat.not_lt] at short
    simp only [Option.bind_eq_bind, Option.bind_eq_some_iff] at read
    rcases read with ⟨_, _, _, _, _, _, _, _, _, _, equal⟩
    cases equal
    exact ⟨rfl, rfl, short.2.1, short.2.2.2⟩
  · cases read

end Texts

section Json

variable {Value : Type} (json : JsonLibrary Value)

/-- `ToJson`. -/
def toJson (header : RequestHeader) : Value :=
  let object := header.toProtocolHeader.toJson json
  let object := json.set object (Bytes.text "method") (json.ofString header.method)
  let object := json.set object (Bytes.text "target") (json.ofString header.target)
  let object := json.set object (Bytes.text "user_agent") (json.ofString header.userAgent)
  json.set object (Bytes.text "timestamp") (json.ofSigned (toMilliseconds header.timestamp))

/-- What `FromJson` reads. -/
def parseJson (nowMs : Int) (value : Value) : Option RequestHeader := do
  let common ← ProtocolHeader.fromJson json value
  let members ← json.members value
  let method ← (JsonLibrary.find members (Bytes.text "method")).bind json.asString
  let target ← (JsonLibrary.find members (Bytes.text "target")).bind json.asString
  let userAgent ← (JsonLibrary.find members (Bytes.text "user_agent")).bind json.asString
  let timestamp ← (JsonLibrary.find members (Bytes.text "timestamp")).bind json.toSigned
  if method = [] ∨ 10 < method.length ∨ target = [] ∨ 2048 < target.length ∨
      512 < userAgent.length ∨ timestamp < 0 ∨ nowMs + 86400000 < timestamp then
    none
  else
    return { common with
      method := method
      target := target
      userAgent := userAgent
      timestamp := ofMilliseconds timestamp }

/-- `FromJson`: whether it succeeds, and the header afterwards. -/
def fromJson (nowMs : Int) (header : RequestHeader) (value : Value) : RequestHeader × Bool :=
  match parseJson json nowMs value with
  | none => (header, false)
  | some header => (header, true)

end Json

end RequestHeader

end Wan.Network
