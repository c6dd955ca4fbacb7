import Wan.Network.Agreement.Request

/-!
# `ResponseHeader` of `Agreement/Protocol.hpp`
-/

namespace Wan.Network

open Wan.Library

/-- `ResponseHeader`. -/
structure ResponseHeader extends ProtocolHeader where
  server : Bytes
  statusCode : UInt16
  statusMessage : Bytes
  timestamp : TimePoint

namespace ResponseHeader

/-- A new header. -/
def default (now : TimePoint) : ResponseHeader := { ProtocolHeader.default with
  server := []
  statusCode := 200
  statusMessage := Bytes.text "OK"
  timestamp := now }

section Setters

/-- The status codes that `SetStatusCode` accepts. -/
def validStatusCode (code : Nat) : Bool := !(code < 100 || 599 < code)

/-- The messages that `SetStatusMessage` accepts. -/
def validStatusMessage (message : Bytes) : Bool :=
  !(message.isEmpty || 256 < message.length || Bytes.hasAny (Bytes.text "\r\n") message)

/-- The values that `SetServer` accepts. -/
def validServer (server : Bytes) : Bool :=
  !(512 < server.length || Bytes.hasAny (Bytes.text "\r\n") server)

/-- The public setters with their arguments. -/
inductive Setter where
  | common (setter : ProtocolHeader.Setter)
  | statusCode (value : UInt16)
  | statusMessage (value : Bytes)
  | server (value : Bytes)
  | timestamp (value : TimePoint)

/-- A call of a setter. -/
def set (header : ResponseHeader) : Setter → Except InvalidArgument ResponseHeader
  | .common setter => do
      return { header with toProtocolHeader := ← header.toProtocolHeader.set setter }
  | .statusCode value =>
      if validStatusCode value.toNat then .ok { header with statusCode := value }
      else .error ⟨"invalid status code"⟩
  | .statusMessage value =>
      if validStatusMessage value then .ok { header with statusMessage := value }
      else .error ⟨"invalid status message"⟩
  | .server value =>
      if validServer value then .ok { header with server := value }
      else .error ⟨"invalid server value"⟩
  | .timestamp value => .ok { header with timestamp := value }

/-- What a successful setter changes. -/
inductive Changed (header : ResponseHeader) : ResponseHeader → Prop where
  | common {setter : ProtocolHeader.Setter} {common : ProtocolHeader}
      (done : header.toProtocolHeader.set setter = .ok common) :
      Changed header { header with toProtocolHeader := common }
  | statusCode {value} (valid : validStatusCode value.toNat = true) :
      Changed header { header with statusCode := value }
  | statusMessage {value} (valid : validStatusMessage value = true) :
      Changed header { header with statusMessage := value }
  | server {value} (valid : validServer value = true) :
      Changed header { header with server := value }
  | timestamp {value} : Changed header { header with timestamp := value }

variable {header header' : ResponseHeader} {setter : Setter} {value : Bytes}

theorem validStatusCode_iff {code : Nat} :
    validStatusCode code = true ↔ 100 ≤ code ∧ code ≤ 599 := by
  rw [validStatusCode]
  simp

theorem validStatusMessage_iff : validStatusMessage value = true ↔
    value ≠ [] ∧ value.length ≤ 256 ∧ Bytes.hasAny (Bytes.text "\r\n") value = false := by
  rw [validStatusMessage]
  simp [and_assoc]

theorem validServer_iff : validServer value = true ↔
    value.length ≤ 512 ∧ Bytes.hasAny (Bytes.text "\r\n") value = false := by
  rw [validServer]
  simp

theorem set_cases (done : header.set setter = .ok header') : Changed header header' := by
  cases setter with
  | common setter =>
      rw [ResponseHeader.set] at done
      cases result : header.toProtocolHeader.set setter with
      | error _ =>
          rw [result] at done
          cases done
      | ok common =>
          rw [result] at done
          cases done
          exact .common result
  | statusCode value =>
      rw [ResponseHeader.set] at done
      split at done
      next valid =>
        cases done
        exact .statusCode valid
      · cases done
  | statusMessage value =>
      rw [ResponseHeader.set] at done
      split at done
      next valid =>
        cases done
        exact .statusMessage valid
      · cases done
  | server value =>
      rw [ResponseHeader.set] at done
      split at done
      next valid =>
        cases done
        exact .server valid
      · cases done
  | timestamp value =>
      cases done
      exact .timestamp

end Setters

section Texts

/-- The first line that `ToString` writes. -/
def startLine (header : ResponseHeader) : Bytes :=
  Bytes.decimal header.version.toNat ++ Bytes.text " " ++
    Bytes.decimal header.statusCode.toNat ++ Bytes.text " " ++
    header.statusMessage ++ Bytes.text " " ++
    Bytes.decimal header.checksumType.value ++ Bytes.text " " ++
    Bytes.decimal header.checksumValue.toNat ++ Bytes.text " " ++
    Bytes.decimal header.contentLength.toNat

/-- `ToString`. -/
def toString (header : ResponseHeader) : Bytes :=
  header.startLine ++ Bytes.crlf ++
    (if header.server ≠ [] then Bytes.text "Server: " ++ header.server ++ Bytes.crlf else []) ++
    (Bytes.text "Timestamp: " ++ decimalSigned (toMilliseconds header.timestamp) ++ Bytes.crlf) ++
    ProtocolHeader.serializeHeaders header.headers ++ Bytes.crlf

/-- What `FromString` reads from the parts of the first line. -/
def parseStartLine : List Bytes → Option ResponseHeader
  | [version, statusCode, statusMessage, checksumType, checksumValue, contentLength] => do
      let version ← ProtocolHeader.safeParse 32 version
      let statusCode ← ProtocolHeader.safeParse 16 statusCode
      if statusCode < 100 ∨ 599 < statusCode ∨ statusMessage = [] ∨ 256 < statusMessage.length then
        none
      else
        let checksumType ← ProtocolHeader.safeParse 8 checksumType
        let checksumValue ← ProtocolHeader.safeParse 32 checksumValue
        let contentLength ← ProtocolHeader.safeParse 64 contentLength
        let checksumType ← ChecksumType.ofValue checksumType
        return { ResponseHeader.default 0 with
          version := version.toUInt32
          statusCode := statusCode.toUInt16
          statusMessage := statusMessage
          checksumType := checksumType
          checksumValue := checksumValue.toUInt32
          contentLength := contentLength.toUInt64 }
  | _ => none

/-- `FromString`: whether it succeeds, and the header afterwards. -/
def fromString (nowMs : Int) (header : ResponseHeader) (data : Bytes) : ResponseHeader × Bool :=
  match ProtocolHeader.parseText parseStartLine (Bytes.text "Server") nowMs data with
  | none => (header, false)
  | some (start, lines) =>
      ({ start with
          headers := lines.headers
          protocolType := header.protocolType
          server := lines.special.getD []
          timestamp := ofMilliseconds (lines.timestamp.getD 0) }, true)

end Texts

section Json

variable {Value : Type} (json : JsonLibrary Value)

/-- `ToJson`. -/
def toJson (header : ResponseHeader) : Value :=
  let object := header.toProtocolHeader.toJson json
  let object := json.set object (Bytes.text "status_code") (json.ofUnsigned header.statusCode.toNat)
  let object := json.set object (Bytes.text "status_message") (json.ofString header.statusMessage)
  let object := json.set object (Bytes.text "server") (json.ofString header.server)
  json.set object (Bytes.text "timestamp") (json.ofSigned (toMilliseconds header.timestamp))

/-- What `FromJson` reads. -/
def parseJson (nowMs : Int) (value : Value) : Option ResponseHeader := do
  let common ← ProtocolHeader.fromJson json value
  let members ← json.members value
  let code ← JsonLibrary.find members (Bytes.text "status_code")
  let statusMessage ← (JsonLibrary.find members (Bytes.text "status_message")).bind json.asString
  let server ← (JsonLibrary.find members (Bytes.text "server")).bind json.asString
  let statusCode ← if json.isNumber code then json.toUnsigned (2 ^ 16) code else none
  let timestamp ← (JsonLibrary.find members (Bytes.text "timestamp")).bind json.toSigned
  if statusCode < 100 ∨ 599 < statusCode ∨ statusMessage = [] ∨ 256 < statusMessage.length ∨
      512 < server.length ∨ timestamp < 0 ∨ nowMs + 86400000 < timestamp then
    none
  else
    return { common with
      server := server
      statusCode := statusCode.toUInt16
      statusMessage := statusMessage
      timestamp := ofMilliseconds timestamp }

/-- `FromJson`: whether it succeeds, and the header afterwards. -/
def fromJson (nowMs : Int) (header : ResponseHeader) (value : Value) : ResponseHeader × Bool :=
  match parseJson json nowMs value with
  | none => (header, false)
  | some header => (header, true)

end Json

end ResponseHeader

end Wan.Network
