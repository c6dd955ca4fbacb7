import Wan.Network.Agreement.Response

/-!
# `Request` and `Response` of `Agreement/Protocol.hpp`

The two templates differ in the shortcuts for responses only and are one structure here.
Reading the clock and making a new header take the time as an argument.
-/

namespace Wan.Network

open Wan.Library

/-- `HeaderConstraint`, with what the operations do to the header. -/
class HeaderConstraint (Header : Type) where
  toString : Header → Bytes
  fromString : Int → Header → Bytes → Header × Bool
  toJson : {Value : Type} → JsonLibrary Value → Header → Value
  fromJson : {Value : Type} → JsonLibrary Value → Int → Header → Value → Header × Bool
  verifyIntegrity : Digests → Header → Bytes → Bool
  calculateAndSetChecksum : Digests → Header → Bytes → Header

instance : HeaderConstraint RequestHeader where
  toString := RequestHeader.toString
  fromString := RequestHeader.fromString
  toJson := RequestHeader.toJson
  fromJson := RequestHeader.fromJson
  verifyIntegrity digests header := header.toProtocolHeader.verifyIntegrity digests
  calculateAndSetChecksum digests header content := { header with
    toProtocolHeader := header.toProtocolHeader.calculateAndSetChecksum digests content }

instance : HeaderConstraint ResponseHeader where
  toString := ResponseHeader.toString
  fromString := ResponseHeader.fromString
  toJson := ResponseHeader.toJson
  fromJson := ResponseHeader.fromJson
  verifyIntegrity digests header := header.toProtocolHeader.verifyIntegrity digests
  calculateAndSetChecksum digests header content := { header with
    toProtocolHeader := header.toProtocolHeader.calculateAndSetChecksum digests content }

/-- `Request` and `Response`. -/
structure Message (Header : Type) where
  header : Header
  message : Bytes
  cachedFull : Bytes
  fullCacheValid : Bool

namespace Message

variable {Header Value : Type} [HeaderConstraint Header]

/-- The constructors from a header and a body. -/
def new (header : Header) (body : Bytes) : Message Header := ⟨header, body, [], false⟩

/-- `InvalidateCache`. -/
def invalidateCache (request : Message Header) : Message Header :=
  { request with fullCacheValid := false }

/-- `ToString`: the object afterwards, which holds the text. -/
def toString (digests : Digests) (request : Message Header) : Message Header :=
  if request.fullCacheValid then request
  else
    let header := HeaderConstraint.calculateAndSetChecksum digests request.header request.message
    { request with
      header := header
      cachedFull := HeaderConstraint.toString header ++ request.message
      fullCacheValid := true }

/-- `FromString`: the object afterwards, and whether it succeeds. -/
def fromString (digests : Digests) (nowMs : Int) (request : Message Header) (data : Bytes) :
    Message Header × Bool :=
  match Bytes.cutAt (Bytes.crlf ++ Bytes.crlf) data with
  | none => (request, false)
  | some (line, body) =>
      let candidate := HeaderConstraint.fromString nowMs request.header
        (data.take (line.length + 2))
      if candidate.2 && HeaderConstraint.verifyIntegrity digests candidate.1 body then
        ({ request with header := candidate.1, message := body }.invalidateCache, true)
      else
        (request, false)

/-- `ToJson`: the object afterwards, and the value. -/
def toJson (digests : Digests) (json : JsonLibrary Value) (request : Message Header) :
    Message Header × Value :=
  let header := HeaderConstraint.calculateAndSetChecksum digests request.header request.message
  let object := json.set json.emptyObject (Bytes.text "header")
    (HeaderConstraint.toJson json header)
  let object := json.set object (Bytes.text "body") (json.ofString request.message)
  ({ request with header := header }, object)

/-- What `FromJson` finds in a value: the header and the body. -/
def partsOfJson (json : JsonLibrary Value) (value : Value) : Option (Value × Bytes) := do
  let members ← json.members value
  let header ← JsonLibrary.find members (Bytes.text "header")
  let body ← (JsonLibrary.find members (Bytes.text "body")).bind json.asString
  return (header, body)

/-- `FromJson`: the object afterwards, and whether it succeeds. -/
def fromJson (digests : Digests) (json : JsonLibrary Value) (nowMs : Int) (request : Message Header)
    (value : Value) : Message Header × Bool :=
  match partsOfJson json value with
  | none => (request, false)
  | some (header, body) =>
      let candidate := HeaderConstraint.fromJson json nowMs request.header header
      if candidate.2 && HeaderConstraint.verifyIntegrity digests candidate.1 body then
        ({ request with header := candidate.1, message := body }.invalidateCache, true)
      else
        (request, false)

section Factories

/-- The constructor from a status and a body. -/
def ofStatus (now : TimePoint) (statusCode : UInt16) (statusMessage body : Bytes) :
    Except InvalidArgument (Message ResponseHeader) := do
  let header ← (ResponseHeader.default now).set (.statusCode statusCode)
  let header ← header.set (.statusMessage statusMessage)
  return .new header body

/-- `CreateSuccess`. -/
def createSuccess (now : TimePoint) (body server : Bytes) :
    Except InvalidArgument (Message ResponseHeader) := do
  let response ← ofStatus now 200 (Bytes.text "OK") body
  if server ≠ [] then
    let header ← response.header.set (.server server)
    return { response with header := header }
  else
    return response

/-- `CreateError`. -/
def createError (now : TimePoint) (code : UInt16) (message body : Bytes) :
    Except InvalidArgument (Message ResponseHeader) := ofStatus now code message body

/-- `CreateNotFound`. -/
def createNotFound (now : TimePoint) (body : Bytes) :
    Except InvalidArgument (Message ResponseHeader) :=
  ofStatus now 404 (Bytes.text "not found") body

/-- `CreateInternalError`. -/
def createInternalError (now : TimePoint) (body : Bytes) :
    Except InvalidArgument (Message ResponseHeader) :=
  ofStatus now 500 (Bytes.text "internal server error") body

end Factories

end Message

end Wan.Network
