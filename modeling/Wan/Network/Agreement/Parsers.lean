import Wan.Library.Program
import Wan.Network.Agreement.Message

/-!
# The parsers, statement by statement

`FromString` and `FromJson` as programs on the object that they are called on.  Copies,
strings and header entries need memory, and a call may run out of it at any place.  The
readers of JSON absorb every exception and return false.
-/

namespace Wan.Network

open Wan.Library Wan.Library.Program

/-- How a parser ends that does not return true. -/
inductive Leave where
  | returnFalse
  | thrown
  deriving DecidableEq, Repr

/-- A parser changes the object that it is called on. It returns true at its end. -/
abbrev Parser (Object : Type) := Program Object Leave

/-- The class whose function is running. -/
inductive Level where
  | header
  | message
  deriving DecidableEq, Repr

/-- The parts of a parser: it copies the object, reads the input, and assigns the copy. -/
inductive Phase where
  | copying
  | reading
  | assigning
  deriving DecidableEq, Repr

/-- A place that needs memory. -/
structure Place where
  level : Level
  phase : Phase
  deriving DecidableEq, Repr

/-- What a call meets: the clock in milliseconds, the place where it runs out of memory, and the
header entries that a copy leaves which has run out of memory. -/
structure Surroundings where
  nowMs : Int
  exhausted : Option Place
  left : HeaderMap

/-- A place of a call that needs memory. -/
def allocate {Object : Type} (around : Surroundings) (level : Level) (phase : Phase) :
    Parser Object Unit :=
  refuse (around.exhausted = some ⟨level, phase⟩) .thrown

/-- `catch (...)`. -/
def absorb {Object : Type} (body : Parser Object Unit) : Parser Object Unit :=
  tryCatch body fun _ => throw .returnFalse

variable {Value : Type} (json : JsonLibrary Value)

namespace ProtocolHeader

/-- `FromJson`, which writes its fields when all of them are read. -/
def runFromJson (around : Surroundings) (value : Value) : Parser ProtocolHeader Unit := absorb do
  allocate around .header .reading
  let parsed ← require .returnFalse (fromJson json value)
  modify fun header => { header with version := parsed.version }
  modify fun header => { header with contentLength := parsed.contentLength }
  modify fun header => { header with checksumValue := parsed.checksumValue }
  modify fun header => { header with protocolType := parsed.protocolType }
  modify fun header => { header with checksumType := parsed.checksumType }
  modify fun header => { header with headers := parsed.headers }

/-- The assignment of a header. The class declares its destructor and so has no move assignment,
and even a moved header has its entries copied. -/
def assign (around : Surroundings) (level : Level) (other : ProtocolHeader) :
    Parser ProtocolHeader Unit := do
  modify fun header => { header with version := other.version }
  modify fun header => { header with checksumValue := other.checksumValue }
  modify fun header => { header with contentLength := other.contentLength }
  modify fun header => { header with checksumType := other.checksumType }
  if around.exhausted = some ⟨level, .assigning⟩ then
    modify fun header => { header with headers := around.left }
    throw .thrown
  else
    modify fun header => { header with headers := other.headers }
    modify fun header => { header with protocolType := other.protocolType }

end ProtocolHeader

namespace RequestHeader

/-- `FromString`, which reads into temporaries and then writes all fields but the protocol
type. -/
def runFromString (around : Surroundings) (data : Bytes) : Parser RequestHeader Unit := do
  allocate around .header .reading
  let (start, lines) ← require .returnFalse
    (ProtocolHeader.parseText parseStartLine (Bytes.text "User-Agent") around.nowMs data)
  modify fun header => { header with headers := lines.headers }
  modify fun header => { header with method := start.method }
  modify fun header => { header with target := start.target }
  modify fun header => { header with userAgent := lines.special.getD [] }
  modify fun header => { header with version := start.version }
  modify fun header => { header with checksumValue := start.checksumValue }
  modify fun header => { header with contentLength := start.contentLength }
  modify fun header => { header with checksumType := start.checksumType }
  modify fun header => { header with timestamp := ofMilliseconds (lines.timestamp.getD 0) }

/-- The assignment of a header, the base class first. -/
def assign (around : Surroundings) (level : Level) (other : RequestHeader) :
    Parser RequestHeader Unit := do
  onPart RequestHeader.toProtocolHeader
    (fun header common => { header with toProtocolHeader := common })
    (other.toProtocolHeader.assign around level)
  modify fun header => { header with method := other.method }
  modify fun header => { header with target := other.target }
  modify fun header => { header with userAgent := other.userAgent }
  modify fun header => { header with timestamp := other.timestamp }

/-- `FromJson`. The base class and the checks work on a copy, which is assigned at the end. -/
def runFromJson (around : Surroundings) (value : Value) : Parser RequestHeader Unit := absorb do
  allocate around .header .copying
  let candidate ← get
  let common ← onLocal (ProtocolHeader.runFromJson json around value) candidate.toProtocolHeader
  let candidate := { candidate with toProtocolHeader := common }
  let members ← require .returnFalse (json.members value)
  let method ← require .returnFalse
    ((JsonLibrary.find members (Bytes.text "method")).bind json.asString)
  let target ← require .returnFalse
    ((JsonLibrary.find members (Bytes.text "target")).bind json.asString)
  let userAgent ← require .returnFalse
    ((JsonLibrary.find members (Bytes.text "user_agent")).bind json.asString)
  let timestamp ← require .returnFalse (JsonLibrary.find members (Bytes.text "timestamp"))
  allocate around .header .reading
  let candidate := { candidate with method := method, target := target, userAgent := userAgent }
  let timestamp ← require .thrown (json.toSigned timestamp)
  refuse (candidate.method = [] ∨ 10 < candidate.method.length ∨ candidate.target = [] ∨
    2048 < candidate.target.length ∨ 512 < candidate.userAgent.length ∨ timestamp < 0 ∨
    around.nowMs + 86400000 < timestamp) .returnFalse
  assign around .header { candidate with timestamp := ofMilliseconds timestamp }

end RequestHeader

namespace ResponseHeader

/-- `FromString`, which reads into temporaries and then writes all fields but the protocol
type. -/
def runFromString (around : Surroundings) (data : Bytes) : Parser ResponseHeader Unit := do
  allocate around .header .reading
  let (start, lines) ← require .returnFalse
    (ProtocolHeader.parseText parseStartLine (Bytes.text "Server") around.nowMs data)
  modify fun header => { header with headers := lines.headers }
  modify fun header => { header with statusMessage := start.statusMessage }
  modify fun header => { header with server := lines.special.getD [] }
  modify fun header => { header with version := start.version }
  modify fun header => { header with statusCode := start.statusCode }
  modify fun header => { header with checksumValue := start.checksumValue }
  modify fun header => { header with contentLength := start.contentLength }
  modify fun header => { header with checksumType := start.checksumType }
  modify fun header => { header with timestamp := ofMilliseconds (lines.timestamp.getD 0) }

/-- The assignment of a header, the base class first. -/
def assign (around : Surroundings) (level : Level) (other : ResponseHeader) :
    Parser ResponseHeader Unit := do
  onPart ResponseHeader.toProtocolHeader
    (fun header common => { header with toProtocolHeader := common })
    (other.toProtocolHeader.assign around level)
  modify fun header => { header with server := other.server }
  modify fun header => { header with statusCode := other.statusCode }
  modify fun header => { header with statusMessage := other.statusMessage }
  modify fun header => { header with timestamp := other.timestamp }

/-- `FromJson`. The base class and the checks work on a copy, which is assigned at the end. -/
def runFromJson (around : Surroundings) (value : Value) : Parser ResponseHeader Unit := absorb do
  allocate around .header .copying
  let candidate ← get
  let common ← onLocal (ProtocolHeader.runFromJson json around value) candidate.toProtocolHeader
  let candidate := { candidate with toProtocolHeader := common }
  let members ← require .returnFalse (json.members value)
  let statusCode ← require .returnFalse (JsonLibrary.find members (Bytes.text "status_code"))
  let statusMessage ← require .returnFalse
    ((JsonLibrary.find members (Bytes.text "status_message")).bind json.asString)
  let server ← require .returnFalse
    ((JsonLibrary.find members (Bytes.text "server")).bind json.asString)
  let timestamp ← require .returnFalse (JsonLibrary.find members (Bytes.text "timestamp"))
  refuse (json.isNumber statusCode = false) .returnFalse
  let statusCode ← require .thrown (json.toUnsigned (2 ^ 16) statusCode)
  allocate around .header .reading
  let candidate := { candidate with
    statusCode := statusCode.toUInt16, statusMessage := statusMessage, server := server }
  let timestamp ← require .thrown (json.toSigned timestamp)
  refuse (statusCode < 100 ∨ 599 < statusCode ∨ candidate.statusMessage = [] ∨
    256 < candidate.statusMessage.length ∨ 512 < candidate.server.length ∨ timestamp < 0 ∨
    around.nowMs + 86400000 < timestamp) .returnFalse
  assign around .header { candidate with timestamp := ofMilliseconds timestamp }

end ResponseHeader

/-- The parsers and the assignment of a header class. -/
class HeaderParsers (Header : Type) where
  fromString : Surroundings → Bytes → Parser Header Unit
  fromJson : {Value : Type} → JsonLibrary Value → Surroundings → Value → Parser Header Unit
  assign : Surroundings → Level → Header → Parser Header Unit

instance : HeaderParsers RequestHeader where
  fromString := RequestHeader.runFromString
  fromJson := RequestHeader.runFromJson
  assign := RequestHeader.assign

instance : HeaderParsers ResponseHeader where
  fromString := ResponseHeader.runFromString
  fromJson := ResponseHeader.runFromJson
  assign := ResponseHeader.assign

namespace Message

variable {Header : Type} [HeaderConstraint Header] [HeaderParsers Header]

/-- What both parsers do with a candidate and a body. -/
def commit (digests : Digests) (around : Surroundings) (candidate : Header) (body : Bytes) :
    Parser (Message Header) Unit := do
  allocate around .message .reading
  refuse (HeaderConstraint.verifyIntegrity digests candidate body = false) .returnFalse
  onPart Message.header (fun request header => { request with header := header })
    (HeaderParsers.assign around .message candidate)
  modify fun request => { request with message := body }
  modify invalidateCache

/-- `FromString`. -/
def runFromString (digests : Digests) (around : Surroundings) (data : Bytes) :
    Parser (Message Header) Unit := do
  let (line, body) ← require .returnFalse (Bytes.cutAt (Bytes.crlf ++ Bytes.crlf) data)
  allocate around .message .copying
  let request ← get
  let candidate ← onLocal (HeaderParsers.fromString around (data.take (line.length + 2)))
    request.header
  commit digests around candidate body

/-- `FromJson`. -/
def runFromJson (digests : Digests) (around : Surroundings) (value : Value) :
    Parser (Message Header) Unit := absorb do
  let (header, body) ← require .returnFalse (partsOfJson json value)
  allocate around .message .copying
  let request ← get
  let candidate ← onLocal (HeaderParsers.fromJson json around header) request.header
  commit digests around candidate body

end Message

end Wan.Network
