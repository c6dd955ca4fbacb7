import Wan.Library.Failure
import Wan.Library.Text
import Wan.Network.Crypt.Crc32

/-!
# `ProtocolHeader` of `Agreement/Assist.hpp`

The fields that requests and responses share, their setters and checksums.  The header
entries are kept in the order of their keys, which is the order in which the source
writes them; nothing in the source depends on the order inside its hash map.
-/

namespace Wan.Network

open Wan.Library

/-- `ProtocolType`. -/
inductive ProtocolType where
  | jsonRpc
  | webSocket
  | customTcp
  | binaryStream
  | userDefined
  deriving DecidableEq, Repr

/-- `ChecksumType`. -/
inductive ChecksumType where
  | crc32
  | md5
  | sha256
  | custom
  deriving DecidableEq, Repr

/-- The number of a protocol type. -/
def ProtocolType.value : ProtocolType → Nat
  | .jsonRpc => 0
  | .webSocket => 1
  | .customTcp => 2
  | .binaryStream => 3
  | .userDefined => 4

/-- The protocol type of a number. -/
def ProtocolType.ofValue : Nat → Option ProtocolType
  | 0 => some .jsonRpc
  | 1 => some .webSocket
  | 2 => some .customTcp
  | 3 => some .binaryStream
  | 4 => some .userDefined
  | _ => none

/-- The number of a checksum type. -/
def ChecksumType.value : ChecksumType → Nat
  | .crc32 => 0
  | .md5 => 1
  | .sha256 => 2
  | .custom => 3

/-- The checksum type of a number. -/
def ChecksumType.ofValue : Nat → Option ChecksumType
  | 0 => some .crc32
  | 1 => some .md5
  | 2 => some .sha256
  | 3 => some .custom
  | _ => none

@[simp] theorem ProtocolType.ofValue_value (type : ProtocolType) :
    ProtocolType.ofValue type.value = some type := by
  cases type <;> rfl

@[simp] theorem ChecksumType.ofValue_value (type : ChecksumType) :
    ChecksumType.ofValue type.value = some type := by
  cases type <;> rfl

theorem ProtocolType.value_lt (type : ProtocolType) : type.value < 2 ^ 8 := by
  cases type <;> decide

theorem ChecksumType.value_lt (type : ChecksumType) : type.value < 2 ^ 8 := by
  cases type <;> decide

/-- The header entries. -/
abbrev HeaderMap := OrderedMap (Prod.fst : Bytes × Bytes → Bytes) Bytes.before

/-- `std::invalid_argument`. -/
structure InvalidArgument where
  what : String
  deriving DecidableEq, Repr

/-- The digests of Crypto++, as hexadecimal texts. -/
structure Digests where
  md5 : Bytes → Bytes
  sha256 : Bytes → Bytes

/-- `ProtocolHeader`. -/
structure ProtocolHeader where
  version : UInt32
  checksumValue : UInt32
  contentLength : UInt64
  checksumType : ChecksumType
  headers : HeaderMap
  protocolType : ProtocolType

namespace ProtocolHeader

/-- A new header. -/
def default : ProtocolHeader := ⟨1, 0, 0, .crc32, .empty, .customTcp⟩

section Setters

/-- The keys that have fields of their own. -/
def reserved : List Bytes := [Bytes.text "User-Agent", Bytes.text "Timestamp", Bytes.text "Server"]

/-- The entries that `SetHeader` accepts. -/
def acceptable (key value : Bytes) : Bool :=
  !(key.isEmpty || key ∈ reserved || Bytes.hasAny (Bytes.text ":\r\n") key ||
    Bytes.hasAny (Bytes.text "\r\n") value)

/-- The public setters with their arguments. The checksum type is given by its number. -/
inductive Setter where
  | protocolType (type : ProtocolType)
  | checksumType (value : UInt8)
  | checksumValue (value : UInt32)
  | contentLength (length : UInt64)
  | version (value : UInt32)
  | clearHeaders
  | removeHeader (key : Bytes)
  | header (key value : Bytes)

/-- A call of a setter. -/
def set (header : ProtocolHeader) : Setter → Except InvalidArgument ProtocolHeader
  | .protocolType type => .ok { header with protocolType := type }
  | .checksumType value =>
      match ChecksumType.ofValue value.toNat with
      | none => .error ⟨"invalid checksum type"⟩
      | some type => .ok { header with checksumType := type }
  | .checksumValue value => .ok { header with checksumValue := value }
  | .contentLength length => .ok { header with contentLength := length }
  | .version value => .ok { header with version := value }
  | .clearHeaders => .ok { header with headers := .empty }
  | .removeHeader key => .ok { header with headers := header.headers.erase key }
  | .header key value =>
      if acceptable key value then
        .ok { header with headers := header.headers.assign (key, value) }
      else
        .error ⟨"invalid protocol header"⟩

/-- All entries are such as `SetHeader` accepts. -/
def Accepted (headers : HeaderMap) : Prop :=
  ∀ entry ∈ headers.toList, acceptable entry.1 entry.2 = true

variable {header header' : ProtocolHeader} {setter : Setter} {key value : Bytes}

theorem acceptable_iff : acceptable key value = true ↔
    key ≠ [] ∧ key ∉ reserved ∧ Bytes.hasAny (Bytes.text ":\r\n") key = false ∧
      Bytes.hasAny (Bytes.text "\r\n") value = false := by
  rw [acceptable]
  simp [and_assoc]

theorem accepted_empty : Accepted .empty := fun _ member => by cases member

/-- The setters keep what `SetHeader` accepts. -/
theorem Accepted.set (accepted : Accepted header.headers) (done : header.set setter = .ok header') :
    Accepted header'.headers := by
  cases setter with
  | protocolType | checksumValue | contentLength | version =>
      cases done
      exact accepted
  | checksumType value =>
      rw [ProtocolHeader.set] at done
      split at done
      · cases done
      · cases done
        exact accepted
  | clearHeaders =>
      cases done
      exact accepted_empty
  | removeHeader key =>
      cases done
      intro entry member
      exact accepted entry (List.mem_filter.mp member).1
  | header key value =>
      rw [ProtocolHeader.set] at done
      split at done
      next valid =>
        cases done
        intro entry member
        rcases OrderedMap.mem_assign.mp member with rfl | ⟨old, _⟩
        · exact valid
        · exact accepted entry old
      · cases done

end Setters

section Checksum

/-- The value of a hexadecimal digit. -/
def hexDigit (byte : UInt8) : Option Nat :=
  if Bytes.isDigit byte then some (byte - 48).toNat
  else if Bytes.char 'a' ≤ byte ∧ byte ≤ Bytes.char 'f' then some (byte - 87).toNat
  else if Bytes.char 'A' ≤ byte ∧ byte ≤ Bytes.char 'F' then some (byte - 55).toNat
  else none

/-- `std::from_chars` with base 16 on the first eight characters. -/
def hexPrefix (text : Bytes) : UInt32 :=
  (((text.take 8).map hexDigit).takeWhile Option.isSome).foldl
    (fun value digit => value * 16 + (digit.getD 0).toUInt32) 0

/-- `CalculateCheckCode`. -/
def calculateCheckCode (digests : Digests) (type : ChecksumType) (data : Bytes) : UInt32 :=
  match type with
  | .crc32 => (crc32 data data.length).toOption.getD 0
  | .md5 => hexPrefix (digests.md5 data)
  | .sha256 => hexPrefix (digests.sha256 data)
  | .custom => 0

/-- `CalculateAndSetChecksum`. -/
def calculateAndSetChecksum (digests : Digests) (header : ProtocolHeader) (content : Bytes) :
    ProtocolHeader :=
  { header with
    contentLength := content.length.toUInt64
    checksumValue := calculateCheckCode digests header.checksumType content }

/-- `VerifyIntegrity`. -/
def verifyIntegrity (digests : Digests) (header : ProtocolHeader) (content : Bytes) : Bool :=
  content.length.toUInt64 = header.contentLength &&
    calculateCheckCode digests header.checksumType content = header.checksumValue

end Checksum

section Texts

/-- The part of a header text that `SerializeHeadersToString` writes. -/
def serializeHeaders (headers : HeaderMap) : Bytes :=
  headers.toList.flatMap fun entry => entry.1 ++ Bytes.text ": " ++ entry.2 ++ Bytes.crlf

/-- `SafeParse` for unsigned numbers of a width. -/
def safeParse (width : Nat) (text : Bytes) : Option Nat :=
  if text = [] ∨ 20 < text.length then none else Bytes.parseUnsigned (2 ^ width) text

/-- `SafeParse` for signed numbers of 64 bits. -/
def safeParseSigned (text : Bytes) : Option Int :=
  if text = [] ∨ 20 < text.length then none
  else if text.head? = some (Bytes.char '-') then
    (Bytes.parseUnsigned (2 ^ 63 + 1) text.tail).map fun value => -(value : Int)
  else
    (Bytes.parseUnsigned (2 ^ 63) text).map fun value => (value : Int)

/-- `SafeTrim`. -/
def safeTrim (text : Bytes) : Option Bytes :=
  if 8192 < text.length then none else some (Bytes.trim (Bytes.text " \t") text)

/-- What the loop over the header lines has read: the entries, the value of the special
header, and the timestamp in milliseconds. -/
structure Lines where
  headers : HeaderMap
  special : Option Bytes
  timestamp : Option Int
  sawTerminator : Bool

/-- The state before the first header line. -/
def Lines.start : Lines := ⟨.empty, none, none, false⟩

/-- The body of the loop behind the search for the colon. -/
def parseEntry (special : Bytes) (nowMs : Int) (key value : Bytes) (lines : Lines) :
    Option Lines :=
  if key = [] ∨ 256 < key.length ∨ 8192 < value.length ∨ Bytes.hasAny (Bytes.text "\r\n:") key ∨
      Bytes.hasAny (Bytes.text "\r\n") value then
    none
  else if key = special then
    if lines.special.isSome ∨ 512 < value.length then none
    else some { lines with special := some value }
  else if key = Bytes.text "Timestamp" then
    if lines.timestamp.isSome then none
    else match safeParseSigned value with
      | none => none
      | some timestamp =>
          if timestamp < 0 ∨ nowMs + 86400000 < timestamp then none
          else some { lines with timestamp := some timestamp }
  else if 90 ≤ lines.headers.size then none
  else some { lines with headers := lines.headers.assign (key, value) }

/-- The body of the loop for a line that is not empty. -/
def parseLine (special : Bytes) (nowMs : Int) (line : Bytes) (lines : Lines) : Option Lines :=
  let colon := (line.takeWhile (· ≠ Bytes.char ':')).length
  if colon = line.length ∨ colon = 0 ∨ line.length - 1 ≤ colon then
    none
  else
    match safeTrim (line.take colon), safeTrim (line.drop (colon + 1)) with
    | some key, some value => parseEntry special nowMs key value lines
    | _, _ => none

/-- The loop over the header lines, for at most so many lines. It yields what it has not
read. -/
def parseLines (special : Bytes) (nowMs : Int) : Nat → Bytes → Lines → Option (Bytes × Lines)
  | 0, data, lines => some (data, lines)
  | count + 1, data, lines =>
      if data = [] then some (data, lines)
      else match Bytes.cutAt Bytes.crlf data with
        | none => none
        | some (line, rest) =>
            if 8192 < line.length then none
            else if line = [] then some (rest, { lines with sawTerminator := true })
            else match parseLine special nowMs line lines with
              | none => none
              | some lines => parseLines special nowMs count rest lines

/-- The parts of the first line. -/
def partsOf (line : Bytes) : List Bytes := (Bytes.words (Bytes.char ' ') line).take 10

/-- `MaxProtocolMessageSize`. -/
def maxProtocolMessageSize : Nat := 1024 * 1024

/-- What both `FromString` functions do around their first lines. -/
def parseText {Start : Type} (startLine : List Bytes → Option Start) (special : Bytes)
    (nowMs : Int) (data : Bytes) : Option (Start × Lines) :=
  if data = [] ∨ data.length < 10 ∨ maxProtocolMessageSize < data.length then none
  else match Bytes.cutAt Bytes.crlf data with
    | none => none
    | some (line, rest) =>
        if data.length - 1 ≤ line.length then none
        else match startLine (partsOf line) with
          | none => none
          | some start =>
              match parseLines special nowMs 100 rest .start with
              | none => none
              | some (unread, lines) =>
                  if lines.sawTerminator ∧ lines.timestamp.isSome ∧ unread = [] then
                    some (start, lines)
                  else none

end Texts

end ProtocolHeader

end Wan.Network
