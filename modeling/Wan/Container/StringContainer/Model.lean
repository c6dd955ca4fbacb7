import Wan.Library.Buffers

/-!
# The character strings of `Container/String.hpp`

`String` as programs over buffers.  A buffer from `make_unique` is filled with zeros, one from
`new char[]` holds nothing that may be read.  What a method prints to `std::cerr` before an
exception goes on is left out, and so is the line number of the exception.
-/

namespace Wan.Container.StringContainer

open Wan.Library Wan.Library.LinkedList

/-- A `char`, by its byte. -/
abbrev Character := UInt8

/-- The members of a `String`; a moved-from string has no buffer. -/
structure Str where
  memberData : Option Addr
  memberSize : Nat
  memberCapacity : Nat
  deriving DecidableEq, Repr

/-- What a call throws. -/
inductive Failure where
  /-- `std::length_error`. -/
  | lengthError (what : String)
  /-- `CustomException::Fault`. -/
  | fault (message functionName : String)
  /-- `std::bad_alloc`. -/
  | badAlloc
  deriving DecidableEq, Repr

/-- A member function. -/
abbrev Method (α : Type) := Program (Buffers Character) Failure α

/-- `MaximumSize`. -/
def maximumSize : Nat := 2 ^ 64 - 2

/-- Characters outside of all strings; an array of them with its terminator has an address. -/
structure Literal where
  characters : List Character
  fits : characters.length ≤ maximumSize
  deriving DecidableEq, Repr

/-- A `const char *`: null, a C string outside of all strings, or a character of a buffer. -/
inductive Text where
  | null
  | literal (literal : Literal)
  | inside (block : Addr) (offset : Nat)
  deriving DecidableEq, Repr

/-- A `const char &`: a character outside of all strings, or one of a buffer. -/
inductive Reference where
  | outside (value : Character)
  | element (block : Addr) (index : Nat)
  deriving DecidableEq, Repr

/-- `CheckedLengthAdd`. -/
def checkedLengthAdd (left right : Nat) : Method Nat := do
  Program.refuse (right > (maximumSize + 2 ^ 64 - left) % 2 ^ 64)
    (.lengthError "String length exceeds max_size")
  return left + right

/-- Read the character that is referred to. -/
def Reference.read : Reference → Method Character
  | .outside value => pure value
  | .element block index => Buffer.read block index

/-- The characters that `strlen` counts. -/
def Text.read : Text → Method (List Character)
  | .null => Program.stuck
  | .literal outside => pure (outside.characters.takeWhile fun value => value ≠ 0)
  | .inside block offset => Buffer.text 0 block offset

/-- `const std::string Copy(text)`. -/
def Text.stage (text : Text) : Method (List Character) := do
  let characters ← text.read
  Buffer.spend .badAlloc
  return characters

namespace Str

/-- What a moved-from string holds. -/
def moved : Str := ⟨none, 0, 0⟩

/-- Follow `MemberData`. -/
def pointer (str : Str) : Method Addr :=
  match str.memberData with
  | some data => pure data
  | none => Program.stuck

/-- `MemberSize = NewSize; MemberData[MemberSize] = '\0';`. -/
def terminate (str : Str) (newSize : Nat) : Method Str := do
  Buffer.write (← str.pointer) newSize 0
  return { str with memberSize := newSize }

/-- `~String`. -/
def destroy (str : Str) : Method Unit :=
  match str.memberData with
  | some data => Buffer.deallocate data
  | none => pure ()

/-- `AllocateResources`, which `Reserve` calls as well. -/
def allocateResources (str : Str) (newInaugurateCapacity : Nat) : Method Str := do
  Program.refuse (newInaugurateCapacity > maximumSize)
    (.lengthError "String capacity exceeds max_size")
  if newInaugurateCapacity ≤ str.memberCapacity ∧ str.memberData ≠ none then return str
  else
    let temporary ←
      Buffer.allocate .badAlloc (List.replicate (newInaugurateCapacity + 1) (some 0))
    match str.memberData with
    | none =>
        Buffer.write temporary 0 0
        Buffer.write temporary str.memberSize 0
    | some data =>
        Buffer.copy temporary 0 data 0 (str.memberSize + 1)
        Buffer.write temporary str.memberSize 0
        Buffer.deallocate data
    return ⟨some temporary, str.memberSize, newInaugurateCapacity⟩

/-- A string with a new buffer of its own for `characters`. -/
def ofCharacters (characters : List Character) : Method Str := do
  let data ← Buffer.allocate .badAlloc (List.replicate (characters.length + 1) none)
  Buffer.store data 0 characters
  Buffer.write data characters.length 0
  return ⟨some data, characters.length, characters.length⟩

/-- `String(const char *)`. -/
def ofText : Text → Method Str
  | .null => do
      let data ← Buffer.allocate .badAlloc [none]
      Buffer.write data 0 0
      return ⟨some data, 0, 0⟩
  | text => do
      let characters ← text.read
      Program.refuse (characters.length > maximumSize)
        (.lengthError "String length exceeds max_size")
      ofCharacters characters

/-- `String(char *&&)` of a buffer from `new char[]`. -/
def ofPointer (data : Addr) : Method Str := do
  let characters ← Buffer.text 0 data 0
  Program.refuse (characters.length > maximumSize)
    (.lengthError "String length exceeds max_size")
  return ⟨some data, characters.length, characters.length⟩

/-- `String(std::initializer_list<char>)`. -/
def ofList (literal : Literal) : Method Str := ofCharacters literal.characters

/-- A buffer with the characters of another string: the copy constructor, and copy assignment
before the old buffer is given back. -/
def copy (source : Str) : Method Str := do
  let data ← Buffer.allocate .badAlloc (List.replicate (source.memberCapacity + 1) none)
  match source.memberData with
  | some original => Buffer.copy data 0 original 0 (source.memberSize + 1)
  | none => Buffer.write data 0 0
  return ⟨some data, source.memberSize, source.memberCapacity⟩

/-- `operator=(const String &)` of another string. -/
def assign (str other : Str) : Method Str := do
  let copied ← other.copy
  str.destroy
  return copied

/-- `operator=(const char *)`. -/
def assignText (str : Str) (text : Text) : Method Str := do
  let copy ← (if text = .null then .literal ⟨[], Nat.zero_le _⟩ else text).stage
  Program.refuse (copy.length > maximumSize) (.lengthError "String length exceeds max_size")
  let assigned ← ofCharacters copy
  str.destroy
  return assigned

/-- The loop of `Uppercase` and `Lowercase`. -/
def convert (change : Character → Character) (data : Addr) (first : Nat) : Nat → Method Unit
  | 0 => pure ()
  | count + 1 => do
      let character ← Buffer.read data first
      Buffer.write data first (change character)
      convert change data (first + 1) count

/-- What `Uppercase` does to a character. -/
def toUpper (character : Character) : Character :=
  if 'a'.toUInt8 ≤ character ∧ character ≤ 'z'.toUInt8 then character - 32 else character

/-- What `Lowercase` does to a character. -/
def toLower (character : Character) : Character :=
  if 'A'.toUInt8 ≤ character ∧ character ≤ 'Z'.toUInt8 then character + 32 else character

/-- `Uppercase` and `Lowercase`. -/
def convertAll (change : Character → Character) (str : Str) : Method Str :=
  match str.memberData with
  | none => return str
  | some data => do
      convert change data 0 str.memberSize
      return str

/-- `Uppercase`. -/
def uppercase : Str → Method Str := convertAll toUpper

/-- `Lowercase`. -/
def lowercase : Str → Method Str := convertAll toLower

/-- Move the characters from `position` on to the right and put others in their place. -/
def openAt (str : Str) (position : Nat) (characters : List Character) (newSize : Nat) :
    Method Str := do
  let str ← str.allocateResources newSize
  let data ← str.pointer
  Buffer.move data (position + characters.length) data position (str.memberSize - position + 1)
  Buffer.store data position characters
  str.terminate newSize

/-- `Prepend`. -/
def prepend (str : Str) (subString : Text) : Method Str := do
  if subString = .null then return str
  else if (← subString.read) = [] then return str
  else
    let prefixed ← subString.stage
    let newSize ← checkedLengthAdd str.memberSize prefixed.length
    str.openAt 0 prefixed newSize

/-- `InsertSubString`. -/
def insertSubString (str : Str) (subString : Text) (startPosition : Nat) : Method Str := do
  Program.refuse (startPosition > str.memberSize) (.fault "传入参数位置越界" "insert_sub_string")
  if subString = .null then return str
  else
    let insertion ← subString.stage
    let newSize ← checkedLengthAdd str.memberSize insertion.length
    str.openAt startPosition insertion newSize

/-- The capacity that `PushBack` of a character asks for. -/
def doubledCapacity (capacity newSize : Nat) : Nat :=
  max newSize
    (if capacity = 0 then 2
    else if capacity > maximumSize / 2 then maximumSize
    else capacity * 2)

/-- `PushBack(const char &)`. The reference is read after the buffer may have been replaced. -/
def pushBack (str : Str) (reference : Reference) : Method Str := do
  let newSize ← checkedLengthAdd str.memberSize 1
  let str ←
    if newSize > str.memberCapacity then
      str.allocateResources (doubledCapacity str.memberCapacity newSize)
    else pure str
  let data ← str.pointer
  Buffer.write data str.memberSize (← reference.read)
  str.terminate newSize

/-- `PushBack(const String &)` of another string. -/
def pushBackOther (str other : Str) : Method Str := do
  if other.memberSize = 0 then return str
  else
    let newSize ← checkedLengthAdd str.memberSize other.memberSize
    let str ← str.allocateResources newSize
    Buffer.copy (← str.pointer) str.memberSize (← other.pointer) 0 other.memberSize
    str.terminate newSize

/-- `PushBack(const String &)` of the string itself. -/
def pushBackSelf (str : Str) : Method Str := do
  if str.memberSize = 0 then return str
  else
    let newSize ← checkedLengthAdd str.memberSize str.memberSize
    let str ← str.allocateResources newSize
    let data ← str.pointer
    Buffer.move data str.memberSize data 0 str.memberSize
    str.terminate newSize

/-- `PushBack(const char *)`. -/
def pushBackText (str : Str) (text : Text) : Method Str := do
  if text = .null then return str
  else if (← text.read) = [] then return str
  else
    let staged ← text.stage
    let newSize ← checkedLengthAdd str.memberSize staged.length
    let str ← str.allocateResources newSize
    Buffer.store (← str.pointer) str.memberSize staged
    str.terminate newSize

/-- `Resize`. The reference is read after the buffer may have been replaced. -/
def resize (str : Str) (inaugurateSize : Nat) (defaultData : Reference) : Method Str := do
  Program.refuse (inaugurateSize > maximumSize) (.lengthError "String size exceeds max_size")
  let str ←
    if inaugurateSize > str.memberSize then do
      let grown ← str.allocateResources inaugurateSize
      let value ← defaultData.read
      Buffer.store (← grown.pointer) str.memberSize
        (List.replicate (inaugurateSize - str.memberSize) value)
      pure grown
    else pure str
  let str ← if str.memberData = none then str.allocateResources inaugurateSize else pure str
  str.terminate inaugurateSize

/-- `operator[]` and an assignment to the character. -/
def writeAt (str : Str) (accessLocation : Nat) (value : Character) : Method Str := do
  if accessLocation < str.memberSize then
    Buffer.write (← str.pointer) accessLocation value
    return str
  else throw (.fault "越界访问" "string::operator[]")

/-- The part of a string that `SubString` and `SubStringFrom` return. -/
def part (str : Str) (startPosition subLen : Nat) : Method Str := do
  let result ← ofText (.literal ⟨[], Nat.zero_le _⟩)
  let result ← Program.guarded (result.allocateResources subLen) result.destroy
  if subLen > 0 then
    Buffer.copy (← result.pointer) 0 (← str.pointer) startPosition subLen
  result.terminate subLen

/-- `SubString` to the end. -/
def subString (str : Str) (startPosition : Nat) : Method Str := do
  Program.refuse (startPosition > str.memberSize) (.fault "传入参数位置越界" "sub_string")
  str.part startPosition (str.memberSize - startPosition)

/-- `SubStringFrom`. -/
def subStringFrom (str : Str) (startPosition : Nat) : Method Str := do
  Program.refuse (startPosition > str.memberSize) (.fault "传入参数位置越界" "sub_string_from")
  str.part startPosition (str.memberSize - startPosition)

/-- `SubString` of a range. -/
def subStringTo (str : Str) (startPosition terminatePosition : Nat) : Method Str := do
  Program.refuse (startPosition > str.memberSize ∨ terminatePosition > str.memberSize ∨
    startPosition > terminatePosition) (.fault "传入参数位置越界" "sub_string")
  str.part startPosition (terminatePosition - startPosition)

/-- The loop of `Reverse` and `ReverseSubString`: `count` characters from the last one on. -/
def pushReversed (result : Str) (data : Addr) (first : Nat) : Nat → Method Str
  | 0 => return result
  | count + 1 => do
      let result ←
        Program.guarded (result.pushBack (.element data (first + count))) result.destroy
      pushReversed result data first count

/-- The characters of a range in reverse. -/
def reversedPart (str : Str) (first count : Nat) : Method Str := do
  let result ← ofText (.literal ⟨[], Nat.zero_le _⟩)
  result.pushReversed (← str.pointer) first count

/-- `Reverse`. -/
def reverse (str : Str) : Method Str := do
  Program.refuse (str.memberSize = 0) (.fault "当前string为空" "reserve")
  str.reversedPart 0 str.memberSize

/-- `ReverseSubString`. -/
def reverseSubString (str : Str) (startPosition terminatePosition : Nat) : Method Str := do
  Program.refuse (startPosition > str.memberSize ∨ terminatePosition > str.memberSize ∨
    startPosition > terminatePosition ∨ str.memberSize = 0)
    (.fault "string回滚位置异常" "reverse_sub_string")
  str.reversedPart startPosition (terminatePosition - startPosition)

/-- `operator+`. -/
def plus (str other : Str) : Method Str := do
  let result ← str.copy
  Program.guarded (result.pushBackOther other) result.destroy

end Str

end Wan.Container.StringContainer
