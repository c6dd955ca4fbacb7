import Wan.Library.Slots

/-!
# The dynamic array of `Container/Vector.hpp`

`Vector` as programs over blocks of raw and live slots, for copyable element types whose
operations do not throw.  The handlers that clean up after an element operation are left out,
and so is `EnsureRelocationIsSafe`, which does nothing for these types.  An allocation of at
most `max_size` elements succeeds.
-/

namespace Wan.Container

open Wan.Library Wan.Library.LinkedList

/-- What `Vector` depends on of its element type. -/
structure Element (V : Type) where
  /-- What is left of an object when it was moved. -/
  moved : V → V
  /-- `std::is_nothrow_move_constructible_v`. -/
  nothrowMove : Bool
  /-- `MaxSize`. -/
  maxSize : Nat

/-- The pointers of a `Vector`: the block that `MemberDataPointer` points to and the offsets
of `MemberSizePointer` and `MemberCapacityPointer` in it. -/
structure Vector where
  data : Option Addr
  size : Nat
  capacity : Nat
  deriving DecidableEq, Repr

namespace Vector

/-- What a call throws. -/
inductive Failure where
  /-- `std::length_error`. -/
  | lengthError (what : String)
  deriving DecidableEq, Repr

/-- A member function. -/
abbrev Method (V α : Type) := Program (Memory V) Failure α

/-- An iterator: a slot, or null. -/
abbrev Iterator := Option (Addr × Nat)

/-- What a reference parameter refers to: an object outside of all vectors, or an element. -/
inductive Reference (V : Type) where
  | outside (value : V)
  | element (block : Addr) (index : Nat)
  deriving DecidableEq, Repr

variable {V : Type} (element : Element V)

/-- The vector without storage. -/
def empty : Vector := ⟨none, 0, 0⟩

/-- Follow `MemberDataPointer`. -/
def pointer (vector : Vector) : Method V Addr :=
  match vector.data with
  | some data => pure data
  | none => Program.stuck

/-- `End`. -/
def endIterator (vector : Vector) : Iterator := vector.data.map (·, vector.size)

namespace Reference

/-- Copy what is referred to. -/
def read : Reference V → Method V V
  | .outside value => pure value
  | .element block index => Block.read block index

/-- Move what is referred to. -/
def move : Reference V → Method V V
  | .outside value => pure value
  | .element block index => do
      let value ← Block.read block index
      Block.assign block index (element.moved value)
      return value

end Reference

/-- `ContainsAddress`. -/
def containsAddress (vector : Vector) : Reference V → Bool
  | .outside _ => false
  | .element block index => vector.data == some block && decide (index < vector.size)

/-- `std::move_if_noexcept` of an element: it is moved only if that cannot throw. -/
def moveIfNoexcept (data : Addr) (index : Nat) : Method V V := do
  let value ← Block.read data index
  if element.nothrowMove then Block.assign data index (element.moved value)
  return value

/-- Move assignment between two elements. -/
def moveAssign (data : Addr) (target source : Nat) : Method V Unit := do
  let value ← Block.read data source
  Block.assign data source (element.moved value)
  Block.assign data target value

/-- `DestroyRange` of `count` elements. -/
def destroyRange (data : Addr) (first count : Nat) : Method V Unit :=
  Program.forDown first (Block.destroy data) count

/-- `Release`. -/
def release (vector : Vector) : Method V Vector :=
  match vector.data with
  | none => return vector
  | some data => do
      destroyRange data 0 vector.size
      Block.deallocate data
      return empty

/-- The capacity that `GrowthCapacity` computes. -/
def grownCapacity (maximum capacity required : Nat) : Nat :=
  let newCapacity :=
    if capacity = 0 then min 10 maximum
    else if maximum / 2 < capacity then maximum
    else capacity * 2
  if newCapacity < required then required else newCapacity

/-- `GrowthCapacity`. -/
def growthCapacity (vector : Vector) (required : Nat) : Method V Nat := do
  Program.refuse (element.maxSize < required) (.lengthError "Vector capacity exceeds max_size")
  return grownCapacity element.maxSize vector.capacity required

/-- The loop that constructs the elements anew, `offset` slots further in `newData`. -/
def relocate (vector : Vector) (newData : Addr) (offset : Nat) : Method V Unit :=
  Program.forUp 0 (fun index => do
    let value ← moveIfNoexcept element (← vector.pointer) index
    Block.construct newData (index + offset) value) vector.size

/-- The end of a reallocation: the old elements are destroyed and their storage is given back. -/
def adopt (vector : Vector) (newData : Addr) (newSize newCapacity : Nat) : Method V Vector := do
  match vector.data with
  | none => pure ()
  | some data => do
      destroyRange data 0 vector.size
      Block.deallocate data
  return ⟨some newData, newSize, newCapacity⟩

/-- `ReallocateWithTail`. `constructTail` is given the new storage and the end of the old
elements in it. -/
def reallocateWithTail (vector : Vector) (newSize : Nat)
    (constructTail : Addr → Nat → Method V Unit) : Method V Vector := do
  let newCapacity ← vector.growthCapacity element newSize
  let newData ← Block.allocate newCapacity
  constructTail newData vector.size
  vector.relocate element newData 0
  vector.adopt newData newSize newCapacity

/-- `ReallocateWithPrepend`. -/
def reallocateWithPrepend (vector : Vector) (value : Method V V) : Method V Vector := do
  Program.refuse (vector.size = element.maxSize) (.lengthError "Vector size exceeds max_size")
  let newSize := vector.size + 1
  let newCapacity ← vector.growthCapacity element newSize
  let newData ← Block.allocate newCapacity
  Block.construct newData 0 (← value)
  vector.relocate element newData 1
  vector.adopt newData newSize newCapacity

/-- `EnsureCapacity`. -/
def ensureCapacity (vector : Vector) (required : Nat) : Method V Vector := do
  if required ≤ vector.capacity then return vector
  else
    let newCapacity ← vector.growthCapacity element required
    let newData ← Block.allocate newCapacity
    vector.relocate element newData 0
    vector.adopt newData vector.size newCapacity

/-- Construct one more element where there is room. -/
def constructNext (vector : Vector) (value : Method V V) : Method V Vector := do
  Block.construct (← vector.pointer) vector.size (← value)
  return { vector with size := vector.size + 1 }

/-- `AppendConstructed`; `value` copies or moves the argument. -/
def appendConstructed (vector : Vector) (value : Method V V) : Method V Vector := do
  Program.refuse (vector.size = element.maxSize) (.lengthError "Vector size exceeds max_size")
  if vector.size = vector.capacity then
    vector.reallocateWithTail element (vector.size + 1) fun newData tailStart => do
      Block.construct newData tailStart (← value)
  else vector.constructNext value

/-- `PushBack(VectorType&&)`. -/
def pushBackMove (vector : Vector) (reference : Reference V) : Method V Vector := do
  if vector.containsAddress reference then
    let staged ← reference.read
    vector.appendConstructed element (Reference.move element (.outside staged))
  else vector.appendConstructed element (reference.move element)

/-- `PushBack(const VectorType&)`. -/
def pushBack (vector : Vector) (reference : Reference V) : Method V Vector := do
  if vector.containsAddress reference then
    let staged ← reference.read
    vector.pushBackMove element (.outside staged)
  else vector.appendConstructed element reference.read

/-- `PushFront` of an argument that is not an element; `value` copies or moves it. -/
def prependConstructed (vector : Vector) (value : Method V V) : Method V Vector := do
  Program.refuse (vector.size = element.maxSize) (.lengthError "Vector size exceeds max_size")
  if vector.size = vector.capacity then vector.reallocateWithPrepend element value
  else
    let data ← vector.pointer
    if vector.size = 0 then
      Block.construct data 0 (← value)
      return { vector with size := 1 }
    else
      Block.construct data vector.size (← moveIfNoexcept element data (vector.size - 1))
      Program.forDown 1 (fun index => do
        Block.assign data index (← moveIfNoexcept element data (index - 1))) (vector.size - 1)
      Block.assign data 0 (← value)
      return { vector with size := vector.size + 1 }

/-- `PushFront(VectorType&&)`. -/
def pushFrontMove (vector : Vector) (reference : Reference V) : Method V Vector := do
  if vector.containsAddress reference then
    let staged ← reference.read
    vector.prependConstructed element (Reference.move element (.outside staged))
  else vector.prependConstructed element (reference.move element)

/-- `PushFront(const VectorType&)`. -/
def pushFront (vector : Vector) (reference : Reference V) : Method V Vector := do
  if vector.containsAddress reference then
    let staged ← reference.read
    vector.pushFrontMove element (.outside staged)
  else vector.prependConstructed element reference.read

/-- `PopBack`. -/
def popBack (vector : Vector) : Method V Vector := do
  if vector.size ≠ 0 then
    Block.destroy (← vector.pointer) (vector.size - 1)
    return { vector with size := vector.size - 1 }
  else return vector

/-- `PopFront`. -/
def popFront (vector : Vector) : Method V Vector := do
  if vector.size > 0 then
    let data ← vector.pointer
    Program.forUp 1 (fun index => moveAssign element data (index - 1) index) (vector.size - 1)
    Block.destroy data (vector.size - 1)
    return { vector with size := vector.size - 1 }
  else return vector

/-- `Erase`, with the iterator that it returns. -/
def erase (vector : Vector) (deletePosition : Iterator) : Method V (Vector × Iterator) :=
  match vector.data, deletePosition with
  | some data, some (block, index) =>
      if data = block ∧ index < vector.size then do
        Program.forUp index (fun current => moveAssign element data current (current + 1))
          (vector.size - 1 - index)
        Block.destroy data (vector.size - 1)
        return ({ vector with size := vector.size - 1 }, deletePosition)
      else return (vector, vector.endIterator)
  | _, _ => return (vector, vector.endIterator)

/-- `SizeAdjust`. An argument that is an element is found again by its index. -/
def sizeAdjust (vector : Vector) (dataSize : Nat) (padding : Reference V) : Method V Vector := do
  Program.refuse (element.maxSize < dataSize) (.lengthError "Vector size exceeds max_size")
  if dataSize < vector.size then
    destroyRange (← vector.pointer) dataSize (vector.size - dataSize)
    return { vector with size := dataSize }
  else if dataSize = vector.size then return vector
  else if vector.capacity < dataSize then
    vector.reallocateWithTail element dataSize fun newData tailStart =>
      Program.forUp tailStart (fun index => do
        Block.construct newData index (← padding.read)) (dataSize - tailStart)
  else
    let data ← vector.pointer
    Program.forUp vector.size (fun index => do
      Block.construct data index (← padding.read)) (dataSize - vector.size)
    return { vector with size := dataSize }

/-- `Resize`, which reserves. -/
def resize (vector : Vector) (newContainerCapacity : Nat) : Method V Vector :=
  vector.ensureCapacity element newContainerCapacity

/-- The loop of the copy constructor from an index on. -/
def appendElements (vector source : Vector) (first : Nat) : Nat → Method V Vector
  | 0 => return vector
  | count + 1 => do
      let vector ← vector.appendConstructed element (do Block.read (← source.pointer) first)
      appendElements vector source (first + 1) count

/-- The copy constructor. -/
def copy (source : Vector) : Method V Vector := do
  let vector ← empty.resize element source.capacity
  vector.appendElements element source 0 source.size

/-- `operator+=` of another vector that is not empty. -/
def appendOther (vector other : Vector) : Method V Vector := do
  Program.refuse (element.maxSize - vector.size < other.size)
    (.lengthError "Vector size exceeds max_size")
  let newSize := vector.size + other.size
  if vector.capacity < newSize then
    vector.reallocateWithTail element newSize fun newData tailStart =>
      Program.forUp 0 (fun index => do
        Block.construct newData (tailStart + index) (← Block.read (← other.pointer) index))
        other.size
  else
    let grown ← vector.ensureCapacity element newSize
    let data ← grown.pointer
    Program.forUp 0 (fun index => do
      Block.construct data (vector.size + index) (← Block.read (← other.pointer) index)) other.size
    return { grown with size := newSize }

/-- `operator+=` of another vector. -/
def append (vector other : Vector) : Method V Vector :=
  if other.size = 0 then return vector else vector.appendOther element other

/-- The elements of a vector from an index on. -/
def elements (vector : Vector) (first : Nat) : Nat → Method V (List V)
  | 0 => return []
  | count + 1 => do
      let value ← Block.read (← vector.pointer) first
      return value :: (← elements vector (first + 1) count)

/-- The constructor from a list of values. -/
def ofInitializerList (values : List V) : Method V Vector := do
  let vector ← empty.ensureCapacity element values.length
  values.foldlM (fun vector value => vector.constructNext (pure value)) vector

/-- `Vector Copy{VectorData}`. Where a vector converts to an element, the braces select the
constructor from a list of values, and not the copy constructor. -/
def copyBraced (convert : Option (List V → V)) (source : Vector) : Method V Vector :=
  match convert with
  | none => source.copy element
  | some convert => do ofInitializerList element [convert (← source.elements 0 source.size)]

/-- `operator+=` of the vector itself, which appends what `Vector Copy{VectorData}` makes of it. -/
def appendSelf (convert : Option (List V → V)) (vector : Vector) : Method V Vector := do
  if vector.size = 0 then return vector
  else
    let copied ← vector.copyBraced element convert
    let appended ← Program.guarded (vector.append element copied) (do let _ ← copied.release)
    let _ ← copied.release
    return appended

/-- Copy assignment of another vector: the new content of the vector. -/
def assign (vector other : Vector) : Method V Vector := do
  let copied ← other.copy element
  let _ ← vector.release
  return copied

end Vector

end Wan.Container
