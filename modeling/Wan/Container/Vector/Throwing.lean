import Wan.Container.Vector.Model
import Wan.Library.Objects.Model

/-!
# Growing a vector whose element type may throw

The member functions of `Vector` that add elements or reserve storage, for copyable element
types whose constructors and assignments may throw, with the handlers that clean up.  Objects
are constructed and destroyed one by one, and everything that outlives an exception is state:
the pointers of `*this` and the counters that the handlers read.  `EnsureRelocationIsSafe` does
nothing for these types, and a vector does not convert to an element.
-/

namespace Wan.Container.ThrowingVector

open Wan.Library Wan.Library.LinkedList

/-- What `Vector` depends on of its element type, and when an operation throws. -/
structure Policy (V : Type) extends Element V where
  /-- Whether the operation at a time throws, an allocation or a copy or move of an element, if it
  can throw at all. -/
  faults : Nat → Bool
  /-- `VectorType{}`. -/
  initial : V

/-- What a call throws. -/
inductive Failure where
  /-- `std::length_error`. -/
  | lengthError (what : String)
  /-- What an operation of the element type or of the allocator throws. -/
  | raised
  deriving DecidableEq, Repr

/-- The pointers of `*this` and the counters of a call. -/
structure Fields where
  this : Vector
  /-- `ConstructedOld`, and `Constructed` of `EnsureCapacity`. -/
  constructedOld : Nat
  /-- `ConstructedTail`, and `Constructed` of `operator+=`. -/
  constructedTail : Nat
  constructedFront : Bool

/-- A member function. -/
abbrev Method (V α : Type) := Program (Storage V Fields) Failure α

/-- What a reference refers to: an object outside of all vectors that are looked at, an element of
`*this`, an element of another vector, or the last object on the stack. What is left of an object
outside after a move is not looked at. -/
inductive Reference (V : Type) where
  | outside (value : V)
  | element (index : Nat)
  | other (vector : Vector) (index : Nat)
  | staged
  deriving DecidableEq, Repr

variable {V : Type} (policy : Policy V)

/-- The pointers of `*this`. -/
def this : Method V Vector := do
  return (← Storage.getFields).this

/-- Set the pointers of `*this`. -/
def setThis (vector : Vector) : Method V Unit :=
  Storage.modifyFields fun fields => { fields with this := vector }

/-- Follow `MemberDataPointer` of a vector. -/
def pointer (vector : Vector) : Method V Addr :=
  match vector.data with
  | some data => pure data
  | none => Program.stuck

/-- An operation of the allocator or of the element type. -/
def attempt (safe : Bool) : Method V Unit := Storage.attempt policy.faults safe .raised

/-- The value in a slot, which is moved from or not. -/
def takeSlot (moves : Bool) (data : Addr) (index : Nat) : Method V V := do
  let value ← Storage.read data index
  if moves then Storage.assign data index (policy.moved value)
  return value

/-- The value that an object is constructed from or assigned. -/
def take (moves : Bool) : Reference V → Method V V
  | .outside value => return value
  | .element index => do takeSlot policy moves (← pointer (← this)) index
  | .other vector index => do takeSlot policy moves (← pointer vector) index
  | .staged => do
      let value ← Storage.readLocal
      if moves then Storage.assignLocal (policy.moved value)
      return value

/-- The copy or the move constructor, which may throw; yields the value of the new object. -/
def make (moves : Bool) (reference : Reference V) : Method V V := do
  attempt policy (moves && policy.nothrowMove)
  take policy moves reference

/-- Copy or move assignment of an element. -/
def assign (data : Addr) (index : Nat) (moves : Bool) (reference : Reference V) :
    Method V Unit := do
  attempt policy false
  Storage.assign data index (← take policy moves reference)

/-- Run with an object on the stack. -/
def withStaged (value : Method V V) (body : Method V Unit) : Method V Unit := do
  Storage.enter (← value)
  Program.guarded body Storage.leave
  Storage.leave

/-- Call a member function of another vector, and yield what becomes of it. -/
def onOther (vector : Vector) (method : Method V Unit) : Method V Vector := do
  let outer ← this
  setThis vector
  Program.guarded method (setThis outer)
  let result ← this
  setThis outer
  return result

/-- `DestroyRange` of `count` elements. -/
def destroyRange (data : Addr) (first count : Nat) : Method V Unit :=
  Program.forDown first (Storage.destroy data) count

/-- The elements of a vector are destroyed and its storage is given back, if it has any. -/
def discard (vector : Vector) : Method V Unit :=
  match vector.data with
  | none => return
  | some data => do
      destroyRange data 0 vector.size
      Storage.deallocate data

/-- `Release`. -/
def release : Method V Unit := do
  let vector ← this
  if vector.data = none then return
  else
    discard vector
    setThis .empty

/-- `ContainsAddress`. -/
def containsAddress : Reference V → Method V Bool
  | .element index => do return decide (index < (← this).size)
  | _ => return false

/-- `GrowthCapacity`. -/
def growthCapacity (required : Nat) : Method V Nat := do
  Program.refuse (policy.maxSize < required) (.lengthError "Vector capacity exceeds max_size")
  return Vector.grownCapacity policy.maxSize (← this).capacity required

/-- `AllocatorTraits::allocate`. -/
def allocate (capacity : Nat) : Method V Addr := do
  attempt policy false
  Storage.allocate capacity

/-- The loop that constructs the elements anew, `offset` slots further in `newData`. An element is
moved if its move constructor does not throw, and copied otherwise. -/
def relocate (newData : Addr) (offset count : Nat) : Method V Unit :=
  Program.forUp 0 (fun index => do
    Storage.construct newData (offset + index)
      (← make policy policy.nothrowMove (.element index))
    Storage.modifyFields fun fields => { fields with constructedOld := index + 1 }) count

/-- The loop that constructs the objects of a tail. -/
def constructTail (reference : Nat → Reference V) (moves : Bool) (count : Nat) (data : Addr)
    (tailStart : Nat) : Method V Unit :=
  Program.forUp 0 (fun index => do
    Storage.construct data (tailStart + index) (← make policy moves (reference index))
    Storage.modifyFields fun fields => { fields with constructedTail := index + 1 }) count

/-- The counters at the start of a call. -/
def resetCounters : Method V Unit :=
  Storage.modifyFields fun fields =>
    { fields with constructedOld := 0, constructedTail := 0, constructedFront := false }

/-- The end of a reallocation. -/
def adopt (newData : Addr) (newSize newCapacity : Nat) : Method V Unit := do
  discard (← this)
  setThis ⟨some newData, newSize, newCapacity⟩

/-- `ReallocateWithTail`. `constructTail` is given the new storage and the end of the old elements
in it. -/
def reallocateWithTail (newSize : Nat) (constructTail : Addr → Nat → Method V Unit) :
    Method V Unit := do
  let currentSize := (← this).size
  let newCapacity ← growthCapacity policy newSize
  let newData ← allocate policy newCapacity
  resetCounters
  Program.guarded (do
      constructTail newData currentSize
      relocate policy newData 0 currentSize)
    (do
      let fields ← Storage.getFields
      destroyRange newData 0 fields.constructedOld
      destroyRange newData currentSize fields.constructedTail
      Storage.deallocate newData)
  adopt newData newSize newCapacity

/-- `ReallocateWithPrepend`. -/
def reallocateWithPrepend (moves : Bool) (newValue : Reference V) : Method V Unit := do
  let currentSize := (← this).size
  Program.refuse (currentSize = policy.maxSize) (.lengthError "Vector size exceeds max_size")
  let newSize := currentSize + 1
  let newCapacity ← growthCapacity policy newSize
  let newData ← allocate policy newCapacity
  resetCounters
  Program.guarded (do
      Storage.construct newData 0 (← make policy moves newValue)
      Storage.modifyFields fun fields => { fields with constructedFront := true }
      relocate policy newData 1 currentSize)
    (do
      let fields ← Storage.getFields
      destroyRange newData 1 fields.constructedOld
      if fields.constructedFront then Storage.destroy newData 0
      Storage.deallocate newData)
  adopt newData newSize newCapacity

/-- `EnsureCapacity`. -/
def ensureCapacity (required : Nat) : Method V Unit := do
  let vector ← this
  if required ≤ vector.capacity then return
  else
    let newCapacity ← growthCapacity policy required
    let newData ← allocate policy newCapacity
    resetCounters
    Program.guarded (relocate policy newData 0 vector.size) (do
      let fields ← Storage.getFields
      destroyRange newData 0 fields.constructedOld
      Storage.deallocate newData)
    adopt newData vector.size newCapacity

/-- `AppendConstructed`. -/
def appendConstructed (moves : Bool) (value : Reference V) : Method V Unit := do
  let vector ← this
  Program.refuse (vector.size = policy.maxSize) (.lengthError "Vector size exceeds max_size")
  if vector.size = vector.capacity then
    reallocateWithTail policy (vector.size + 1) (constructTail policy (fun _ => value) moves 1)
  else
    Storage.construct (← pointer vector) vector.size (← make policy moves value)
    setThis { vector with size := vector.size + 1 }

/-- `PushBack(VectorType&&)`. -/
def pushBackMove (data : Reference V) : Method V Unit := do
  if ← containsAddress data then
    withStaged (make policy false data) (appendConstructed policy true .staged)
  else appendConstructed policy true data

/-- `PushBack(const VectorType&)`. -/
def pushBack (data : Reference V) : Method V Unit := do
  if ← containsAddress data then withStaged (make policy false data) (pushBackMove policy .staged)
  else appendConstructed policy false data

/-- `PushFront` of an argument that is not an element. -/
def prependConstructed (moves : Bool) (value : Reference V) : Method V Unit := do
  let vector ← this
  Program.refuse (vector.size = policy.maxSize) (.lengthError "Vector size exceeds max_size")
  if vector.size = vector.capacity then reallocateWithPrepend policy moves value
  else
    let data ← pointer vector
    if vector.size = 0 then
      Storage.construct data 0 (← make policy moves value)
      setThis { vector with size := 1 }
    else
      Storage.construct data vector.size
        (← make policy policy.nothrowMove (.element (vector.size - 1)))
      Program.guarded (do
          Program.forDown 1 (fun index =>
            assign policy data index policy.nothrowMove (.element (index - 1))) (vector.size - 1)
          assign policy data 0 moves value)
        (Storage.destroy data vector.size)
      setThis { vector with size := vector.size + 1 }

/-- `PushFront(VectorType&&)`. -/
def pushFrontMove (data : Reference V) : Method V Unit := do
  if ← containsAddress data then
    withStaged (make policy false data) (prependConstructed policy true .staged)
  else prependConstructed policy true data

/-- `PushFront(const VectorType&)`. -/
def pushFront (data : Reference V) : Method V Unit := do
  if ← containsAddress data then withStaged (make policy false data) (pushFrontMove policy .staged)
  else prependConstructed policy false data

/-- `SizeAdjust` with a padding value. -/
def sizeAdjust (dataSize : Nat) (padding : Reference V) : Method V Unit := do
  let vector ← this
  Program.refuse (policy.maxSize < dataSize) (.lengthError "Vector size exceeds max_size")
  if dataSize < vector.size then
    destroyRange (← pointer vector) dataSize (vector.size - dataSize)
    setThis { vector with size := dataSize }
  else if dataSize = vector.size then return
  else if vector.capacity < dataSize then
    reallocateWithTail policy dataSize
      (constructTail policy (fun _ => padding) false (dataSize - vector.size))
  else
    let data ← pointer vector
    Program.guarded (Program.forUp vector.size (fun index => do
        Storage.construct data index (← make policy false padding)
        setThis { vector with size := index + 1 }) (dataSize - vector.size))
      (do
        destroyRange data vector.size ((← this).size - vector.size)
        setThis { vector with size := vector.size })

/-- `SizeAdjust` with `VectorType{}`. -/
def sizeAdjustDefault (dataSize : Nat) : Method V Unit :=
  withStaged (do
    attempt policy false
    return policy.initial) (sizeAdjust policy dataSize .staged)

/-- `Resize`, which reserves. -/
def resize (newContainerCapacity : Nat) : Method V Unit :=
  ensureCapacity policy newContainerCapacity

/-- `operator+=` of another vector. -/
def append (other : Vector) : Method V Unit := do
  if other.size = 0 then return
  else
    let vector ← this
    Program.refuse (policy.maxSize - vector.size < other.size)
      (.lengthError "Vector size exceeds max_size")
    let newSize := vector.size + other.size
    if vector.capacity < newSize then
      reallocateWithTail policy newSize (constructTail policy (.other other) false other.size)
    else
      ensureCapacity policy newSize
      let data ← pointer vector
      resetCounters
      Program.guarded (constructTail policy (.other other) false other.size data vector.size) (do
        destroyRange data vector.size (← Storage.getFields).constructedTail)
      setThis { vector with size := newSize }

/-- The copy constructor. -/
def copyConstruct (source : Vector) : Method V Unit :=
  Program.guarded (do
    resize policy source.capacity
    Program.forUp 0 (fun index => appendConstructed policy false (.other source index))
      source.size) release

/-- The destructor of another vector. -/
def destroyOther (vector : Vector) : Method V Unit := do
  let _ ← onOther vector release

/-- `operator+=` of the vector itself, which appends a copy. -/
def appendSelf : Method V Unit := do
  let vector ← this
  if vector.size = 0 then return
  else
    let copied ← onOther .empty (copyConstruct policy vector)
    Program.guarded (append policy copied) (destroyOther copied)
    destroyOther copied

/-- The calls that add elements or reserve storage. -/
inductive Call (V : Type) where
  | pushBack (data : Reference V)
  | pushBackMove (data : Reference V)
  | pushFront (data : Reference V)
  | pushFrontMove (data : Reference V)
  | sizeAdjust (dataSize : Nat) (padding : Reference V)
  | sizeAdjustDefault (dataSize : Nat)
  | resize (newContainerCapacity : Nat)
  | append (other : Vector)
  | appendSelf
  deriving Repr

/-- What a call does. -/
def Call.run : Call V → Method V Unit
  | .pushBack data => ThrowingVector.pushBack policy data
  | .pushBackMove data => ThrowingVector.pushBackMove policy data
  | .pushFront data => ThrowingVector.pushFront policy data
  | .pushFrontMove data => ThrowingVector.pushFrontMove policy data
  | .sizeAdjust dataSize padding => ThrowingVector.sizeAdjust policy dataSize padding
  | .sizeAdjustDefault dataSize => ThrowingVector.sizeAdjustDefault policy dataSize
  | .resize newContainerCapacity => ThrowingVector.resize policy newContainerCapacity
  | .append other => ThrowingVector.append policy other
  | .appendSelf => ThrowingVector.appendSelf policy

end Wan.Container.ThrowingVector
