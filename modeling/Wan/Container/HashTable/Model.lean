import Wan.Library.LinkedList
import Wan.Library.Program

/-!
# The hash table of `Container/Base.hpp`

`HashTable` as programs over a heap of nodes and the fields of one table.  Hash
functions, element copies and allocations may raise: each of them takes a tick of
a clock, and the policy says at which ticks an exception leaves the call.  Null or
dangling accesses and a division by a zero capacity have no behaviour.
-/

namespace Wan.Container

open Wan.Library Wan.Library.LinkedList

/-- `HashTableNode`. -/
structure HashTableNode (Value : Type) where
  memberData : Value
  memberNext : Option Addr
  overallListPrev : Option Addr
  overallListNext : Option Addr
  deriving DecidableEq, Repr

/-- The fields of a `HashTable`, its function objects apart. -/
structure HashTable where
  memberSize : Nat
  loadFactor : Nat
  hashCapacity : Nat
  vectorHashTable : List (Option Addr)
  overallListBeforeNode : Option Addr
  overallListHeadNode : Option Addr
  deriving DecidableEq, Repr

namespace HashTable

/-- The function objects of a table and the limits of its environment. The hash of
a value is the hash of its key. -/
structure Policy (Key Value : Type) where
  valueImitationFunctions : Value → Key
  hashKey : Key → UInt64
  hashValue : Value → UInt64
  hashValue_eq : ∀ value, hashValue value = hashKey (valueImitationFunctions value)
  /-- `Vector::MaxSize` of the bucket array. -/
  maxSize : Nat
  /-- `max_size` of the array of bucket indices in `Rehash`. -/
  maxIndices : Nat
  /-- The ticks at which user code or the allocator raises. -/
  faults : Nat → Bool

/-- The function objects of `HashMap`: `KeyVal` takes the key of a pair, and
`InbuiltMapHashFunctor` hashes nothing but the key. -/
def mapPolicy {Key Value : Type} (firstHashFunctionsObject : Key → UInt64)
    (maxSize maxIndices : Nat) (faults : Nat → Bool) : Policy Key (Key × Value) where
  valueImitationFunctions := Prod.fst
  hashKey key := firstHashFunctionsObject key * 31
  hashValue pair := firstHashFunctionsObject pair.1 * 31
  hashValue_eq _ := rfl
  maxSize := maxSize
  maxIndices := maxIndices
  faults := faults

/-- What a call may raise. -/
inductive Fault where
  /-- `std::logic_error`. -/
  | logicError (what : String)
  /-- `std::length_error`. -/
  | lengthError (what : String)
  /-- `CustomException::Fault`. -/
  | fault (what functionName : String)
  /-- Raised by a hash function, an element copy or the allocator. -/
  | raised
  deriving DecidableEq, Repr

/-- The largest `uint64_t`. -/
def maximum : Nat := 2 ^ 64 - 1

/-- `++` on a `uint64_t`. -/
def increment (count : Nat) : Nat := (count + 1) % 2 ^ 64

/-- `--` on a `uint64_t`. -/
def decrement (count : Nat) : Nat := (count + maximum) % 2 ^ 64

/-- `* 2` on a `uint64_t`. -/
def timesTwo (capacity : Nat) : Nat := capacity * 2 % 2 ^ 64

/-- `MaximumElementsFor`, in 64-bit arithmetic. -/
def maximumElementsFor (capacity factor : Nat) : Nat :=
  ((capacity / 10) * factor % 2 ^ 64 + (capacity % 10) * factor % 2 ^ 64 / 10) % 2 ^ 64

/-- What a member function works on: the nodes, the clock and the fields of `*this`. -/
structure State (Value : Type) where
  heap : Heap (HashTableNode Value)
  clock : Nat
  self : HashTable

/-- A member function. -/
abbrev Method (Value α : Type) := Program (State Value) Fault α

variable {Key Value : Type}

section Primitives

/-- Assign to fields of `*this`. -/
def modifySelf (change : HashTable → HashTable) : Method Value Unit :=
  modify fun state => { state with self := change state.self }

/-- Follow a pointer to a node. -/
def read (node : Addr) : Method Value (HashTableNode Value) := do
  match (← get).heap.cells node with
  | some cell => pure cell
  | none => Program.stuck

/-- Assign to fields of a node. -/
def write (node : Addr) (change : HashTableNode Value → HashTableNode Value) :
    Method Value Unit := do
  let _ ← read node
  modify fun state => { state with heap := state.heap.adjust node change }

/-- `delete`. -/
def delete (node : Addr) : Method Value Unit := do
  let _ ← read node
  modify fun state => { state with heap := state.heap.free node }

/-- `Vector::operator[]`. -/
def slot (buckets : List (Option Addr)) (index : Nat) : Method Value (Option Addr) :=
  match buckets[index]? with
  | some head => pure head
  | none => throw (.fault "传入参数越界" "vector::operator[]")

/-- The bucket of a hash value. -/
def bucketOf (hash : UInt64) (capacity : Nat) : Method Value Nat :=
  if capacity = 0 then Program.stuck else pure (hash.toNat % capacity)

/-- A hash function, an element copy or an allocation gets a chance to raise. -/
def tick (policy : Policy Key Value) : Method Value Unit := do
  let state ← get
  set { state with clock := state.clock + 1 }
  Program.refuse (policy.faults state.clock = true) .raised

/-- `HashFunctionObject` on a value. -/
def hashOfValue (policy : Policy Key Value) (value : Value) : Method Value UInt64 := do
  tick policy
  return policy.hashValue value

/-- `HashFunctionObject` on a key. -/
def hashOfKey (policy : Policy Key Value) (key : Key) : Method Value UInt64 := do
  tick policy
  return policy.hashKey key

/-- `new ContainerNode`: an allocation and the construction of the element. -/
def newNode (policy : Policy Key Value) (value : Value) : Method Value Addr := do
  tick policy
  tick policy
  let state ← get
  set { state with heap := state.heap.alloc ⟨value, none, none, none⟩ }
  return state.heap.next

/-- Reserve an array; an empty one needs no memory. -/
def allocate (policy : Policy Key Value) (count : Nat) : Method Value Unit :=
  if count = 0 then pure () else tick policy

/-- `Vector::SizeAdjust` with null on an empty bucket array. -/
def sizeAdjust (policy : Policy Key Value) (dataSize : Nat) :
    Method Value (List (Option Addr)) := do
  Program.refuse (policy.maxSize < dataSize) (.lengthError "Vector size exceeds max_size")
  allocate policy dataSize
  return List.replicate dataSize none

end Primitives

section Rehash

variable (policy : Policy Key Value)

/-- Put a node in front of a bucket chain. -/
def prepend (buckets : List (Option Addr)) (bucket : Nat) (node : Addr) :
    Method Value (List (Option Addr)) := do
  let head ← slot buckets bucket
  write node fun cell => { cell with memberNext := head }
  return buckets.set bucket (some node)

/-- The first loop of `Rehash`: the new bucket of every node. -/
def bucketIndices (newCapacity : Nat) : Nat → Option Addr → Method Value (List Nat)
  | _, none => pure []
  | 0, some _ => Program.stuck
  | fuel + 1, some node => do
      let cell ← read node
      let hash ← hashOfValue policy cell.memberData
      let bucket ← bucketOf hash newCapacity
      let indices ← bucketIndices newCapacity fuel cell.overallListNext
      return bucket :: indices

/-- The second loop of `Rehash`: link every node into its new bucket. -/
def relink : List (Option Addr) → Option Addr → List Nat →
    Method Value (List (Option Addr))
  | newBuckets, _, [] => pure newBuckets
  | _, none, _ :: _ => Program.stuck
  | newBuckets, some node, bucket :: indices => do
      let cell ← read node
      let newBuckets ← prepend newBuckets bucket node
      relink newBuckets cell.overallListNext indices

/-- `Rehash`. -/
def rehash (newCapacity : Nat) : Method Value Unit := do
  Program.refuse (newCapacity = 0) (.lengthError "hash table capacity cannot be zero")
  let newBuckets ← sizeAdjust policy newCapacity
  let state ← get
  Program.refuse (policy.maxIndices < state.self.memberSize)
    (.lengthError "hash table is too large")
  allocate policy state.self.memberSize
  let indices ← bucketIndices policy newCapacity state.heap.next state.self.overallListHeadNode
  let newBuckets ← relink newBuckets state.self.overallListHeadNode indices
  modifySelf fun self =>
    { self with vectorHashTable := newBuckets, hashCapacity := newCapacity }

/-- The body of the loop of `EnsureCapacityForOneMore`. -/
def enlarge : Method Value Unit := do
  let state ← get
  if state.self.hashCapacity = 0 then
    rehash policy 10
  else
    Program.refuse (maximum / 2 < state.self.hashCapacity)
      (.lengthError "hash table capacity overflow")
    rehash policy (timesTwo state.self.hashCapacity)

/-- The condition of the loop of `EnsureCapacityForOneMore`. -/
def Crowded (self : HashTable) : Prop :=
  self.hashCapacity = 0 ∨
    maximumElementsFor self.hashCapacity self.loadFactor < increment self.memberSize

instance (self : HashTable) : Decidable (Crowded self) := by
  unfold Crowded
  infer_instance

/-- The loop of `EnsureCapacityForOneMore`. -/
def enlargeWhile : Nat → Method Value Unit
  | 0 => Program.stuck
  | fuel + 1 => do
      let state ← get
      if Crowded state.self then do
        enlarge policy
        enlargeWhile fuel
      else
        return ()

/-- `EnsureCapacityForOneMore`. A capacity doubles at most 64 times. -/
def ensureCapacityForOneMore : Method Value Unit := do
  let state ← get
  Program.refuse (state.self.loadFactor < 1 ∨ 10 < state.self.loadFactor)
    (.logicError "hash table load factor must be in [1, 10]")
  Program.refuse (state.self.memberSize = maximum) (.lengthError "hash table size overflow")
  enlargeWhile policy 66

/-- The loop of `ChangeLoadFactor` that looks for a capacity. -/
def capacityFor (memberSize newLoadFactor : Nat) : Nat → Nat → Method Value Nat
  | 0, _ => Program.stuck
  | fuel + 1, newCapacity =>
      if newCapacity ≠ 0 ∧ maximumElementsFor newCapacity newLoadFactor < memberSize then do
        Program.refuse (maximum / 2 < newCapacity) (.lengthError "hash table capacity overflow")
        capacityFor memberSize newLoadFactor fuel (timesTwo newCapacity)
      else
        pure newCapacity

/-- Rehash unless the table has the capacity already. -/
def rehashTo (newCapacity : Nat) : Method Value Unit := do
  let state ← get
  if newCapacity ≠ state.self.hashCapacity then
    rehash policy newCapacity
  else
    return ()

/-- `ChangeLoadFactor`. -/
def changeLoadFactor (newLoadFactor : UInt64) : Method Value Bool := do
  if newLoadFactor.toNat < 1 ∨ 10 < newLoadFactor.toNat then
    return false
  else
    let state ← get
    let start :=
      if state.self.memberSize ≠ 0 ∧ state.self.hashCapacity = 0 then 10
      else state.self.hashCapacity
    let newCapacity ← capacityFor state.self.memberSize newLoadFactor.toNat 66 start
    rehashTo policy newCapacity
    modifySelf fun self => { self with loadFactor := newLoadFactor.toNat }
    return true

end Rehash

section Elements

variable (policy : Policy Key Value)

section Lookup

variable [DecidableEq Key]

/-- The loops of `FindNodeByKey` and `Find` over one bucket. -/
def findInBucket (keyValue : Key) : Nat → Option Addr → Method Value (Option Addr)
  | _, none => pure none
  | 0, some _ => Program.stuck
  | fuel + 1, some node => do
      let cell ← read node
      if policy.valueImitationFunctions cell.memberData = keyValue then
        return some node
      else
        findInBucket keyValue fuel cell.memberNext

/-- `FindNodeByKey`. -/
def findNodeByKey (keyValue : Key) : Method Value (Option Addr) := do
  let state ← get
  if state.self.memberSize = 0 ∨ state.self.hashCapacity = 0 then
    return none
  else
    let hash ← hashOfKey policy keyValue
    let bucket ← bucketOf hash state.self.hashCapacity
    let head ← slot state.self.vectorHashTable bucket
    findInBucket policy keyValue state.heap.next head

/-- `FindKey`. -/
def findKey (keyValue : Key) : Method Value (Option Addr) := findNodeByKey policy keyValue

/-- `Find`, which unlike `FindNodeByKey` does not look at the capacity. -/
def find (value : Value) : Method Value (Option Addr) := do
  let state ← get
  if state.self.memberSize = 0 then
    return none
  else
    let hash ← hashOfValue policy value
    let bucket ← bucketOf hash state.self.hashCapacity
    let head ← slot state.self.vectorHashTable bucket
    findInBucket policy (policy.valueImitationFunctions value) state.heap.next head

end Lookup

/-- Let the last node of the insertion list, or the head pointer, name a new node. -/
def appendAfter (node : Addr) : Option Addr → Method Value Unit
  | some tail => write tail fun cell => { cell with overallListNext := some node }
  | none => modifySelf fun self => { self with overallListHeadNode := some node }

/-- Link a node in front of its bucket and at the end of the insertion list, as
`Push` and the copy constructor do. -/
def linkNode (node : Addr) (bucket : Nat) : Method Value Unit := do
  let state ← get
  let buckets ← prepend state.self.vectorHashTable bucket node
  modifySelf fun self => { self with vectorHashTable := buckets }
  let tail := state.self.overallListBeforeNode
  write node fun cell => { cell with overallListPrev := tail }
  appendAfter node tail
  modifySelf fun self =>
    { self with
      overallListBeforeNode := some node
      memberSize := increment self.memberSize }

/-- `Push` of a value that `Find` did not meet. A unique pointer owns the node
until it is linked. -/
def pushNew (value : Value) : Method Value Unit := do
  let fullHash ← hashOfValue policy value
  let node ← newNode policy value
  Program.guarded (ensureCapacityForOneMore policy) (delete node)
  let state ← get
  let bucket ← bucketOf fullHash state.self.hashCapacity
  linkNode node bucket

/-- `Push`, of which the copying and the moving overload differ in the element
constructor only. -/
def push [DecidableEq Key] (value : Value) : Method Value Bool := do
  match ← find policy value with
  | some _ => return false
  | none => do
      pushNew policy value
      return true

/-- The first loop of `EraseNode`: the node before the target in its bucket, and
the target if it is there. -/
def seek (target : Addr) : Nat → Option Addr → Option Addr →
    Method Value (Option Addr × Option Addr)
  | _, previous, none => pure (previous, none)
  | 0, _, some _ => Program.stuck
  | fuel + 1, previous, some node =>
      if node = target then
        pure (previous, some node)
      else do
        let cell ← read node
        seek target fuel (some node) cell.memberNext

/-- Unlink from a bucket what follows a node, or its first node. -/
def unlinkBucket (bucket : Nat) (next : Option Addr) : Option Addr → Method Value Unit
  | none => modifySelf fun self =>
      { self with vectorHashTable := self.vectorHashTable.set bucket next }
  | some previous => write previous fun cell => { cell with memberNext := next }

/-- Make the node before an erased one, or the head pointer, skip it. -/
def unlinkPrev (next : Option Addr) : Option Addr → Method Value Unit
  | some previous => write previous fun cell => { cell with overallListNext := next }
  | none => modifySelf fun self => { self with overallListHeadNode := next }

/-- Make the node after an erased one, or the tail pointer, skip it. -/
def unlinkNext (previous : Option Addr) : Option Addr → Method Value Unit
  | some next => write next fun cell => { cell with overallListPrev := previous }
  | none => modifySelf fun self => { self with overallListBeforeNode := previous }

/-- `EraseNode`. -/
def eraseNode (target : Addr) (bucket : Nat) : Method Value Bool := do
  let state ← get
  let head ← slot state.self.vectorHashTable bucket
  match ← seek target state.heap.next none head with
  | (_, none) => return false
  | (previous, some node) => do
      let cell ← read node
      unlinkBucket bucket cell.memberNext previous
      unlinkPrev cell.overallListNext cell.overallListPrev
      unlinkNext cell.overallListPrev cell.overallListNext
      delete node
      modifySelf fun self => { self with memberSize := decrement self.memberSize }
      return true

/-- The end of `Pop` and `PopKey`: erase the target from the bucket of its hash. -/
def eraseFrom (hash : Method Value UInt64) (target : Addr) : Method Value Bool := do
  let state ← get
  let fullHash ← hash
  let bucket ← bucketOf fullHash state.self.hashCapacity
  eraseNode target bucket

variable [DecidableEq Key]

/-- `Pop`. -/
def pop (value : Value) : Method Value Bool := do
  let state ← get
  match ← find policy value with
  | none => return false
  | some target => do
      if state.self.hashCapacity = 0 then
        return false
      else
        eraseFrom (hashOfValue policy value) target

/-- `PopKey`, which looks at the capacity first. -/
def popKey (keyValue : Key) : Method Value Bool := do
  let state ← get
  if state.self.hashCapacity = 0 then
    return false
  else
    match ← findNodeByKey policy keyValue with
    | none => return false
    | some target => eraseFrom (hashOfKey policy keyValue) target

end Elements

section Lifetime

variable (policy : Policy Key Value)

/-- The inner loop of `ClearNodes`. -/
def clearBucket : Nat → Option Addr → Method Value Unit
  | _, none => return ()
  | 0, some _ => Program.stuck
  | fuel + 1, some node => do
      let cell ← read node
      delete node
      clearBucket fuel cell.memberNext

/-- The outer loop of `ClearNodes`. -/
def clearBuckets (fuel : Nat) : List (Option Addr) → Method Value Unit
  | [] => return ()
  | head :: buckets => do
      clearBucket fuel head
      clearBuckets fuel buckets

/-- `ClearNodes`. -/
def clearNodes : Method Value Unit := do
  let state ← get
  clearBuckets state.heap.next state.self.vectorHashTable
  modifySelf fun self =>
    { self with
      vectorHashTable := self.vectorHashTable.map fun _ => none
      memberSize := 0
      overallListBeforeNode := none
      overallListHeadNode := none }

/-- The fields of a table without buckets. -/
def blank (loadFactor hashCapacity : Nat) : HashTable :=
  ⟨0, loadFactor, hashCapacity, [], none, none⟩

/-- What a move leaves behind. -/
def movedFrom : HashTable := blank 7 0

/-- The constructor from a capacity, which is 10 by default, on `blank 7 capacity`. -/
def construct (newHashTableCapacity : UInt64) : Method Value Unit := do
  let buckets ← sizeAdjust policy newHashTableCapacity.toNat
  modifySelf fun self => { self with vectorHashTable := buckets }

/-- The loop of the copy constructor. -/
def copyNodes : Nat → Option Addr → Method Value Unit
  | _, none => return ()
  | 0, some _ => Program.stuck
  | fuel + 1, some source => do
      let cell ← read source
      let copy ← newNode policy cell.memberData
      let hash ← hashOfValue policy cell.memberData
      let state ← get
      let bucket ← bucketOf hash state.self.hashCapacity
      linkNode copy bucket
      copyNodes fuel cell.overallListNext

/-- The copy constructor, on `blank` with the load factor and capacity of the source. -/
def copyConstruct (source : HashTable) : Method Value Unit := do
  let state ← get
  if state.self.hashCapacity = 0 then
    return ()
  else
    let buckets ← sizeAdjust policy state.self.hashCapacity
    modifySelf fun self => { self with vectorHashTable := buckets }
    Program.guarded (copyNodes policy state.heap.next source.overallListHeadNode) clearNodes

end Lifetime

section Iteration

/-- The elements met by incrementing an iterator until it is `End`. -/
def collect : Nat → Option Addr → Method Value (List Value)
  | _, none => return []
  | 0, some _ => Program.stuck
  | fuel + 1, some node => do
      let cell ← read node
      let rest ← collect fuel cell.overallListNext
      return cell.memberData :: rest

/-- The elements from `Begin` to `End`. -/
def elements : Method Value (List Value) := do
  let state ← get
  collect state.heap.next state.self.overallListHeadNode

end Iteration

end HashTable

end Wan.Container
