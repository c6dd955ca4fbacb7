import Wan.Container.BitSet

/-!
# The Bloom filter of `Container/Bloom.hpp`
-/

namespace Wan.Container

open Wan.Library

/-- The three hash functions of `BloomFilterHashFunctor`. -/
structure HashFunctor (BloomFilterTypeValue : Type) where
  hashSdmmhash : BloomFilterTypeValue → UInt64
  hashDjbhash : BloomFilterTypeValue → UInt64
  hashPjwhash : BloomFilterTypeValue → UInt64

/-- `BloomFilter`. -/
structure BloomFilter where
  instanceBitSet : BitSet
  memberCapacity : UInt64
  deriving DecidableEq, Repr

namespace BloomFilter

variable {BloomFilterTypeValue : Type} (hashFunctionsObject : HashFunctor BloomFilterTypeValue)

/-- A member function. -/
abbrev Method (α : Type) := Program BloomFilter BitSet.Failure α

/-- A call on `InstanceBitSet`. -/
def onInstanceBitSet {α : Type} (method : BitSet.Method α) : Method α :=
  Program.onPart instanceBitSet (fun filter bitSet => { filter with instanceBitSet := bitSet })
    method

/-- The members before the body of a constructor. -/
def uninitialized : BloomFilter := ⟨.empty, 0⟩

/-- `BloomFilter(TempCapacity)`. -/
def construct (maxSize : Nat) (granted : Bool) (tempCapacity : UInt64) : Method Unit := do
  Program.refuse (tempCapacity = 0)
    (.invalidArgument "BloomFilter capacity must be greater than zero")
  modify fun filter => { filter with memberCapacity := tempCapacity }
  onInstanceBitSet (BitSet.resize maxSize granted tempCapacity)

/-- `Test`. -/
def test (tempBfMapValue : BloomFilterTypeValue) : Method Bool := do
  let filter ← get
  let primaryMappingLocation :=
    hashFunctionsObject.hashSdmmhash tempBfMapValue % filter.memberCapacity
  let secondaryMappingLocation :=
    hashFunctionsObject.hashDjbhash tempBfMapValue % filter.memberCapacity
  let tertiaryMappingLocation :=
    hashFunctionsObject.hashPjwhash tempBfMapValue % filter.memberCapacity
  if (← onInstanceBitSet (BitSet.test primaryMappingLocation)) then
    if (← onInstanceBitSet (BitSet.test secondaryMappingLocation)) then
      onInstanceBitSet (BitSet.test tertiaryMappingLocation)
    else
      return false
  else
    return false

/-- `Set`. -/
def set (tempBfMapValue : BloomFilterTypeValue) : Method Unit := do
  let filter ← get
  let primaryMappingLocation :=
    hashFunctionsObject.hashSdmmhash tempBfMapValue % filter.memberCapacity
  let secondaryMappingLocation :=
    hashFunctionsObject.hashDjbhash tempBfMapValue % filter.memberCapacity
  let tertiaryMappingLocation :=
    hashFunctionsObject.hashPjwhash tempBfMapValue % filter.memberCapacity
  onInstanceBitSet (BitSet.set primaryMappingLocation)
  onInstanceBitSet (BitSet.set secondaryMappingLocation)
  onInstanceBitSet (BitSet.set tertiaryMappingLocation)

/-- The positions of a value. -/
def locations (capacity : UInt64) (tempBfMapValue : BloomFilterTypeValue) : Finset Nat :=
  {(hashFunctionsObject.hashSdmmhash tempBfMapValue % capacity).toNat,
    (hashFunctionsObject.hashDjbhash tempBfMapValue % capacity).toNat,
    (hashFunctionsObject.hashPjwhash tempBfMapValue % capacity).toNat}

/-- The filter has a bit for every remainder, and the positions of a set are those of its ones. -/
structure Represents (filter : BloomFilter) (members : Finset Nat) : Prop where
  capacity : filter.instanceBitSet.memberCapacity = filter.memberCapacity
  positive : 0 < filter.memberCapacity
  bitSet : filter.instanceBitSet.Represents members

variable {hashFunctionsObject} {filter : BloomFilter} {members : Finset Nat}
variable {hash capacity : UInt64} {tempBfMapValue : BloomFilterTypeValue}

/-- A bit is set. -/
theorem runs_setBit (represents : Represents filter members)
    (same : filter.memberCapacity = capacity) :
    Program.Runs (onInstanceBitSet (BitSet.set (hash % capacity))) filter
      (fun _ later => later.memberCapacity = capacity ∧
        Represents later (insert (hash % capacity).toNat members))
      fun _ _ => False := by
  subst same
  rw [onInstanceBitSet, Program.runs_onPart]
  refine (BitSet.runs_set represents.bitSet).mono ?_ ?_
  · rintro _ later ⟨_, capacity, set⟩
    exact ⟨rfl, capacity.trans represents.capacity, represents.positive, set⟩
  · rintro _ _ ⟨outside, _⟩
    rw [represents.capacity] at outside
    exact outside (UInt64.mod_lt _ represents.positive)

/-- `Set` sets the bits of a value. -/
theorem runs_set (represents : Represents filter members) :
    Program.Runs (set hashFunctionsObject tempBfMapValue) filter
      (fun _ later => later.memberCapacity = filter.memberCapacity ∧ ∃ members',
        Represents later members' ∧ members ⊆ members' ∧
          locations hashFunctionsObject filter.memberCapacity tempBfMapValue ⊆ members')
      fun _ _ => False := by
  rw [set, Program.runs_bind, Program.runs_get, Program.runs_bind]
  refine (runs_setBit represents rfl).mono ?_ fun _ _ => id
  rintro _ first ⟨same, represents⟩
  rw [Program.runs_bind]
  refine (runs_setBit represents same).mono ?_ fun _ _ => id
  rintro _ second ⟨same, represents⟩
  refine (runs_setBit represents same).mono ?_ fun _ _ => id
  rintro _ third ⟨same, represents⟩
  refine ⟨same, _, represents, fun index member => ?_, fun index member => ?_⟩
  · simp [member]
  · simp only [locations, Finset.mem_insert, Finset.mem_singleton] at member
    rcases member with rfl | rfl | rfl <;> simp

/-- A bit is read. -/
theorem runs_testBit (represents : Represents filter members) {position : UInt64} :
    Program.Runs (onInstanceBitSet (BitSet.test position)) filter
      (fun answer later => later = filter ∧ (answer = true ↔ position.toNat ∈ members))
      fun _ _ => False := by
  rw [onInstanceBitSet, Program.runs_onPart]
  refine (BitSet.runs_test represents.bitSet).mono ?_ fun _ _ => id
  rintro answer later ⟨rfl, answered⟩
  exact ⟨rfl, answered⟩

/-- `Test` tells whether all bits of a value are set. -/
theorem runs_test (represents : Represents filter members) :
    Program.Runs (test hashFunctionsObject tempBfMapValue) filter
      (fun answer later => later = filter ∧ (answer = true ↔
        locations hashFunctionsObject filter.memberCapacity tempBfMapValue ⊆ members))
      fun _ _ => False := by
  simp only [locations, Finset.insert_subset_iff, Finset.singleton_subset_iff]
  rw [test, Program.runs_bind, Program.runs_get, Program.runs_bind]
  refine (runs_testBit represents).mono ?_ fun _ _ => id
  rintro first _ ⟨rfl, primary⟩
  cases first with
  | false =>
      rw [if_neg Bool.false_ne_true, Program.runs_pure]
      exact ⟨rfl, fun never => absurd never Bool.false_ne_true, fun all => primary.mpr all.1⟩
  | true =>
      rw [if_pos rfl, Program.runs_bind]
      refine (runs_testBit represents).mono ?_ fun _ _ => id
      rintro second _ ⟨rfl, secondary⟩
      cases second with
      | false =>
          rw [if_neg Bool.false_ne_true, Program.runs_pure]
          exact ⟨rfl, fun never => absurd never Bool.false_ne_true, fun all =>
            secondary.mpr all.2.1⟩
      | true =>
          rw [if_pos rfl]
          refine (runs_testBit represents).mono ?_ fun _ _ => id
          rintro third _ ⟨rfl, tertiary⟩
          exact ⟨rfl, fun yes => ⟨primary.mp rfl, secondary.mp rfl, tertiary.mp yes⟩, fun all =>
            tertiary.mpr all.2.2⟩

/-- A run of `Set` calls sets the bits of all values. -/
theorem runs_sets (represents : Represents filter members) (values : List BloomFilterTypeValue) :
    Program.Runs (forM values (set hashFunctionsObject)) filter
      (fun _ later => later.memberCapacity = filter.memberCapacity ∧ ∃ members',
        Represents later members' ∧ members ⊆ members' ∧ ∀ value ∈ values,
          locations hashFunctionsObject filter.memberCapacity value ⊆ members')
      fun _ _ => False := by
  induction values generalizing filter members with
  | nil =>
      rw [List.forM_nil, Program.runs_pure]
      exact ⟨rfl, members, represents, Finset.Subset.refl _, by simp⟩
  | cons value values ih =>
      rw [List.forM_cons, Program.runs_bind]
      refine (runs_set represents).mono ?_ fun _ _ => id
      rintro _ next ⟨same, members', represents, grown, here⟩
      refine (ih represents).mono ?_ fun _ _ => id
      rintro _ last ⟨same', members'', represents, grown', there⟩
      refine ⟨same'.trans same, members'', represents, grown.trans grown', ?_⟩
      rw [List.forall_mem_cons]
      exact ⟨here.trans grown', same ▸ there⟩

/-- A filter with bits is constructed unless its vector is refused. -/
theorem runs_construct {maxSize : Nat} {granted : Bool} {tempCapacity : UInt64}
    (positive : 0 < tempCapacity) :
    Program.Runs (construct maxSize granted tempCapacity) uninitialized
      (fun _ later => Represents later ∅)
      fun exception _ => exception = .lengthError "Vector size exceeds max_size" ∨
        exception = .badAlloc := by
  rw [construct, Program.runs_bind, Program.runs_refuse]
  refine ⟨fun zero => absurd positive (by simp [zero]), fun _ => ?_⟩
  rw [Program.runs_bind, Program.runs_modify, onInstanceBitSet, Program.runs_onPart]
  refine BitSet.runs_resize.mono ?_ fun _ _ failed => failed.1
  rintro _ later ⟨capacity, cleared⟩
  exact ⟨capacity, positive, cleared⟩

end BloomFilter

end Wan.Container
