import Wan.Library.Packed
import Wan.Library.Positions
import Wan.Library.Program
import Wan.Container.Vector.Methods
import Mathlib.Data.Finset.Card
import Mathlib.Data.Finset.Range

/-!
# The bit set of `Container/Base.hpp`

`BitSet` over the list that its vector of words stands for.  `Vector::SizeAdjust` does to that
list what `Vector.adjusted` says; whether the allocator grants the storage that more words may
need is an argument of the calls.
-/

namespace Wan.Container

open Wan.Library

/-- `BitSet`. -/
structure BitSet where
  vectorBitSet : List (BitVec 32)
  memberSize : UInt64
  memberCapacity : UInt64
  deriving DecidableEq, Repr

namespace BitSet

/-- What a call throws. -/
inductive Failure where
  /-- `CustomException::Fault`. -/
  | fault (what functionName : String)
  /-- `std::out_of_range`. -/
  | outOfRange (what : String)
  /-- `std::length_error`. -/
  | lengthError (what : String)
  /-- `std::bad_alloc`. -/
  | badAlloc
  /-- `std::invalid_argument`. -/
  | invalidArgument (what : String)
  deriving DecidableEq, Repr

/-- A member function. -/
abbrev Method (α : Type) := Program BitSet Failure α

/-- `BitSet()`. -/
def empty : BitSet := ⟨[], 0, 0⟩

/-- `VectorBitSet[…]` as a value. -/
def subscript (accessLocation : UInt64) : Method (BitVec 32) := do
  let bitSet ← get
  Program.require (.fault "传入参数越界" "vector::operator[]")
    bitSet.vectorBitSet[accessLocation.toNat]?

/-- An assignment to `VectorBitSet[…]`. -/
def assign (accessLocation : UInt64) (word : BitVec 32) : Method Unit := do
  let _ ← subscript accessLocation
  modify fun bitSet =>
    { bitSet with vectorBitSet := bitSet.vectorBitSet.set accessLocation.toNat word }

/-- `VectorBitSet.SizeAdjust`. -/
def sizeAdjust (maxSize : Nat) (granted : Bool) (dataSize : UInt64) (padding : BitVec 32) :
    Method Unit := do
  let bitSet ← get
  Program.refuse (maxSize < dataSize.toNat) (.lengthError "Vector size exceeds max_size")
  Program.refuse (bitSet.vectorBitSet.length < dataSize.toNat ∧ granted = false) .badAlloc
  modify fun bitSet =>
    { bitSet with vectorBitSet := Vector.adjusted bitSet.vectorBitSet dataSize.toNat padding }

/-- `BitSet(NewCapacity)`, on a bit set without words. -/
def construct (maxSize : Nat) (granted : Bool) (newCapacity : UInt64) : Method Unit := do
  modify fun bitSet => { bitSet with memberSize := 0, memberCapacity := newCapacity }
  sizeAdjust maxSize granted (newCapacity / 32 + 1) 0

/-- `Resize`. -/
def resize (maxSize : Nat) (granted : Bool) (newCapacity : UInt64) : Method Unit := do
  sizeAdjust maxSize granted (newCapacity / 32 + 1) 0
  let bitSet ← get
  forM (List.range bitSet.vectorBitSet.length) fun index => assign (.ofNat index) 0
  modify fun bitSet => { bitSet with memberSize := 0, memberCapacity := newCapacity }

/-- `std::uint32_t{1} << ValueBit`. -/
def mask (valueData : UInt64) : BitVec 32 := 1#32 <<< (valueData % 32).toNat

/-- `Set`. -/
def set (valueData : UInt64) : Method Unit := do
  let bitSet ← get
  Program.refuse (bitSet.memberCapacity ≤ valueData) (.outOfRange "BitSet index out of range")
  let mappingBit := valueData / 32
  let word ← subscript mappingBit
  if word &&& mask valueData = 0 then
    assign mappingBit (word ||| mask valueData)
    modify fun bitSet => { bitSet with memberSize := bitSet.memberSize + 1 }

/-- `Reset`. -/
def reset (valueData : UInt64) : Method Unit := do
  let bitSet ← get
  Program.refuse (bitSet.memberCapacity ≤ valueData) (.outOfRange "BitSet index out of range")
  let mappingBit := valueData / 32
  let word ← subscript mappingBit
  if word &&& mask valueData ≠ 0 then
    assign mappingBit (word &&& ~~~mask valueData)
    modify fun bitSet => { bitSet with memberSize := bitSet.memberSize - 1 }

/-- `Test`. -/
def test (valueData : UInt64) : Method Bool := do
  let bitSet ← get
  if bitSet.memberCapacity ≤ valueData then
    return false
  else
    let mappingBit := valueData / 32
    let word ← subscript mappingBit
    return word &&& mask valueData ≠ 0

/-- The bit set stands for a set of numbers below its capacity. -/
structure Represents (bitSet : BitSet) (members : Finset Nat) : Prop where
  room : bitSet.memberCapacity.toNat < 32 * bitSet.vectorBitSet.length ∨
    bitSet.memberCapacity = 0
  below : ∀ index ∈ members, index < bitSet.memberCapacity.toNat
  bits : ∀ index, index < bitSet.memberCapacity.toNat →
    (index ∈ members ↔ Packed.bit bitSet.vectorBitSet index = true)
  size : bitSet.memberSize.toNat = members.card

section Steps

variable {bitSet : BitSet} {members : Finset Nat} {valueData : UInt64}

theorem represents_empty : Represents empty ∅ where
  room := .inr rfl
  below := fun _ member => absurd member (Finset.notMem_empty _)
  bits := fun index inside => absurd inside (Nat.not_lt_zero index)
  size := rfl

/-- The cached size is below the bound of its type while a number is missing. -/
theorem Represents.card_lt (represents : Represents bitSet members)
    (inside : valueData < bitSet.memberCapacity) (missing : valueData.toNat ∉ members) :
    members.card + 1 < 2 ^ 64 := by
  have within : insert valueData.toNat members ⊆ Finset.range bitSet.memberCapacity.toNat := by
    intro index member
    rw [Finset.mem_range]
    rcases Finset.mem_insert.mp member with rfl | member
    · exact UInt64.lt_iff_toNat_lt.mp inside
    · exact represents.below index member
  have count := Finset.card_le_card within
  rw [Finset.card_insert_of_notMem missing, Finset.card_range] at count
  exact Nat.lt_of_le_of_lt count bitSet.memberCapacity.toNat_lt

theorem Represents.word (represents : Represents bitSet members)
    (inside : valueData < bitSet.memberCapacity) :
    ∃ word, bitSet.vectorBitSet[valueData.toNat / 32]? = some word := by
  have below := UInt64.lt_iff_toNat_lt.mp inside
  have there : valueData.toNat / 32 < bitSet.vectorBitSet.length := by
    rcases represents.room with room | nothing
    · omega
    · rw [nothing] at below
      cases below
  exact ⟨_, List.getElem?_eq_getElem there⟩

variable {word : BitVec 32} {accessLocation : UInt64}
variable {raises : Failure → BitSet → Prop}

theorem runs_subscript {post : BitVec 32 → BitSet → Prop}
    (there : bitSet.vectorBitSet[accessLocation.toNat]? = some word) :
    Program.Runs (subscript accessLocation) bitSet post raises ↔ post word bitSet := by
  rw [subscript, Program.runs_bind, Program.runs_get, there, Program.runs_require_some]

theorem runs_assign {post : Unit → BitSet → Prop} {changed : BitVec 32}
    (there : bitSet.vectorBitSet[accessLocation.toNat]? = some word) :
    Program.Runs (assign accessLocation changed) bitSet post raises ↔
      post () { bitSet with
        vectorBitSet := bitSet.vectorBitSet.set accessLocation.toNat changed } := by
  rw [assign, Program.runs_bind, runs_subscript there, Program.runs_modify]

theorem mask_eq : mask valueData = Packed.mask 32 valueData.toNat := by
  rw [mask, Packed.mask, BitVec.twoPow_eq, UInt64.toNat_mod]
  rfl

theorem location_eq : (valueData / 32).toNat = valueData.toNat / 32 := by
  rw [UInt64.toNat_div]
  rfl

/-- A changed word keeps what the bit set stands for but for one number. -/
theorem Represents.changed (represents : Represents bitSet members) {later : BitSet}
    {changed : Finset Nat} (words : later.vectorBitSet.length = bitSet.vectorBitSet.length)
    (capacity : later.memberCapacity = bitSet.memberCapacity)
    (below : ∀ index ∈ changed, index ∈ members ∨ index < bitSet.memberCapacity.toNat)
    (bits : ∀ index, index < bitSet.memberCapacity.toNat →
      (index ∈ changed ↔ Packed.bit later.vectorBitSet index = true))
    (size : later.memberSize.toNat = changed.card) : Represents later changed where
  room := by rw [words, capacity]; exact represents.room
  below := fun index member => by
    rw [capacity]
    exact (below index member).elim (represents.below index) id
  bits := by rw [capacity]; exact bits
  size := size

/-- `Set` adds a number below the capacity. -/
theorem runs_set (represents : Represents bitSet members) :
    Program.Runs (set valueData) bitSet
      (fun _ later => valueData < bitSet.memberCapacity ∧
        later.memberCapacity = bitSet.memberCapacity ∧
        Represents later (insert valueData.toNat members))
      fun exception later => ¬valueData < bitSet.memberCapacity ∧
        exception = .outOfRange "BitSet index out of range" ∧ later = bitSet := by
  rw [set, Program.runs_bind, Program.runs_get, Program.runs_bind, Program.runs_refuse]
  refine ⟨fun outside => ⟨UInt64.not_lt.mpr outside, rfl, rfl⟩, fun inside => ?_⟩
  have inside := UInt64.not_le.mp inside
  have below := UInt64.lt_iff_toNat_lt.mp inside
  rcases represents.word inside with ⟨word, there⟩
  have there' : bitSet.vectorBitSet[(valueData / 32).toNat]? = some word := location_eq ▸ there
  rw [Program.runs_bind, runs_subscript there', mask_eq]
  by_cases missing : word &&& Packed.mask 32 valueData.toNat = 0
  · rw [if_pos missing, Program.runs_bind, runs_assign there', Program.runs_modify, location_eq]
    have clear := (Packed.and_mask_eq_zero (by decide) there).mp missing
    have notMember : valueData.toNat ∉ members := by
      rw [represents.bits _ below, clear]
      exact Bool.false_ne_true
    refine ⟨inside, rfl, represents.changed (List.length_set ..) rfl ?_ ?_ ?_⟩
    · intro index member
      rcases Finset.mem_insert.mp member with rfl | member
      · exact .inr below
      · exact .inl member
    · intro index within
      rw [Packed.bit_or (by decide) there, Bool.or_eq_true, decide_eq_true_eq,
        Finset.mem_insert, represents.bits index within]
    · rw [UInt64.toNat_add, Finset.card_insert_of_notMem notMember, represents.size]
      exact Nat.mod_eq_of_lt (represents.card_lt inside notMember)
  · rw [if_neg missing, Program.runs_pure]
    have lit : Packed.bit bitSet.vectorBitSet valueData.toNat = true :=
      Bool.eq_true_of_not_eq_false (mt (Packed.and_mask_eq_zero (by decide) there).mpr missing)
    rw [Finset.insert_eq_of_mem ((represents.bits _ below).mpr lit)]
    exact ⟨inside, rfl, represents⟩

/-- `Reset` takes a number below the capacity away. -/
theorem runs_reset (represents : Represents bitSet members) :
    Program.Runs (reset valueData) bitSet
      (fun _ later => valueData < bitSet.memberCapacity ∧
        later.memberCapacity = bitSet.memberCapacity ∧
        Represents later (members.erase valueData.toNat))
      fun exception later => ¬valueData < bitSet.memberCapacity ∧
        exception = .outOfRange "BitSet index out of range" ∧ later = bitSet := by
  rw [reset, Program.runs_bind, Program.runs_get, Program.runs_bind, Program.runs_refuse]
  refine ⟨fun outside => ⟨UInt64.not_lt.mpr outside, rfl, rfl⟩, fun inside => ?_⟩
  have inside := UInt64.not_le.mp inside
  have below := UInt64.lt_iff_toNat_lt.mp inside
  rcases represents.word inside with ⟨word, there⟩
  have there' : bitSet.vectorBitSet[(valueData / 32).toNat]? = some word := location_eq ▸ there
  rw [Program.runs_bind, runs_subscript there', mask_eq]
  by_cases missing : word &&& Packed.mask 32 valueData.toNat = 0
  · rw [if_neg (not_not.mpr missing), Program.runs_pure]
    have notMember : valueData.toNat ∉ members := by
      rw [represents.bits _ below, (Packed.and_mask_eq_zero (by decide) there).mp missing]
      exact Bool.false_ne_true
    rw [Finset.erase_eq_of_notMem notMember]
    exact ⟨inside, rfl, represents⟩
  · rw [if_pos missing, Program.runs_bind, runs_assign there', Program.runs_modify, location_eq]
    have lit : Packed.bit bitSet.vectorBitSet valueData.toNat = true :=
      Bool.eq_true_of_not_eq_false (mt (Packed.and_mask_eq_zero (by decide) there).mpr missing)
    have member := (represents.bits _ below).mpr lit
    refine ⟨inside, rfl, represents.changed (List.length_set ..) rfl ?_ ?_ ?_⟩
    · intro index member
      exact .inl (Finset.mem_of_mem_erase member)
    · intro index within
      rw [Packed.bit_and_not (by decide) there, Bool.and_eq_true, Bool.not_eq_true',
        decide_eq_false_iff_not, Finset.mem_erase, represents.bits index within]
    · have positive : 1 ≤ members.card := Finset.card_pos.mpr ⟨_, member⟩
      have some : (1 : UInt64) ≤ bitSet.memberSize := by
        rw [UInt64.le_iff_toNat_le, represents.size]
        exact positive
      rw [UInt64.toNat_sub_of_le _ _ some, represents.size, Finset.card_erase_of_mem member]
      rfl

/-- `Test` tells whether a number is in the set. -/
theorem runs_test (represents : Represents bitSet members) :
    Program.Runs (test valueData) bitSet
      (fun answer later => later = bitSet ∧ (answer = true ↔ valueData.toNat ∈ members))
      fun _ _ => False := by
  rw [test, Program.runs_bind, Program.runs_get]
  by_cases outside : bitSet.memberCapacity ≤ valueData
  · rw [if_pos outside, Program.runs_pure]
    refine ⟨rfl, Bool.false_ne_true.elim, fun member => ?_⟩
    have below := UInt64.lt_iff_toNat_lt.mpr (represents.below _ member)
    exact absurd below (UInt64.not_lt.mpr outside)
  · have inside := UInt64.not_le.mp outside
    rcases represents.word inside with ⟨word, there⟩
    rw [if_neg outside, Program.runs_bind, runs_subscript (location_eq ▸ there),
      Program.runs_pure, decide_eq_true_eq, mask_eq, Ne,
      Packed.and_mask_eq_zero (by decide) there, Bool.not_eq_false,
      represents.bits _ (UInt64.lt_iff_toNat_lt.mp inside)]
    exact ⟨rfl, Iff.rfl⟩

/-- The words are cleared one by one. -/
theorem runs_clear {post : Unit → BitSet → Prop} (count : Nat)
    (within : count ≤ bitSet.vectorBitSet.length)
    (representable : bitSet.vectorBitSet.length < 2 ^ 64) :
    Program.Runs (forM (List.range count) fun index => assign (.ofNat index) 0) bitSet post
        raises ↔
      post () { bitSet with
        vectorBitSet := List.replicate count 0 ++ bitSet.vectorBitSet.drop count } := by
  induction count generalizing post raises with
  | zero =>
      rw [List.range_zero, List.forM_nil, Program.runs_pure, List.drop_zero]
      rfl
  | succ count ih =>
      have place : (UInt64.ofNat count).toNat = count :=
        UInt64.toNat_ofNat_of_lt' (Nat.lt_of_lt_of_le within (Nat.le_of_lt representable))
      have split := List.drop_eq_getElem_cons within
      have length : (List.replicate count (0 : BitVec 32)).length = count := List.length_replicate
      have there : (List.replicate count 0 ++ bitSet.vectorBitSet[count] ::
          bitSet.vectorBitSet.drop (count + 1))[(UInt64.ofNat count).toNat]? =
            some bitSet.vectorBitSet[count] := by
        rw [place]
        exact getElem?_at length.symm
      rw [List.range_succ, List.forM_append, Program.runs_bind, ih (Nat.le_of_lt within), split,
        List.forM_cons, Program.runs_bind, runs_assign there, List.forM_nil,
        Program.runs_pure, place, set_at length.symm, List.replicate_succ',
        List.append_assoc]
      rfl

variable {maxSize : Nat} {granted : Bool} {newCapacity : UInt64}

/-- There is a word behind the last one that the capacity needs. -/
theorem words_eq : (newCapacity / 32 + 1).toNat = newCapacity.toNat / 32 + 1 := by
  have small := newCapacity.toNat_lt
  rw [UInt64.toNat_add, UInt64.toNat_div]
  show (newCapacity.toNat / 32 + 1) % 2 ^ 64 = newCapacity.toNat / 32 + 1
  omega

/-- The vector of words is adjusted unless this is refused. -/
theorem runs_sizeAdjust {dataSize : UInt64} {padding : BitVec 32} {post : Unit → BitSet → Prop}
    (accepted : post () { bitSet with
      vectorBitSet := Vector.adjusted bitSet.vectorBitSet dataSize.toNat padding })
    (refused : ∀ exception, exception = .lengthError "Vector size exceeds max_size" ∨
      exception = .badAlloc → raises exception bitSet) :
    Program.Runs (sizeAdjust maxSize granted dataSize padding) bitSet post raises := by
  rw [sizeAdjust, Program.runs_bind, Program.runs_get, Program.runs_bind, Program.runs_refuse]
  refine ⟨fun _ => refused _ (.inl rfl), fun _ => ?_⟩
  rw [Program.runs_bind, Program.runs_refuse, Program.runs_modify]
  exact ⟨fun _ => refused _ (.inr rfl), fun _ => accepted⟩

/-- An adjusted list has the size that it was given. -/
theorem length_adjusted {V : Type} (list : List V) (size : Nat) (padding : V) :
    (Vector.adjusted list size padding).length = size := by
  rw [Vector.adjusted, List.length_append, List.length_take, List.length_replicate]
  omega

/-- Cleared words stand for the empty set. -/
theorem represents_cleared : Represents
    ⟨List.replicate (newCapacity.toNat / 32 + 1) 0, 0, newCapacity⟩ ∅ where
  room := .inl <| by
    show newCapacity.toNat < 32 * (List.replicate (newCapacity.toNat / 32 + 1) 0).length
    rw [List.length_replicate]
    omega
  below := fun _ member => absurd member (Finset.notMem_empty _)
  bits := fun index _ => by
    rw [Packed.bit_zero fun word member => List.eq_of_mem_replicate member]
    simp
  size := rfl

/-- `Resize` clears everything, or changes nothing. -/
theorem runs_resize :
    Program.Runs (resize maxSize granted newCapacity) bitSet
      (fun _ later => later.memberCapacity = newCapacity ∧ Represents later ∅)
      fun exception later => (exception = .lengthError "Vector size exceeds max_size" ∨
        exception = .badAlloc) ∧ later = bitSet := by
  rw [resize, Program.runs_bind]
  refine runs_sizeAdjust ?_ fun exception refusal => ⟨refusal, rfl⟩
  have length := length_adjusted bitSet.vectorBitSet (newCapacity / 32 + 1).toNat 0
  rw [Program.runs_bind, Program.runs_get, Program.runs_bind,
    runs_clear _ (Nat.le_refl _) (lt_of_eq_of_lt length (UInt64.toNat_lt _)),
    Program.runs_modify, length, List.drop_eq_nil_of_le length.le, List.append_nil, words_eq]
  exact ⟨rfl, represents_cleared⟩

/-- `BitSet(NewCapacity)` yields an empty set. -/
theorem runs_construct :
    Program.Runs (construct maxSize granted newCapacity) empty
      (fun _ later => later.memberCapacity = newCapacity ∧ Represents later ∅)
      fun exception _ => exception = .lengthError "Vector size exceeds max_size" ∨
        exception = .badAlloc := by
  rw [construct, Program.runs_bind, Program.runs_modify]
  refine runs_sizeAdjust ?_ fun exception refusal => refusal
  rw [Vector.adjusted, words_eq, empty, List.take_nil, List.length_nil, Nat.sub_zero,
    List.nil_append]
  exact ⟨rfl, represents_cleared⟩

end Steps

section Runs

/-- The calls that change a bit set. -/
inductive Operation where
  | set (valueData : UInt64)
  | reset (valueData : UInt64)
  | resize (granted : Bool) (newCapacity : UInt64)
  deriving DecidableEq, Repr

/-- Make a call. -/
def Operation.execute (maxSize : Nat) : Operation → Method Unit
  | .set valueData => BitSet.set valueData
  | .reset valueData => BitSet.reset valueData
  | .resize granted newCapacity => BitSet.resize maxSize granted newCapacity

/-- A call, with the calls so far that did not throw, the last one first. -/
def step (maxSize : Nat) (state : BitSet × List Operation) (operation : Operation) :
    Option (BitSet × List Operation) :=
  match (operation.execute maxSize).run.run state.1 with
  | none => none
  | some (.ok _, later) => some (later, operation :: state.2)
  | some (.error _, later) => some (later, state.2)

/-- A sequence of calls. -/
def run (maxSize : Nat) (bitSet : BitSet) (operations : List Operation) :
    Option (BitSet × List Operation) :=
  operations.foldlM (step maxSize) (bitSet, [])

/-- The last `Set` or `Reset` of a number since the last `Resize` was a `Set`. -/
def lastIsSet (index : Nat) : List Operation → Bool
  | [] => false
  | .set valueData :: earlier => if index = valueData.toNat then true else lastIsSet index earlier
  | .reset valueData :: earlier =>
      if index = valueData.toNat then false else lastIsSet index earlier
  | .resize _ _ :: _ => false

/-- The capacity that the last `Resize` or, without one, the constructor set. -/
def lastCapacity (initial : UInt64) : List Operation → UInt64
  | [] => initial
  | .resize _ newCapacity :: _ => newCapacity
  | .set _ :: earlier => lastCapacity initial earlier
  | .reset _ :: earlier => lastCapacity initial earlier

/-- The bit sets that constructors yield. -/
inductive Created (maxSize : Nat) : BitSet → Prop where
  | empty : Created maxSize .empty
  | sized {granted : Bool} {newCapacity : UInt64} {bitSet : BitSet}
      (constructed : (construct maxSize granted newCapacity).run.run .empty =
        some (.ok (), bitSet)) : Created maxSize bitSet

/-- What calls have made of a bit set. -/
structure Reached (initial : UInt64) (state : BitSet × List Operation) (members : Finset Nat) :
    Prop where
  represents : Represents state.1 members
  capacity : state.1.memberCapacity = lastCapacity initial state.2
  last : ∀ index, index ∈ members ↔ lastIsSet index state.2 = true

variable {maxSize : Nat} {initial : UInt64} {state : BitSet × List Operation}
variable {bitSet : BitSet} {members : Finset Nat}

theorem Created.reached (created : Created maxSize bitSet) :
    Reached bitSet.memberCapacity (bitSet, []) ∅ where
  represents := by
    cases created with
    | empty => exact represents_empty
    | sized constructed => exact (runs_construct.ended constructed).2
  capacity := rfl
  last _ := by simp [lastIsSet]

/-- A call that changes nothing when it throws. -/
theorem Reached.call (reached : Reached initial state members) {operation : Operation}
    {post : Unit → BitSet → Prop} {raises : Failure → BitSet → Prop}
    (runs : Program.Runs (operation.execute maxSize) state.1 post raises)
    (returned : ∀ later, post () later →
      ∃ members', Reached initial (later, operation :: state.2) members')
    (thrown : ∀ exception later, raises exception later → later = state.1) :
    ∃ later members', step maxSize state operation = some later ∧
      Reached initial later members' := by
  rcases runs.outcome with ⟨_, later, ran, done⟩ | ⟨exception, later, ran, failed⟩
  · rcases returned later done with ⟨members', reached'⟩
    exact ⟨(later, operation :: state.2), members', by rw [BitSet.step, ran], reached'⟩
  · have same := thrown exception later failed
    exact ⟨state, members, by rw [BitSet.step, ran, same], reached⟩

/-- A call keeps what calls have made of a bit set. -/
theorem Reached.step (reached : Reached initial state members) (operation : Operation) :
    ∃ later members', step maxSize state operation = some later ∧
      Reached initial later members' := by
  cases operation with
  | set valueData =>
      refine reached.call (runs_set reached.represents) ?_ fun _ _ failed => failed.2.2
      rintro later ⟨_, kept, represents⟩
      refine ⟨_, represents, kept.trans reached.capacity, fun index => ?_⟩
      rw [Finset.mem_insert, reached.last, lastIsSet]
      by_cases same : index = valueData.toNat <;> simp [same]
  | reset valueData =>
      refine reached.call (runs_reset reached.represents) ?_ fun _ _ failed => failed.2.2
      rintro later ⟨_, kept, represents⟩
      refine ⟨_, represents, kept.trans reached.capacity, fun index => ?_⟩
      rw [Finset.mem_erase, reached.last, lastIsSet]
      by_cases same : index = valueData.toNat <;> simp [same]
  | resize granted newCapacity =>
      refine reached.call runs_resize ?_ fun _ _ failed => failed.2
      rintro later ⟨capacity, represents⟩
      refine ⟨∅, represents, capacity, fun index => ?_⟩
      simp [lastIsSet]

theorem reached_run (reached : Reached initial state members) (operations : List Operation) :
    ∃ later members', operations.foldlM (BitSet.step maxSize) state = some later ∧
      Reached initial later members' := by
  induction operations generalizing state members with
  | nil => exact ⟨state, members, rfl, reached⟩
  | cons operation operations ih =>
      rcases reached.step operation with ⟨next, members', taken, reached⟩
      rw [List.foldlM_cons, taken]
      exact ih reached

/-- What a bit set shows of the calls that were made. -/
structure Correct (maxSize : Nat) (initial : UInt64) (bitSet : BitSet)
    (returned : List Operation) : Prop where
  capacity : bitSet.memberCapacity = lastCapacity initial returned
  test : ∀ valueData, Program.Runs (test valueData) bitSet
    (fun answer later => later = bitSet ∧
      (answer = true ↔ valueData < bitSet.memberCapacity ∧
        lastIsSet valueData.toNat returned = true))
    fun _ _ => False
  size : bitSet.memberSize.toNat = ((Finset.range bitSet.memberCapacity.toNat).filter fun index =>
    lastIsSet index returned = true).card
  words : ∀ valueData, valueData < bitSet.memberCapacity →
    (valueData / 32).toNat < bitSet.vectorBitSet.length
  set : ∀ valueData, Program.Runs (set valueData) bitSet
    (fun _ _ => valueData < bitSet.memberCapacity)
    fun exception later => ¬valueData < bitSet.memberCapacity ∧
      exception = .outOfRange "BitSet index out of range" ∧ later = bitSet
  reset : ∀ valueData, Program.Runs (reset valueData) bitSet
    (fun _ _ => valueData < bitSet.memberCapacity)
    fun exception later => ¬valueData < bitSet.memberCapacity ∧
      exception = .outOfRange "BitSet index out of range" ∧ later = bitSet
  resize : ∀ granted newCapacity, Program.Runs (resize maxSize granted newCapacity) bitSet
    (fun _ later => later.memberCapacity = newCapacity)
    fun exception later => (exception = .lengthError "Vector size exceeds max_size" ∨
      exception = .badAlloc) ∧ later = bitSet

theorem Reached.correct (reached : Reached initial state members) :
    Correct maxSize initial state.1 state.2 where
  capacity := reached.capacity
  test valueData := by
    refine (runs_test reached.represents).mono ?_ fun _ _ => id
    intro answer later ⟨same, answered⟩
    refine ⟨same, answered.trans ⟨fun member => ⟨?_, (reached.last _).mp member⟩, fun both =>
      (reached.last _).mpr both.2⟩⟩
    exact UInt64.lt_iff_toNat_lt.mpr (reached.represents.below _ member)
  size := by
    rw [reached.represents.size]
    congr 1
    ext index
    rw [Finset.mem_filter, Finset.mem_range, ← reached.last]
    exact ⟨fun member => ⟨reached.represents.below index member, member⟩, And.right⟩
  words valueData inside := by
    rcases reached.represents.word inside with ⟨word, there⟩
    rw [location_eq]
    exact (List.getElem?_eq_some_iff.mp there).1
  set _ := (runs_set reached.represents).mono (fun _ _ done => done.1) fun _ _ => id
  reset _ := (runs_reset reached.represents).mono (fun _ _ done => done.1) fun _ _ => id
  resize _ _ := runs_resize.mono (fun _ _ done => done.1) fun _ _ => id

end Runs

end BitSet

end Wan.Container
