import Wan.Container.HashTable.Guarantee
import Wan.Library.Partial

/-!
# The arithmetic of growth

However `EnsureCapacityForOneMore` and `ChangeLoadFactor` end, the capacity of the table has been
doubled a number of times and has not wrapped around.  This needs no invariant of the table; that
the doubling ends, and never in a division by a zero capacity, does.
-/

namespace Wan.Container.HashTable

open Wan.Library Wan.Library.LinkedList Wan.Library.Program

variable {Key Value : Type}

section Capacity

/-- A capacity, or 10 for a zero one, times a power of two. -/
def DoubledFrom (before after : Nat) : Prop :=
  ∃ doublings, after = before * 2 ^ doublings ∨ before = 0 ∧ after = 10 * 2 ^ doublings

namespace DoubledFrom

variable {before middle after : Nat}

theorem refl (capacity : Nat) : DoubledFrom capacity capacity := ⟨0, .inl (Nat.mul_one _).symm⟩

theorem first : DoubledFrom 0 10 := ⟨0, .inr ⟨rfl, rfl⟩⟩

theorem twice (capacity : Nat) : DoubledFrom capacity (capacity * 2) := ⟨1, .inl rfl⟩

theorem trans (one : DoubledFrom before middle) (other : DoubledFrom middle after) :
    DoubledFrom before after := by
  obtain ⟨first, one⟩ := one
  obtain ⟨second, other⟩ := other
  rcases other with rfl | ⟨rfl, rfl⟩
  · refine ⟨first + second, ?_⟩
    rw [Nat.pow_add, ← Nat.mul_assoc, ← Nat.mul_assoc]
    rcases one with rfl | ⟨zero, rfl⟩
    · exact .inl rfl
    · exact .inr ⟨zero, rfl⟩
  · rcases one with zero | ⟨_, nonzero⟩
    · have zero : before = 0 := by
        rcases Nat.mul_eq_zero.1 zero.symm with zero | power
        · exact zero
        · exact absurd power (Nat.ne_of_gt (Nat.two_pow_pos first))
      exact ⟨second, .inr ⟨zero, rfl⟩⟩
    · exact absurd nonzero.symm
        (Nat.ne_of_gt (Nat.mul_pos (by decide) (Nat.two_pow_pos first)))

end DoubledFrom

/-- Only the buckets and their number have changed, and the number has been doubled. -/
structure Doubled (before after : State Value) : Prop where
  size_eq : after.self.memberSize = before.self.memberSize
  factor_eq : after.self.loadFactor = before.self.loadFactor
  capacity : DoubledFrom before.self.hashCapacity after.self.hashCapacity

instance : Std.Refl (@Doubled Value) where
  refl _ := ⟨rfl, rfl, .refl _⟩

instance : IsTrans (State Value) Doubled where
  trans _ _ _ one other :=
    ⟨other.size_eq.trans one.size_eq, other.factor_eq.trans one.factor_eq,
      one.capacity.trans other.capacity⟩

/-- The fields of the table are the same. -/
def SameFields (before after : State Value) : Prop := after.self = before.self

instance : Std.Refl (@SameFields Value) where
  refl _ := rfl

instance : IsTrans (State Value) SameFields where
  trans _ _ _ one other := Eq.trans other one

end Capacity

section Keeps

variable {policy : Policy Key Value} {state : State Value}

theorem keeps_tick : Keeps SameFields (tick policy) := by
  intro state
  rw [tick, yields_bind, yields_get, yields_bind, yields_set]
  have keeps : Keeps SameFields
      (refuse (policy.faults state.clock = true) .raised : Method Value Unit) := keeps_refuse _ _
  exact keeps { state with clock := state.clock + 1 }

theorem keeps_read (node : Addr) : Keeps SameFields (read node : Method Value _) := by
  apply keeps_bind keeps_get
  intro state
  split
  · exact keeps_pure _
  · exact keeps_stuck

theorem keeps_write (node : Addr) (change : HashTableNode Value → HashTableNode Value) :
    Keeps SameFields (write node change) :=
  keeps_bind (keeps_read node) fun _ state => Std.Refl.refl (r := SameFields) state

theorem keeps_slot (buckets : List (Option Addr)) (index : Nat) :
    Keeps SameFields (slot buckets index : Method Value _) := by
  rw [slot]
  split
  · exact keeps_pure _
  · exact keeps_throw _

theorem keeps_bucketOf (hash : UInt64) (capacity : Nat) :
    Keeps SameFields (bucketOf hash capacity : Method Value _) :=
  keeps_ite keeps_stuck (keeps_pure _)

theorem keeps_allocate (count : Nat) : Keeps SameFields (allocate policy count) :=
  keeps_ite (keeps_pure _) keeps_tick

theorem keeps_sizeAdjust (dataSize : Nat) : Keeps SameFields (sizeAdjust policy dataSize) :=
  keeps_bind (keeps_refuse _ _) fun _ =>
    keeps_bind (keeps_allocate dataSize) fun _ => keeps_pure _

theorem keeps_bucketIndices (newCapacity fuel : Nat) (node : Option Addr) :
    Keeps SameFields (bucketIndices policy newCapacity fuel node) := by
  induction fuel generalizing node with
  | zero =>
      cases node with
      | none => exact keeps_pure _
      | some node => exact keeps_stuck
  | succ fuel ih =>
      cases node with
      | none => exact keeps_pure _
      | some node =>
          apply keeps_bind (keeps_read node)
          intro cell
          apply keeps_bind (keeps_bind keeps_tick fun _ => keeps_pure _)
          intro hash
          apply keeps_bind (keeps_bucketOf hash newCapacity)
          intro bucket
          exact keeps_bind (ih cell.overallListNext) fun _ => keeps_pure _

theorem keeps_relink (newBuckets : List (Option Addr)) (node : Option Addr)
    (indices : List Nat) : Keeps SameFields (relink newBuckets node indices : Method Value _) := by
  induction indices generalizing newBuckets node with
  | nil => exact keeps_pure _
  | cons bucket indices ih =>
      cases node with
      | none => exact keeps_stuck
      | some node =>
          apply keeps_bind (keeps_read node)
          intro cell
          apply keeps_bind
          · apply keeps_bind (keeps_slot newBuckets bucket)
            intro head
            exact keeps_bind (keeps_write node _) fun _ => keeps_pure _
          · exact fun newBuckets => ih newBuckets cell.overallListNext

/-- A step that keeps the fields, in front of the rest of a program. -/
theorem yields_step {α β : Type} {self : HashTable} {first : Method Value α}
    {rest : α → Method Value β} {post : β → State Value → Prop}
    (same : state.self = self) (keeps : Keeps SameFields first)
    (after : ∀ value next, next.self = self →
      Yields (rest value) next post fun _ last => last.self = self) :
    Yields (first >>= rest) state post fun _ last => last.self = self := by
  rw [yields_bind]
  apply (keeps state).mono
  · exact fun value next kept => after value next (kept.trans same)
  · exact fun _ next kept => Eq.trans kept same

/-- `Rehash` sets the capacity, or changes no field. -/
theorem rehash_yields (newCapacity : Nat) :
    Yields (rehash policy newCapacity) state
      (fun _ next => ∃ buckets, next.self =
        { state.self with vectorHashTable := buckets, hashCapacity := newCapacity })
      fun _ next => next.self = state.self := by
  apply yields_step rfl (keeps_refuse _ _)
  intro _ first same
  apply yields_step same (keeps_sizeAdjust newCapacity)
  intro newBuckets second same
  rw [yields_bind, yields_get]
  apply yields_step same (keeps_refuse _ _)
  intro _ third same
  apply yields_step same (keeps_allocate _)
  intro _ fourth same
  apply yields_step same (keeps_bucketIndices newCapacity _ _)
  intro indices fifth same
  apply yields_step same (keeps_relink newBuckets _ indices)
  intro newBuckets last same
  exact ⟨newBuckets, by rw [← same]⟩

theorem Doubled.of_buckets {before after : State Value} {buckets : List (Option Addr)}
    {capacity : Nat} (doubled : DoubledFrom before.self.hashCapacity capacity)
    (changed : after.self =
      { before.self with vectorHashTable := buckets, hashCapacity := capacity }) :
    Doubled before after where
  size_eq := by rw [changed]
  factor_eq := by rw [changed]
  capacity := by rwa [changed]

theorem Doubled.of_same {before after : State Value} (same : after.self = before.self) :
    Doubled before after where
  size_eq := by rw [same]
  factor_eq := by rw [same]
  capacity := same ▸ .refl _

/-- A larger bucket array has twice as many buckets, or 10. -/
theorem keeps_enlarge : Keeps Doubled (enlarge policy) := by
  intro state
  rw [enlarge, yields_bind, yields_get]
  split
  · next zero =>
    apply (rehash_yields 10).mono
    · intro _ next outcome
      exact .of_buckets (zero ▸ .first) outcome.choose_spec
    · exact fun _ next same => .of_same same
  · rw [refuse]
    split
    · change Doubled state state
      exact .of_same rfl
    · next low =>
      change Yields (rehash policy _) state _ _
      rw [timesTwo_of_le (Nat.not_lt.1 low)]
      apply (rehash_yields _).mono
      · intro _ next outcome
        exact .of_buckets (.twice _) outcome.choose_spec
      · exact fun _ next same => .of_same same

theorem keeps_enlargeWhile (fuel : Nat) : Keeps Doubled (enlargeWhile policy fuel) := by
  induction fuel with
  | zero => exact keeps_stuck
  | succ fuel ih =>
      apply keeps_bind keeps_get
      intro state
      exact keeps_ite (keeps_bind keeps_enlarge fun _ => ih) (keeps_pure _)

theorem keeps_ensureCapacityForOneMore : Keeps Doubled (ensureCapacityForOneMore policy) :=
  keeps_bind keeps_get fun _ => keeps_bind (keeps_refuse _ _) fun _ =>
    keeps_bind (keeps_refuse _ _) fun _ => keeps_enlargeWhile 66

/-- The loop of `ChangeLoadFactor` only computes. -/
theorem capacityFor_yields (memberSize newLoadFactor fuel start : Nat) :
    Yields (capacityFor memberSize newLoadFactor fuel start : Method Value Nat) state
      (fun capacity next => next = state ∧ DoubledFrom start capacity)
      fun _ next => next = state := by
  induction fuel generalizing start with
  | zero => trivial
  | succ fuel ih =>
      rw [capacityFor]
      split
      · rw [refuse]
        split
        · exact rfl
        · next low =>
          change Yields (capacityFor _ _ _ _) state _ _
          rw [timesTwo_of_le (Nat.not_lt.1 low)]
          apply (ih _).mono
          · intro capacity next outcome
            exact ⟨outcome.1, (DoubledFrom.twice start).trans outcome.2⟩
          · exact fun _ _ => id
      · exact ⟨rfl, .refl start⟩

/-- `ChangeLoadFactor` changes fields only when it ends well. -/
theorem changeLoadFactor_yields (newLoadFactor : UInt64)
    (empty : state.self.hashCapacity = 0 → state.self.memberSize = 0) :
    Yields (changeLoadFactor policy newLoadFactor) state
      (fun answer next => next.self.memberSize = state.self.memberSize ∧
        DoubledFrom state.self.hashCapacity next.self.hashCapacity ∧
        if answer then next.self.loadFactor = newLoadFactor.toNat else next.self = state.self)
      fun _ next => next.self = state.self := by
  rw [changeLoadFactor]
  split
  · exact ⟨rfl, .refl _, rfl⟩
  · rw [yields_bind, yields_get]
    have start : (if state.self.memberSize ≠ 0 ∧ state.self.hashCapacity = 0 then 10
        else state.self.hashCapacity) = state.self.hashCapacity := by
      apply if_neg
      exact fun bad => bad.1 (empty bad.2)
    dsimp only
    rw [start, yields_bind]
    apply (capacityFor_yields ..).mono
    · intro capacity _ outcome
      obtain ⟨rfl, doubled⟩ := outcome
      rw [yields_bind, rehashTo, yields_bind, yields_get]
      split
      · apply (rehash_yields capacity).mono
        · intro _ next outcome
          obtain ⟨buckets, changed⟩ := outcome
          change next.self.memberSize = _ ∧ DoubledFrom _ next.self.hashCapacity ∧ _
          rw [changed]
          exact ⟨rfl, doubled, rfl⟩
        · exact fun _ _ => id
      · exact ⟨rfl, .refl _, rfl⟩
    · intro _ next same
      rw [same]

end Keeps

section Reachable

/-- The error is a `std::length_error`, or was raised by user code or the allocator. -/
def Overflow (policy : Policy Key Value) (fault : Fault) : Prop :=
  (∃ what, fault = .lengthError what) ∨
    fault = .raised ∧ ∃ moment, policy.faults moment = true

variable {policy : Policy Key Value} {frame : Nodes Value} {state : State Value}
variable {entries : List (Entry Value)}

theorem Excused.overflow {count : Nat} {fault : Fault} (excused : Excused policy count fault) :
    Overflow policy fault := by
  cases fault with
  | lengthError what => exact .inl ⟨what, rfl⟩
  | raised => exact .inr ⟨rfl, excused⟩
  | logicError what => exact excused.elim
  | fault what functionName => exact excused.elim

/-- How a table grows: by doubling its capacity, until the elements have room. -/
structure GrowsByDoubling (policy : Policy Key Value) (state : State Value) : Prop where
  oneMore : Runs (ensureCapacityForOneMore policy) state
    (fun _ next => DoubledFrom state.self.hashCapacity next.self.hashCapacity ∧
      next.self.hashCapacity < 2 ^ 64 ∧ next.self.hashCapacity ≠ 0 ∧
      state.self.memberSize + 1 ≤
        maximumElementsFor next.self.hashCapacity state.self.loadFactor)
    fun fault next => Overflow policy fault ∧
      DoubledFrom state.self.hashCapacity next.self.hashCapacity ∧ next.self.hashCapacity < 2 ^ 64
  factor : ∀ newLoadFactor : UInt64, Runs (changeLoadFactor policy newLoadFactor) state
    (fun answer next => answer = decide (1 ≤ newLoadFactor.toNat ∧ newLoadFactor.toNat ≤ 10) ∧
      DoubledFrom state.self.hashCapacity next.self.hashCapacity ∧
      next.self.hashCapacity < 2 ^ 64 ∧
      if answer then
        state.self.memberSize ≤ maximumElementsFor next.self.hashCapacity newLoadFactor.toNat
      else next.self = state.self)
    fun fault next => Overflow policy fault ∧ next.self = state.self

theorem Valid.growsByDoubling (valid : Valid policy frame state entries) :
    GrowsByDoubling policy state where
  oneMore := by
    apply ((ensureCapacityForOneMore_spec valid).and_yields
      (keeps_ensureCapacityForOneMore state)).mono
    · intro _ next outcome
      obtain ⟨⟨validNext, spacious⟩, doubled⟩ := outcome
      refine ⟨doubled.capacity, validNext.holds.width, spacious.1, ?_⟩
      rw [← doubled.size_eq, ← doubled.factor_eq]
      exact spacious.2
    · intro fault next outcome
      exact ⟨outcome.1.1.overflow, outcome.2.capacity, outcome.1.2.holds.width⟩
  factor newLoadFactor := by
    have empty : state.self.hashCapacity = 0 → state.self.memberSize = 0 := by
      intro zero
      by_contra nonempty
      exact Nat.ne_of_gt (valid.holds.capacity_pos nonempty) zero
    apply ((changeLoadFactor_spec newLoadFactor valid).and_yields
      (changeLoadFactor_yields newLoadFactor empty)).mono
    · intro answer next outcome
      obtain ⟨⟨validNext, answers⟩, same, doubled, changed⟩ := outcome
      refine ⟨answers, doubled, validNext.holds.width, ?_⟩
      cases answer with
      | false => exact changed
      | true =>
          change _ ≤ _
          rw [← same, ← show _ = newLoadFactor.toNat from changed]
          exact validNext.holds.room
    · intro fault next outcome
      exact ⟨outcome.1.1.overflow, outcome.2⟩

variable [DecidableEq Key]

end Reachable

end Wan.Container.HashTable
