import Mathlib.Tactic.Ring
import Wan.Container.HashTable.Frame

/-!
# Growth of the bucket array

`Rehash` rebuilds the bucket chains over the insertion list, and the loops of
`EnsureCapacityForOneMore` and `ChangeLoadFactor` end after doubling the capacity
often enough.
-/

namespace Wan.Container.HashTable

open Wan.Library Wan.Library.LinkedList Wan.Library.Program

variable {Key Value : Type}

section Arithmetic

variable {capacity larger factor : Nat}

/-- Without overflow the bound is the load factor in tenths. -/
theorem maximumElementsFor_of_lt (width : capacity < 2 ^ 64) (factorLe : factor ≤ 10) :
    maximumElementsFor capacity factor = capacity * factor / 10 := by
  have whole : capacity * factor = 10 * (capacity / 10 * factor) + capacity % 10 * factor := by
    calc capacity * factor
        = (10 * (capacity / 10) + capacity % 10) * factor := by rw [Nat.div_add_mod]
      _ = 10 * (capacity / 10 * factor) + capacity % 10 * factor := by ring
  have high : capacity / 10 * factor ≤ capacity / 10 * 10 := Nat.mul_le_mul_left _ factorLe
  have low : capacity % 10 * factor ≤ capacity % 10 * 10 := Nat.mul_le_mul_left _ factorLe
  unfold maximumElementsFor
  rw [whole]
  omega

variable (capacity factor) in
theorem maximumElementsFor_lt : maximumElementsFor capacity factor < 2 ^ 64 :=
  Nat.mod_lt _ (by decide)

theorem increment_of_lt {count : Nat} (below : count < maximumElementsFor capacity factor) :
    increment count = count + 1 := by
  have bound := maximumElementsFor_lt capacity factor
  unfold increment
  omega

theorem decrement_of_pos {count : Nat} (below : count ≤ maximumElementsFor capacity factor)
    (positive : 0 < count) : decrement count = count - 1 := by
  have bound := maximumElementsFor_lt capacity factor
  unfold decrement maximum
  omega

theorem increment_le (count : Nat) : increment count ≤ count + 1 := Nat.mod_le ..

theorem timesTwo_of_le (width : capacity ≤ maximum / 2) : timesTwo capacity = capacity * 2 := by
  unfold maximum at width
  unfold timesTwo
  omega

/-- More buckets hold at least as many elements. -/
theorem maximumElementsFor_mono (width : larger < 2 ^ 64) (factorLe : factor ≤ 10)
    (grows : capacity ≤ larger) :
    maximumElementsFor capacity factor ≤ maximumElementsFor larger factor := by
  rw [maximumElementsFor_of_lt (by omega) factorLe, maximumElementsFor_of_lt width factorLe]
  exact Nat.div_le_div_right (Nat.mul_le_mul_right _ grows)

/-- A capacity that is too small for so many elements is below ten times their number. -/
theorem lt_of_maximumElementsFor_lt {count : Nat} (width : capacity < 2 ^ 64)
    (positive : 1 ≤ factor) (factorLe : factor ≤ 10)
    (crowded : maximumElementsFor capacity factor < count) : capacity < 10 * count := by
  rw [maximumElementsFor_of_lt width factorLe] at crowded
  have least : capacity ≤ capacity * factor := Nat.le_mul_of_pos_right _ positive
  omega

end Arithmetic

variable {policy : Policy Key Value} {frame : Nodes Value} {state : State Value}
variable {entries earlier later : List (Entry Value)} {capacity count fuel : Nat}

section Rehash

/-- The first loop of `Rehash` yields the new bucket of every entry. -/
theorem bucketIndices_spec (positive : 0 < capacity)
    (chain : Chain (view (·.overallListNext) state.heap.cells) (addresses entries) none)
    (data : ∀ entry ∈ entries, view (·.memberData) state.heap.cells entry.1 = some entry.2)
    (enough : entries.length ≤ fuel) :
    Runs (bucketIndices policy capacity fuel (addresses entries).head?) state
      (fun indices next => Quiet state next ∧
        indices = entries.map fun entry => home policy capacity entry.2)
      (Interrupted policy state) := by
  induction entries generalizing fuel state with
  | nil =>
      cases fuel <;> exact ⟨.refl, rfl⟩
  | cons entry entries ih =>
      cases fuel with
      | zero => simp at enough
      | succ fuel =>
          rcases chain with ⟨link, chain⟩
          have found := data entry List.mem_cons_self
          rcases live : state.heap.cells entry.1 with _ | cell
          · simp [view, live] at found
          · simp only [view, live, Option.map_some, Option.some.injEq, Option.or_none] at link found
            simp only [addresses_cons, List.head?_cons, bucketIndices, runs_bind, runs_read live]
            apply runs_hashOfValue
            · intro next same
              rw [runs_bucketOf positive, link]
              apply (ih (by rw [same.1]; exact chain)
                (by
                  rw [same.1]
                  exact fun other member => data other (List.mem_cons_of_mem _ member))
                (Nat.le_of_succ_le_succ enough)).mono
              · intro indices last outcome
                simp only [runs_pure, List.map_cons, List.cons.injEq]
                exact ⟨same.trans outcome.1, by rw [found, home], outcome.2⟩
              · intro fault last outcome
                exact ⟨outcome.1, outcome.2.1, same.trans outcome.2.2⟩
            · intro moment next faulty same
              exact .mk faulty same

/-- The bucket links of some nodes may have changed, and nothing else. -/
structure Relinked (region : List Addr) (before after : State Value) : Prop where
  self_eq : after.self = before.self
  next_eq : view (·.overallListNext) after.heap.cells = view (·.overallListNext) before.heap.cells
  prev_eq : view (·.overallListPrev) after.heap.cells = view (·.overallListPrev) before.heap.cells
  data_eq : view (·.memberData) after.heap.cells = view (·.memberData) before.heap.cells
  outside : ∀ address, address ∉ region → after.heap.cells address = before.heap.cells address

theorem Relinked.isSome {region : List Addr} {after : State Value}
    (moved : Relinked region state after) (address : Addr) :
    (after.heap.cells address).isSome = (state.heap.cells address).isSome := by
  have same := congrFun moved.data_eq address
  unfold view at same
  rw [← Option.isSome_map, same, Option.isSome_map]

/-- `prepend` moves a live node to the front of its bucket. -/
theorem prepend_spec {buckets : List (Option Addr)} (entry : Entry Value)
    {raises : Fault → State Value → Prop} {cell : HashTableNode Value}
    (bucketed : Bucketed policy (view (·.memberNext) state.heap.cells) buckets capacity entries)
    (positive : 0 < capacity) (absent : entry.1 ∉ addresses entries)
    (live : state.heap.cells entry.1 = some cell) :
    Runs (prepend buckets (home policy capacity entry.2) entry.1) state
      (fun buckets next => Relinked [entry.1] state next ∧
        Bucketed policy (view (·.memberNext) next.heap.cells) buckets capacity (entries ++ [entry]))
      raises := by
  have slot := bucketed.slots _ (Bucketed.home_lt policy entry.2 positive)
  simp only [prepend, runs_bind, runs_slot slot, runs_write (Option.isSome_of_eq_some live),
    runs_pure]
  constructor
  · constructor
    · rfl
    · exact view_adjust_of_eq fun _ => rfl
    · exact view_adjust_of_eq fun _ => rfl
    · exact view_adjust_of_eq fun _ => rfl
    · intro address other
      exact Function.update_of_ne (List.ne_of_not_mem_cons other) _ _
  · rw [view_adjust live]
    exact bucketed.prepend absent slot

/-- The second loop of `Rehash` adds the remaining entries to the new chains. -/
theorem relink_spec {buckets : List (Option Addr)} {raises : Fault → State Value → Prop}
    (bucketed : Bucketed policy (view (·.memberNext) state.heap.cells) buckets capacity earlier)
    (positive : 0 < capacity) (distinct : (addresses (earlier ++ later)).Nodup)
    (chain : Chain (view (·.overallListNext) state.heap.cells) (addresses later) none) :
    Runs (relink buckets (addresses later).head?
        (later.map fun entry => home policy capacity entry.2)) state
      (fun buckets next => Relinked (addresses later) state next ∧
        Bucketed policy (view (·.memberNext) next.heap.cells) buckets capacity (earlier ++ later))
      raises := by
  induction later generalizing earlier buckets state with
  | nil =>
      rw [List.append_nil]
      exact ⟨⟨rfl, rfl, rfl, rfl, fun _ _ => rfl⟩, bucketed⟩
  | cons entry later ih =>
      rcases chain with ⟨link, chain⟩
      rcases live : state.heap.cells entry.1 with _ | cell
      · simp [view, live] at link
      · simp only [view, live, Option.map_some, Option.some.injEq, Option.or_none] at link
        simp only [addresses_cons, List.head?_cons, List.map_cons, relink, runs_bind,
          runs_read live]
        have absent : entry.1 ∉ addresses earlier := by
          rw [addresses_append, List.nodup_append] at distinct
          intro member
          exact distinct.2.2 _ member _ List.mem_cons_self rfl
        apply (prepend_spec _ bucketed positive absent live).mono
        · intro buckets next outcome
          rcases outcome with ⟨moved, bucketed⟩
          rw [link]
          apply (ih bucketed (by simpa using distinct) (by rw [moved.next_eq]; exact chain)).mono
          · intro buckets last outcome
            rw [List.append_assoc, List.singleton_append] at outcome
            rcases outcome with ⟨rest, bucketed⟩
            refine ⟨?_, bucketed⟩
            constructor
            · rw [rest.self_eq, moved.self_eq]
            · rw [rest.next_eq, moved.next_eq]
            · rw [rest.prev_eq, moved.prev_eq]
            · rw [rest.data_eq, moved.data_eq]
            · intro address outside
              rw [List.mem_cons, not_or] at outside
              rw [rest.outside address outside.2, moved.outside address (by simpa using outside.1)]
          · exact fun _ _ => id
        · exact fun _ _ => id

/-- New bucket chains over the same insertion list. -/
theorem Valid.relinked {after : State Value} {buckets : List (Option Addr)}
    (valid : Valid policy frame state entries) (moved : Relinked (addresses entries) state after)
    (bucketed : Bucketed policy (view (·.memberNext) after.heap.cells) buckets capacity entries)
    (grows : state.self.hashCapacity ≤ capacity) (width : capacity < 2 ^ 64)
    (admitted : capacity ≤ policy.maxSize) :
    Valid policy frame
      { after with
        self := { after.self with vectorHashTable := buckets, hashCapacity := capacity } }
      entries := by
  have holds := valid.holds
  constructor
  · constructor
    · rw [moved.next_eq, moved.prev_eq, moved.self_eq]
      exact holds.listed
    · rw [moved.data_eq]
      exact holds.data
    · exact bucketed
    · exact holds.keys
    · rw [moved.self_eq]
      exact holds.size_eq
    · rw [moved.self_eq]
      exact holds.factor
    · rw [moved.self_eq]
      exact holds.room.trans (maximumElementsFor_mono width holds.factor.2 grows)
    · exact width
    · exact admitted
  · intro address outside
    rw [moved.outside address outside]
    exact valid.framed address outside
  · exact valid.apart

/-- `Rehash` to at least as many buckets keeps the entries. -/
theorem rehash_spec (valid : Valid policy frame state entries) (positive : 0 < capacity)
    (grows : state.self.hashCapacity ≤ capacity) (width : capacity < 2 ^ 64)
    (fits : Roomy policy count → capacity ≤ policy.maxSize ∧ entries.length ≤ count) :
    Runs (rehash policy capacity) state
      (fun _ next => Valid policy frame next entries ∧
        next.self.loadFactor = state.self.loadFactor ∧ next.self.hashCapacity = capacity)
      (Refused policy frame count entries) := by
  simp only [rehash, runs_bind, runs_refuse, runs_get]
  refine ⟨fun zero => absurd zero (Nat.ne_of_gt positive), fun _ => ?_⟩
  apply runs_sizeAdjust
  · intro first firstSame admitted
    refine ⟨?_, fun _ => ?_⟩
    · intro large
      refine ⟨?_, valid.quiet firstSame⟩
      intro roomy
      rw [firstSame.2, valid.holds.size_eq] at large
      have few := (fits roomy).2
      have limit := roomy.2.1
      omega
    · apply runs_allocate
      · intro second secondSame
        have same := firstSame.trans secondSame
        have validSecond := valid.quiet same
        have holds := validSecond.holds
        rw [firstSame.2, valid.holds.listed.head_eq]
        apply (bucketIndices_spec positive holds.listed.forwards holds.data
          (secondSame.1 ▸ validSecond.length_le)).mono
        · intro indices third outcome
          rcases outcome with ⟨thirdSame, rfl⟩
          have validThird := validSecond.quiet thirdSame
          have fresh : Bucketed policy (view (·.memberNext) third.heap.cells)
              (List.replicate capacity none) capacity [] := .fresh
          apply (relink_spec fresh positive validThird.distinct
            validThird.holds.listed.forwards).mono
          · intro buckets last outcome
            rcases outcome with ⟨moved, bucketed⟩
            have same := same.trans thirdSame
            rw [runs_modifySelf]
            refine ⟨?_, by rw [moved.self_eq, same.2], rfl⟩
            exact validThird.relinked moved bucketed (same.2 ▸ grows) width admitted
          · exact fun _ _ => id
        · intro fault third interrupted
          exact interrupted.refused validSecond
      · intro moment second faulty secondSame
        exact .raised (valid.quiet firstSame) faulty secondSame
  · intro moment first faulty firstSame
    exact .raised valid faulty firstSame
  · intro large
    refine ⟨?_, valid⟩
    intro roomy
    have admitted := (fits roomy).1
    omega

end Rehash

section Loops

/-- There is room for one more element. -/
def Spacious (self : HashTable) : Prop :=
  self.hashCapacity ≠ 0 ∧
    self.memberSize + 1 ≤ maximumElementsFor self.hashCapacity self.loadFactor

/-- A table that is not crowded has room, unless its size is the largest number. -/
theorem spacious_of_not_crowded {self : HashTable} (calm : ¬Crowded self)
    (small : self.memberSize < maximum) : Spacious self := by
  rw [Crowded, not_or, Nat.not_lt, increment, Nat.mod_eq_of_lt] at calm
  · exact calm
  · unfold maximum at small
    omega

/-- One more doubling keeps the entries. -/
theorem enlarge_spec (valid : Valid policy frame state entries) (crowded : Crowded state.self) :
    Runs (enlarge policy) state
      (fun _ next => Valid policy frame next entries ∧
        next.self.loadFactor = state.self.loadFactor ∧
        next.self.hashCapacity =
          if state.self.hashCapacity = 0 then 10 else state.self.hashCapacity * 2)
      (Refused policy frame (entries.length + 1) entries) := by
  have width := valid.holds.width
  have factor := valid.holds.factor
  simp only [enlarge, runs_bind, runs_get]
  split
  · next zero =>
    apply rehash_spec valid (by decide) (by omega) (by decide)
    intro roomy
    have limit := roomy.1
    omega
  · next positive =>
    have small : state.self.hashCapacity < 10 * (entries.length + 1) := by
      rcases crowded with zero | crowded
      · exact absurd zero positive
      · rw [valid.holds.size_eq] at crowded
        exact lt_of_maximumElementsFor_lt width factor.1 factor.2
          (crowded.trans_le (increment_le _))
    rw [runs_bind, runs_refuse]
    constructor
    · intro large
      refine ⟨?_, valid⟩
      intro roomy
      have limit := roomy.1
      have bound := roomy.2.2
      unfold maximum at large
      omega
    · intro low
      rw [timesTwo_of_le (Nat.not_lt.1 low)]
      unfold maximum at low
      apply rehash_spec valid (by omega) (by omega) (by omega)
      intro roomy
      have limit := roomy.1
      omega

/-- The loop ends, because a capacity doubles at most 64 times. -/
theorem enlargeWhile_spec (valid : Valid policy frame state entries)
    (few : entries.length < maximum)
    (enough : (state.self.hashCapacity = 0 ∧ 66 ≤ fuel) ∨
      2 ^ 64 < state.self.hashCapacity * 2 ^ fuel) :
    Runs (enlargeWhile policy fuel) state
      (fun _ next => Valid policy frame next entries ∧ Spacious next.self)
      (Refused policy frame (entries.length + 1) entries) := by
  induction fuel generalizing state with
  | zero =>
      have width := valid.holds.width
      omega
  | succ fuel ih =>
      simp only [enlargeWhile, runs_bind, runs_get]
      split
      · next crowded =>
        rw [runs_bind]
        apply (enlarge_spec valid crowded).mono
        · intro _ next outcome
          rcases outcome with ⟨validNext, _, capacityEq⟩
          apply ih validNext
          right
          rw [capacityEq]
          rcases enough with ⟨zero, many⟩ | enough
          · rw [if_pos zero]
            calc 2 ^ 64 < 10 * 2 ^ 65 := by decide
              _ ≤ 10 * 2 ^ fuel :=
                  Nat.mul_le_mul_left _ (Nat.pow_le_pow_right (by decide) (by omega))
          · have positive : state.self.hashCapacity ≠ 0 := by
              intro zero
              simp [zero] at enough
            rw [if_neg positive, Nat.mul_assoc, ← Nat.pow_succ']
            exact enough
        · exact fun _ _ => id
      · next free => exact ⟨valid, spacious_of_not_crowded free (valid.holds.size_eq ▸ few)⟩

/-- `EnsureCapacityForOneMore` keeps the entries and leaves room for one more. -/
theorem ensureCapacityForOneMore_spec (valid : Valid policy frame state entries) :
    Runs (ensureCapacityForOneMore policy) state
      (fun _ next => Valid policy frame next entries ∧ Spacious next.self)
      (Refused policy frame (entries.length + 1) entries) := by
  have factor := valid.holds.factor
  simp only [ensureCapacityForOneMore, runs_bind, runs_get, runs_refuse]
  refine ⟨fun bad => by omega, fun _ => ⟨?_, fun less => ?_⟩⟩
  · intro full
    refine ⟨?_, valid⟩
    intro roomy
    have limit := roomy.1
    have bound := roomy.2.2
    rw [valid.holds.size_eq] at full
    unfold maximum at full
    omega
  · rw [valid.holds.size_eq] at less
    have width : entries.length < 2 ^ 64 := by
      have room := valid.holds.room.trans_lt (maximumElementsFor_lt ..)
      rwa [valid.holds.size_eq] at room
    have few : entries.length < maximum := by
      unfold maximum at less ⊢
      omega
    apply enlargeWhile_spec valid few
    rcases Nat.eq_zero_or_pos state.self.hashCapacity with zero | positive
    · exact .inl ⟨zero, by decide⟩
    · right
      calc 2 ^ 64 < 1 * 2 ^ 66 := by decide
        _ ≤ state.self.hashCapacity * 2 ^ 66 := Nat.mul_le_mul_right _ positive

/-- The loop of `ChangeLoadFactor` finds a capacity that is large enough. -/
theorem capacityFor_spec {size factor start : Nat} (positive : 1 ≤ factor) (factorLe : factor ≤ 10)
    (width : start < 2 ^ 64) (enough : start = 0 ∨ 2 ^ 64 < start * 2 ^ fuel) (some : fuel ≠ 0) :
    Runs (capacityFor size factor fuel start : Method Value Nat) state
      (fun capacity next => next = state ∧ start ≤ capacity ∧ capacity < 2 ^ 64 ∧
        (capacity = 0 ↔ start = 0) ∧
        (capacity ≠ 0 → size ≤ maximumElementsFor capacity factor) ∧
        (capacity ≠ start → capacity < 20 * size))
      (fun fault next => next = state ∧
        ∃ what, fault = .lengthError what ∧ 2 ^ 63 ≤ 10 * size) := by
  induction fuel generalizing start with
  | zero => exact absurd rfl some
  | succ fuel ih =>
      unfold capacityFor
      split
      · next crowded =>
        have small := lt_of_maximumElementsFor_lt width positive factorLe crowded.2
        rw [runs_bind, runs_refuse]
        constructor
        · intro large
          unfold maximum at large
          exact ⟨rfl, _, rfl, by omega⟩
        · intro low
          rw [timesTwo_of_le (Nat.not_lt.1 low)]
          unfold maximum at low
          have doubled : 2 ^ 64 < start * 2 * 2 ^ fuel := by
            rw [Nat.mul_assoc, ← Nat.pow_succ']
            exact enough.resolve_left crowded.1
          have more : fuel ≠ 0 := by
            rintro rfl
            omega
          apply (ih (by omega) (.inr doubled) more).mono
          · intro capacity next outcome
            rcases outcome with ⟨same, least, bound, zero, fits, grown⟩
            refine ⟨same, by omega, bound, by omega, fits, ?_⟩
            intro different
            by_cases last : capacity = start * 2
            · omega
            · exact grown last
          · exact fun _ _ => id
      · next free =>
        refine ⟨rfl, Nat.le_refl _, width, Iff.rfl, ?_, fun different => absurd rfl different⟩
        intro nonzero
        by_contra crowded
        exact free ⟨nonzero, Nat.lt_of_not_le crowded⟩

/-- Only the bound on the number of elements depends on the load factor. -/
theorem Valid.withLoadFactor {factor : Nat} (valid : Valid policy frame state entries)
    (factorOk : 1 ≤ factor ∧ factor ≤ 10)
    (room : state.self.memberSize ≤ maximumElementsFor state.self.hashCapacity factor) :
    Valid policy frame { state with self := { state.self with loadFactor := factor } } entries :=
  have holds := valid.holds
  ⟨⟨holds.listed, holds.data, holds.bucketed, holds.keys, holds.size_eq, factorOk, room,
    holds.width, holds.admitted⟩, valid.framed, valid.apart⟩

/-- The end of `ChangeLoadFactor`, once a capacity has been found. -/
theorem rehashTo_spec (valid : Valid policy frame state entries)
    (grows : state.self.hashCapacity ≤ capacity) (width : capacity < 2 ^ 64)
    (grown : capacity ≠ state.self.hashCapacity → capacity < 20 * entries.length) :
    Runs (rehashTo policy capacity) state
      (fun _ next => Valid policy frame next entries ∧ next.self.hashCapacity = capacity)
      (Refused policy frame entries.length entries) := by
  simp only [rehashTo, runs_bind, runs_get]
  split
  · next different =>
    apply (rehash_spec valid (by omega) grows width _).mono
    · intro _ next outcome
      exact ⟨outcome.1, outcome.2.2⟩
    · exact fun _ _ => id
    · intro roomy
      have limit := roomy.1
      have small := grown different
      exact ⟨by omega, Nat.le_refl _⟩
  · next same => exact ⟨valid, (not_ne_iff.mp same).symm⟩

/-- `ChangeLoadFactor` keeps the entries and reports whether the factor is valid. -/
theorem changeLoadFactor_spec (newLoadFactor : UInt64)
    (valid : Valid policy frame state entries) :
    Runs (changeLoadFactor policy newLoadFactor) state
      (fun answer next => Valid policy frame next entries ∧
        answer = decide (1 ≤ newLoadFactor.toNat ∧ newLoadFactor.toNat ≤ 10))
      (Refused policy frame entries.length entries) := by
  unfold changeLoadFactor
  split
  · next bad =>
    refine ⟨valid, ?_⟩
    symm
    rw [decide_eq_false_iff_not]
    omega
  · next good =>
    have factorOk : 1 ≤ newLoadFactor.toNat ∧ newLoadFactor.toNat ≤ 10 := by omega
    have holds := valid.holds
    have width := holds.width
    have start : (if state.self.memberSize ≠ 0 ∧ state.self.hashCapacity = 0 then 10
        else state.self.hashCapacity) = state.self.hashCapacity := by
      apply if_neg
      intro bad
      exact absurd bad.2 (Nat.ne_of_gt (holds.capacity_pos bad.1))
    simp only [runs_bind, runs_get, start]
    have enough : state.self.hashCapacity = 0 ∨ 2 ^ 64 < state.self.hashCapacity * 2 ^ 66 := by
      omega
    apply (capacityFor_spec factorOk.1 factorOk.2 width enough (by decide)).mono
    · intro capacity next outcome
      rcases outcome with ⟨rfl, least, bound, zero, fits, grown⟩
      rw [holds.size_eq] at fits grown
      apply (rehashTo_spec valid least bound grown).mono
      · intro _ last outcome
        rcases outcome with ⟨validLast, rfl⟩
        rw [runs_modifySelf]
        refine ⟨validLast.withLoadFactor factorOk ?_, (decide_eq_true factorOk).symm⟩
        rw [validLast.holds.size_eq]
        by_cases empty : last.self.hashCapacity = 0
        · have room := validLast.holds.room
          rw [validLast.holds.size_eq, empty] at room
          simp only [maximumElementsFor] at room
          omega
        · exact fits empty
      · exact fun _ _ => id
    · intro fault next outcome
      rcases outcome with ⟨rfl, what, rfl, large⟩
      refine ⟨?_, valid⟩
      intro roomy
      have limit := roomy.1
      have small := roomy.2.2
      rw [holds.size_eq] at large
      omega

end Loops

end Wan.Container.HashTable
