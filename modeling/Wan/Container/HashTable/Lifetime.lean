import Wan.Container.HashTable.Elements

/-!
# Construction, copies and destruction

`ClearNodes` deletes exactly the nodes of a table, and the copy constructor builds
a table with the same elements in the same order from nodes of its own.
-/

namespace Wan.Container.HashTable

open Wan.Library Wan.Library.LinkedList Wan.Library.Program

variable {Key Value : Type} {policy : Policy Key Value} {frame : Nodes Value}
variable {state : State Value} {entries copied : List (Entry Value)} {fuel : Nat}
variable {raises : Fault → State Value → Prop}

section Clear

/-- Only the nodes at the addresses are gone. -/
def Deleted (gone : List Addr) (before after : State Value) : Prop :=
  after.self = before.self ∧ after.heap.next = before.heap.next ∧
    ∀ address, after.heap.cells address =
      if address ∈ gone then none else before.heap.cells address

/-- The inner loop of `ClearNodes` deletes a chain. -/
theorem clearBucket_spec {chain : List Addr}
    (linked : Chain (view (·.memberNext) state.heap.cells) chain none) (distinct : chain.Nodup)
    (enough : chain.length ≤ fuel) :
    Runs (clearBucket fuel chain.head?) state (fun _ next => Deleted chain state next) raises := by
  induction chain generalizing fuel state with
  | nil =>
      cases fuel <;> exact ⟨rfl, rfl, fun _ => by simp⟩
  | cons first rest ih =>
      rcases fuel with _ | fuel
      · simp at enough
      · rcases linked with ⟨link, linked⟩
        rw [List.nodup_cons] at distinct
        rcases live : state.heap.cells first with _ | cell
        · simp [view, live] at link
        · simp only [view, live, Option.map_some, Option.some.injEq, Option.or_none] at link
          simp only [List.head?_cons, clearBucket, runs_bind, runs_read live, link]
          rw [runs_delete (by simp [live])]
          have kept : Chain (view (·.memberNext) (state.heap.free first).cells) rest none := by
            apply linked.congr
            intro address member
            have different : address ≠ first := by
              rintro rfl
              exact distinct.1 member
            rw [view, Heap.free_cells, Function.update_of_ne different, view]
          apply (ih kept distinct.2 (Nat.le_of_succ_le_succ enough)).mono
          · intro _ next outcome
            rcases outcome with ⟨selfEq, nextEq, gone⟩
            refine ⟨selfEq, nextEq, ?_⟩
            intro address
            rw [gone address, Heap.free_cells]
            by_cases same : address = first
            · subst same
              simp
            · rw [Function.update_of_ne same]
              simp [same]
          · exact fun _ _ => id

/-- The outer loop of `ClearNodes` deletes the chains of all buckets. -/
theorem clearBuckets_spec {chains : List (List Addr)}
    (linked : ∀ chain ∈ chains, Chain (view (·.memberNext) state.heap.cells) chain none)
    (distinct : chains.flatten.Nodup) (enough : ∀ chain ∈ chains, chain.length ≤ fuel) :
    Runs (clearBuckets fuel (chains.map List.head?)) state
      (fun _ next => Deleted chains.flatten state next) raises := by
  induction chains generalizing state with
  | nil => exact ⟨rfl, rfl, fun _ => by simp⟩
  | cons chain chains ih =>
      rw [List.flatten_cons, List.nodup_append] at distinct
      simp only [List.map_cons, clearBuckets, runs_bind]
      apply (clearBucket_spec (linked chain List.mem_cons_self) distinct.1
        (enough chain List.mem_cons_self)).mono
      · intro _ first outcome
        rcases outcome with ⟨selfEq, nextEq, gone⟩
        have kept : ∀ other ∈ chains,
            Chain (view (·.memberNext) first.heap.cells) other none := by
          intro other member
          apply (linked other (List.mem_cons_of_mem _ member)).congr
          intro address inside
          have outside : address ∉ chain := by
            intro inChain
            exact distinct.2.2 address inChain address (List.mem_flatten_of_mem member inside) rfl
          rw [view, gone address, if_neg outside, view]
        apply (ih kept distinct.2.1 fun other member =>
          enough other (List.mem_cons_of_mem _ member)).mono
        · intro _ next outcome
          rcases outcome with ⟨selfNext, nextNext, goneNext⟩
          refine ⟨selfNext.trans selfEq, nextNext.trans nextEq, ?_⟩
          intro address
          rw [goneNext address, gone address, List.flatten_cons]
          by_cases inChain : address ∈ chain <;> simp [inChain]
        · exact fun _ _ => id
      · exact fun _ _ => id

/-- The bucket chains of a table. -/
def bucketChains (policy : Policy Key Value) (capacity : Nat) (entries : List (Entry Value)) :
    List (List Addr) :=
  (List.range capacity).map fun bucket => addresses (inBucket policy capacity bucket entries)

theorem mem_bucketChains {capacity : Nat} (positive : entries ≠ [] → 0 < capacity)
    {address : Addr} :
    address ∈ (bucketChains policy capacity entries).flatten ↔ address ∈ addresses entries := by
  constructor
  · intro member
    rcases List.mem_flatten.mp member with ⟨chain, chainMember, inside⟩
    rcases List.mem_map.mp chainMember with ⟨bucket, _, rfl⟩
    exact addresses_inBucket_subset inside
  · intro member
    rcases List.mem_map.mp member with ⟨entry, stored, rfl⟩
    have below := Bucketed.home_lt policy entry.2
      (positive (List.ne_nil_of_mem stored))
    apply List.mem_flatten.mpr
    refine ⟨_, List.mem_map.mpr ⟨_, List.mem_range.mpr below, rfl⟩, ?_⟩
    exact mem_addresses (mem_inBucket.mpr ⟨stored, rfl⟩)

theorem nodup_bucketChains {capacity : Nat} (distinct : (addresses entries).Nodup) :
    (bucketChains policy capacity entries).flatten.Nodup := by
  rw [List.nodup_flatten]
  constructor
  · intro chain member
    rcases List.mem_map.mp member with ⟨bucket, _, rfl⟩
    exact nodup_inBucket _ _ _ distinct
  · rw [bucketChains, List.pairwise_map]
    apply List.nodup_range.imp
    intro first second different address inFirst inSecond
    rcases List.mem_map.mp inFirst with ⟨entry, stored, rfl⟩
    rw [mem_inBucket] at stored
    exact different (stored.2.symm.trans (home_eq_of_address distinct stored.1 inSecond))

/-- The slots of the bucket array start the bucket chains. -/
theorem Bucketed.slots_eq {link : Addr → Option (Option Addr)} {buckets : List (Option Addr)}
    {capacity : Nat} (bucketed : Bucketed policy link buckets capacity entries) :
    buckets = (bucketChains policy capacity entries).map List.head? := by
  apply List.ext_getElem?
  intro bucket
  by_cases below : bucket < capacity
  · rw [bucketed.slots bucket below]
    simp [bucketChains, below]
  · rw [List.getElem?_eq_none (by rw [bucketed.length_eq]; omega),
      List.getElem?_eq_none (by simp [bucketChains]; omega)]

/-- `ClearNodes` leaves an empty table and the frame. -/
theorem clearNodes_spec (valid : Valid policy frame state entries) :
    Runs clearNodes state
      (fun _ next => Valid policy frame next [] ∧
        next.self.hashCapacity = state.self.hashCapacity ∧
        next.self.loadFactor = state.self.loadFactor)
      raises := by
  have holds := valid.holds
  have positive : entries ≠ [] → 0 < state.self.hashCapacity := by
    intro some
    apply holds.capacity_pos
    rw [holds.size_eq]
    exact fun zero => some (List.length_eq_zero_iff.mp zero)
  simp only [clearNodes, runs_bind, runs_get]
  rw [holds.bucketed.slots_eq]
  apply (clearBuckets_spec _ (nodup_bucketChains valid.distinct) _).mono
  · intro _ next outcome
    rcases outcome with ⟨selfEq, nextEq, gone⟩
    rw [runs_modifySelf, selfEq]
    refine ⟨⟨?_, ?_, by simp⟩, rfl, rfl⟩
    · rw [List.map_const', holds.bucketed.length_eq]
      exact .empty holds.factor holds.width holds.admitted
    · intro address _
      rw [gone address]
      by_cases member : address ∈ addresses entries
      · rw [if_pos ((mem_bucketChains positive).mpr member), valid.apart address member]
      · rw [if_neg (fun inside => member ((mem_bucketChains positive).mp inside)),
          valid.framed address member]
  · exact fun _ _ => id
  · intro chain member
    rcases List.mem_map.mp member with ⟨bucket, below, rfl⟩
    exact holds.bucketed.chains bucket (List.mem_range.mp below)
  · intro chain member
    rcases List.mem_map.mp member with ⟨bucket, _, rfl⟩
    apply Nat.le_trans _ valid.length_le
    rw [length_addresses, inBucket, List.length_reverse]
    exact List.length_filter_le ..

end Clear

section Construction

/-- The constructor from a capacity makes an empty table. -/
theorem construct_spec {capacity : UInt64} (blank : state.self = .blank 7 capacity.toNat) :
    Runs (construct policy capacity) state
      (fun _ next => Valid policy state.heap.cells next [])
      (fun _ next => (policy.maxSize < capacity.toNat ∨ ∃ moment, policy.faults moment = true) ∧
        next.heap = state.heap) := by
  rw [construct, runs_bind]
  apply runs_sizeAdjust
  · intro next same admitted
    rw [runs_modifySelf, same.2, blank]
    constructor
    · have factor : 1 ≤ 7 ∧ 7 ≤ 10 := by decide
      exact .empty factor capacity.toNat_lt admitted
    · intro address _
      rw [same.1]
    · simp
  · intro moment next faulty same
    exact ⟨.inr ⟨moment, faulty⟩, same.1⟩
  · intro large
    exact ⟨.inl large, rfl⟩

/-- A failed copy leaves the frame as it was. The copies made so far are nodes of
the table, apart from one that may have leaked. -/
def Abandoned (policy : Policy Key Value) (frame : Nodes Value) (next : State Value) : Prop :=
  (∃ moment, policy.faults moment = true) ∧ ∃ outer partly,
    (∀ address cell, frame address = some cell → outer address = some cell) ∧
      Valid policy outer next partly

/-- The loop of the copy constructor appends copies of the remaining entries. -/
theorem copyNodes_spec (valid : Valid policy frame state copied)
    (chain : Chain (view (·.overallListNext) frame) (addresses entries) none)
    (data : ∀ entry ∈ entries, view (·.memberData) frame entry.1 = some entry.2)
    (keys : ((copied ++ entries).map fun entry => policy.valueImitationFunctions entry.2).Nodup)
    (room : (copied ++ entries).length ≤
      maximumElementsFor state.self.hashCapacity state.self.loadFactor)
    (enough : entries.length ≤ fuel) :
    Runs (copyNodes policy fuel (addresses entries).head?) state
      (fun _ next => ∃ copies, copies.map Prod.snd = (copied ++ entries).map Prod.snd ∧
        Valid policy frame next copies)
      (fun _ next => Abandoned policy frame next) := by
  induction entries generalizing fuel state copied with
  | nil => cases fuel <;> exact ⟨copied, by simp, valid⟩
  | cons entry entries ih =>
      rcases fuel with _ | fuel
      · simp at enough
      · rcases chain with ⟨link, chain⟩
        have found := data entry List.mem_cons_self
        rcases owned : frame entry.1 with _ | cell
        · simp [view, owned] at found
        · simp only [view, owned, Option.map_some, Option.some.injEq, Option.or_none]
            at link found
          have unknown : ∀ other ∈ copied, policy.valueImitationFunctions other.2 ≠
              policy.valueImitationFunctions cell.memberData := by
            intro other member
            rw [List.map_append, List.nodup_append] at keys
            rw [found]
            exact keys.2.2 _ (List.mem_map.mpr ⟨other, member, rfl⟩) _
              (List.mem_map.mpr ⟨entry, List.mem_cons_self, rfl⟩)
          simp only [addresses_cons, List.head?_cons, copyNodes, runs_bind,
            runs_read (valid.extends_frame owned)]
          apply (newNode_spec valid).mono
          · intro node first outcome
            rcases outcome with ⟨new, selfFirst, validFirst⟩
            apply runs_hashOfValue
            · intro second same
              have validSecond := validFirst.quiet same
              have selfSecond : second.self = state.self := same.2.trans selfFirst
              have roomy : Spacious second.self := by
                rw [Spacious, validSecond.holds.size_eq, selfSecond]
                rw [List.length_append, List.length_cons] at room
                have none : maximumElementsFor 0 state.self.loadFactor = 0 := by
                  simp [maximumElementsFor]
                constructor
                · intro zero
                  rw [zero, none] at room
                  omega
                · omega
              have positive : 0 < second.self.hashCapacity := Nat.pos_of_ne_zero roomy.1
              rw [runs_get, runs_bucketOf positive]
              apply (linkNode_spec validSecond new roomy unknown).mono
              · intro _ third outcome
                rcases outcome with ⟨validThird, capacityEq, factorEq⟩
                rw [link]
                apply (ih validThird chain _ _ _ (Nat.le_of_succ_le_succ enough)).mono
                · intro _ last outcome
                  rcases outcome with ⟨copies, same, validLast⟩
                  exact ⟨copies, by rw [same]; simp [found], validLast⟩
                · exact fun _ _ => id
                · intro other member
                  exact data other (List.mem_cons_of_mem _ member)
                · simpa [found] using keys
                · rw [capacityEq, factorEq, selfSecond]
                  simpa [Nat.add_assoc, Nat.add_comm] using room
              · exact fun _ _ => id
            · intro moment second faulty same
              refine ⟨⟨moment, faulty⟩, _, _, ?_, validFirst.quiet same⟩
              intro address other owned
              rw [Function.update_of_ne]
              · exact owned
              · rintro rfl
                simp [new] at owned
          · intro fault first interrupted
            exact ⟨interrupted.1, frame, copied, fun _ _ => id, valid.quiet interrupted.2.2⟩

/-- The copy constructor makes a table with the same elements in the same order. -/
theorem copyConstruct_spec {source : HashTable}
    (holds : Holds policy state.heap.cells source entries)
    (blank : state.self = .blank source.loadFactor source.hashCapacity) :
    Runs (copyConstruct policy source) state
      (fun _ next => ∃ copies, copies.map Prod.snd = entries.map Prod.snd ∧
        Valid policy state.heap.cells next copies)
      (fun _ next => (∃ moment, policy.faults moment = true) ∧
        ∀ address cell, state.heap.cells address = some cell →
          next.heap.cells address = some cell) := by
  simp only [copyConstruct, runs_bind, runs_get]
  split
  · next zero =>
    have none : entries = [] := by
      have positive := holds.capacity_pos
      have total := holds.size_eq
      rw [blank] at zero
      have capacity : source.hashCapacity = 0 := zero
      rw [← List.length_eq_zero_iff]
      omega
    rw [blank] at zero
    refine ⟨[], by rw [none], ⟨?_, fun _ _ => rfl, by simp⟩⟩
    rw [blank]
    have capacity : source.hashCapacity = 0 := zero
    rw [capacity]
    exact .empty holds.factor (by decide) (Nat.zero_le _)
  · rw [runs_bind]
    apply runs_sizeAdjust
    · intro first same _
      have start : Valid policy state.heap.cells
          { first with
            self := { HashTable.blank source.loadFactor source.hashCapacity with
              vectorHashTable := List.replicate source.hashCapacity none } } [] := by
        constructor
        · exact .empty holds.factor holds.width holds.admitted
        · intro address _
          rw [same.1]
        · simp
      simp only [runs_bind, runs_modifySelf, runs_guarded, same.2, blank, holds.listed.head_eq]
      apply (copyNodes_spec start holds.listed.forwards holds.data holds.keys
        (holds.size_eq ▸ holds.room) holds.length_le).mono
      · intro _ next outcome
        exact outcome
      · rintro fault next ⟨faulty, outer, partly, kept, valid⟩
        apply (clearNodes_spec valid).mono
        · intro _ last outcome
          refine ⟨faulty, ?_⟩
          intro address cell owned
          exact outcome.1.extends_frame (kept address cell owned)
        · exact fun _ _ => id
    · intro moment first faulty same
      refine ⟨⟨moment, faulty⟩, ?_⟩
      rw [same.1]
      exact fun _ _ => id
    · intro large
      rw [blank] at large
      exact absurd holds.admitted (Nat.not_le_of_lt large)

end Construction

section Iteration

/-- Iterating over the insertion list yields the elements of the remaining entries. -/
theorem collect_spec
    (chain : Chain (view (·.overallListNext) state.heap.cells) (addresses entries) none)
    (data : ∀ entry ∈ entries, view (·.memberData) state.heap.cells entry.1 = some entry.2)
    (enough : entries.length ≤ fuel) :
    Runs (collect fuel (addresses entries).head?) state
      (fun elements next => next = state ∧ elements = entries.map Prod.snd) raises := by
  induction entries generalizing fuel with
  | nil => cases fuel <;> exact ⟨rfl, rfl⟩
  | cons entry entries ih =>
      rcases fuel with _ | fuel
      · simp at enough
      · rcases chain with ⟨link, chain⟩
        have found := data entry List.mem_cons_self
        rcases live : state.heap.cells entry.1 with _ | cell
        · simp [view, live] at found
        · simp only [view, live, Option.map_some, Option.some.injEq, Option.or_none]
            at link found
          simp only [addresses_cons, List.head?_cons, collect, runs_bind, runs_read live, link]
          apply (ih chain (fun other member => data other (List.mem_cons_of_mem _ member))
            (Nat.le_of_succ_le_succ enough)).mono
          · rintro rest next ⟨rfl, rfl⟩
            exact ⟨rfl, by simp [found]⟩
          · exact fun _ _ => id

/-- Iteration from `Begin` to `End` yields the elements in order of insertion. -/
theorem elements_spec (valid : Valid policy frame state entries) :
    Runs elements state
      (fun elements next => next = state ∧ elements = entries.map Prod.snd) raises := by
  have holds := valid.holds
  simp only [elements, runs_bind, runs_get]
  rw [holds.listed.head_eq]
  exact collect_spec holds.listed.forwards holds.data valid.length_le

end Iteration

end Wan.Container.HashTable
