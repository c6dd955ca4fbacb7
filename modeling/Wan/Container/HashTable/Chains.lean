import Wan.Container.HashTable.Model

/-!
# Bucket chains and the insertion list

What the links of a hash table mean for a list of entries in order of insertion:
each bucket chain holds the entries of its bucket, the youngest first, and the
insertion list holds all entries.  The lemmas say what linking a new node and
unlinking an old one do to the bucket chains.
-/

namespace Wan.Container.HashTable

open Wan.Library Wan.Library.LinkedList

/-- The nodes of a heap. -/
abbrev Nodes (Value : Type) := Addr → Option (HashTableNode Value)

/-- An element with the address of its node. -/
abbrev Entry (Value : Type) := Addr × Value

variable {Key Value : Type}

/-- The addresses of entries. -/
def addresses (entries : List (Entry Value)) : List Addr := entries.map Prod.fst

/-- The bucket in which a value belongs. -/
def home (policy : Policy Key Value) (capacity : Nat) (value : Value) : Nat :=
  (policy.hashValue value).toNat % capacity

/-- The entries of one bucket, the youngest first. -/
def inBucket (policy : Policy Key Value) (capacity bucket : Nat) (entries : List (Entry Value)) :
    List (Entry Value) :=
  (entries.filter fun entry => home policy capacity entry.2 = bucket).reverse

/-- Every slot of the bucket array starts the chain of the entries of its bucket. -/
structure Bucketed (policy : Policy Key Value) (link : Addr → Option (Option Addr))
    (buckets : List (Option Addr)) (capacity : Nat) (entries : List (Entry Value)) : Prop where
  length_eq : buckets.length = capacity
  slots : ∀ bucket < capacity,
    buckets[bucket]? = some (addresses (inBucket policy capacity bucket entries)).head?
  chains : ∀ bucket < capacity,
    Chain link (addresses (inBucket policy capacity bucket entries)) none

/-- The table holds the entries in this order: their nodes form the insertion list,
every node is on the chain of the bucket of its value and on no other, and the
counters agree with the entries. -/
structure Holds (policy : Policy Key Value) (nodes : Nodes Value) (table : HashTable)
    (entries : List (Entry Value)) : Prop where
  listed : Doubly (view (·.overallListNext) nodes) (view (·.overallListPrev) nodes)
    table.overallListHeadNode table.overallListBeforeNode (addresses entries)
  data : ∀ entry ∈ entries, view (·.memberData) nodes entry.1 = some entry.2
  bucketed : Bucketed policy (view (·.memberNext) nodes) table.vectorHashTable table.hashCapacity
    entries
  keys : (entries.map fun entry => policy.valueImitationFunctions entry.2).Nodup
  size_eq : table.memberSize = entries.length
  factor : 1 ≤ table.loadFactor ∧ table.loadFactor ≤ 10
  room : table.memberSize ≤ maximumElementsFor table.hashCapacity table.loadFactor
  width : table.hashCapacity < 2 ^ 64
  admitted : table.hashCapacity ≤ policy.maxSize

section Addresses

variable {policy : Policy Key Value} {entries earlier later : List (Entry Value)}
variable {entry : Entry Value} {capacity bucket : Nat} {node : Addr} {value : Value}

@[simp] theorem addresses_nil : addresses ([] : List (Entry Value)) = [] := rfl

@[simp] theorem addresses_cons :
    addresses (entry :: entries) = entry.1 :: addresses entries := rfl

@[simp] theorem addresses_append :
    addresses (earlier ++ later) = addresses earlier ++ addresses later :=
  List.map_append

@[simp] theorem addresses_reverse : addresses entries.reverse = (addresses entries).reverse :=
  List.map_reverse

@[simp] theorem length_addresses : (addresses entries).length = entries.length :=
  List.length_map _

theorem mem_addresses (member : entry ∈ entries) : entry.1 ∈ addresses entries :=
  List.mem_map.mpr ⟨entry, member, rfl⟩

@[simp] theorem inBucket_nil :
    inBucket policy capacity bucket ([] : List (Entry Value)) = [] := rfl

@[simp] theorem inBucket_append : inBucket policy capacity bucket (earlier ++ later) =
    inBucket policy capacity bucket later ++ inBucket policy capacity bucket earlier := by
  simp [inBucket]

variable (entry) in
theorem inBucket_home :
    inBucket policy capacity (home policy capacity entry.2) (entry :: entries) =
      inBucket policy capacity (home policy capacity entry.2) entries ++ [entry] := by
  simp [inBucket]

theorem inBucket_cons_of_ne (apart : home policy capacity entry.2 ≠ bucket) :
    inBucket policy capacity bucket (entry :: entries) =
      inBucket policy capacity bucket entries := by
  simp [inBucket, apart]

theorem mem_inBucket : entry ∈ inBucket policy capacity bucket entries ↔
    entry ∈ entries ∧ home policy capacity entry.2 = bucket := by
  simp [inBucket]

theorem addresses_inBucket_subset :
    addresses (inBucket policy capacity bucket entries) ⊆ addresses entries := by
  intro address member
  rcases List.mem_map.mp member with ⟨entry, chained, rfl⟩
  exact mem_addresses (mem_inBucket.mp chained).1

/-- A live entry is determined by its address. -/
theorem eq_of_address {other : Entry Value} (distinct : (addresses entries).Nodup)
    (member : entry ∈ entries) (otherMember : other ∈ entries) (same : entry.1 = other.1) :
    entry = other :=
  List.inj_on_of_nodup_map distinct member otherMember same

variable (policy capacity bucket) in
theorem nodup_inBucket (distinct : (addresses entries).Nodup) :
    (addresses (inBucket policy capacity bucket entries)).Nodup := by
  rw [inBucket, addresses_reverse, List.nodup_reverse]
  exact distinct.sublist (List.filter_sublist.map Prod.fst)

/-- An address belongs to one bucket only. -/
theorem home_eq_of_address (distinct : (addresses entries).Nodup) (member : entry ∈ entries)
    (chained : entry.1 ∈ addresses (inBucket policy capacity bucket entries)) :
    home policy capacity entry.2 = bucket := by
  rcases List.mem_map.mp chained with ⟨other, otherMember, same⟩
  rw [mem_inBucket] at otherMember
  rw [← eq_of_address distinct otherMember.1 member same]
  exact otherMember.2

end Addresses

namespace Bucketed

variable {policy : Policy Key Value} {link other : Addr → Option (Option Addr)}
variable {buckets : List (Option Addr)} {capacity bucket : Nat}
variable {entries earlier later : List (Entry Value)} {node : Addr} {value : Value}

variable (policy value) in
theorem home_lt (positive : 0 < capacity) : home policy capacity value < capacity :=
  Nat.mod_lt _ positive

/-- Fresh buckets hold nothing. -/
theorem fresh : Bucketed policy link (List.replicate capacity none) capacity [] where
  length_eq := List.length_replicate
  slots bucket below := by simp [below]
  chains bucket below := trivial

/-- The links of other addresses do not matter. -/
theorem congr (bucketed : Bucketed policy link buckets capacity entries)
    (same : ∀ address ∈ addresses entries, other address = link address) :
    Bucketed policy other buckets capacity entries where
  length_eq := bucketed.length_eq
  slots := bucketed.slots
  chains bucket below := (bucketed.chains bucket below).congr fun address member =>
    same address (addresses_inBucket_subset member)

/-- A new node in front of its bucket joins the entries as the youngest one. -/
theorem prepend (bucketed : Bucketed policy link buckets capacity entries)
    (absent : node ∉ addresses entries) {head : Option Addr}
    (slot : buckets[home policy capacity value]? = some head) :
    Bucketed policy (Function.update link node (some head))
      (buckets.set (home policy capacity value) (some node)) capacity
      (entries ++ [(node, value)]) := by
  have kept : Bucketed policy (Function.update link node (some head)) buckets capacity entries := by
    apply bucketed.congr
    intro address member
    apply Function.update_of_ne
    rintro rfl
    exact absent member
  constructor
  · rw [List.length_set, bucketed.length_eq]
  · intro bucket below
    by_cases same : home policy capacity value = bucket
    · subst same
      rw [List.getElem?_set_self (bucketed.length_eq.symm ▸ below), inBucket_append,
        inBucket_home (node, value)]
      rfl
    · rw [List.getElem?_set_ne same, bucketed.slots bucket below, inBucket_append,
        inBucket_cons_of_ne same]
      rfl
  · intro bucket below
    by_cases same : home policy capacity value = bucket
    · subst same
      rw [bucketed.slots _ below] at slot
      rw [inBucket_append, inBucket_home (node, value)]
      constructor
      · rw [Function.update_self, ← Option.some.inj slot]
        exact (congrArg some (Option.or_none ..)).symm
      · exact kept.chains _ below
    · rw [inBucket_append, inBucket_cons_of_ne same]
      exact kept.chains bucket below

/-- The bucket array after a node was unlinked from the front of a chain. -/
def reslot (buckets : List (Option Addr)) (bucket : Nat) (next : Option Addr) :
    Option Addr → List (Option Addr)
  | none => buckets.set bucket next
  | some _ => buckets

/-- The chain of a bucket around one of its entries. -/
theorem chain_split : addresses (inBucket policy capacity (home policy capacity value)
      (earlier ++ (node, value) :: later)) =
    addresses (inBucket policy capacity (home policy capacity value) later) ++
      node :: addresses (inBucket policy capacity (home policy capacity value) earlier) := by
  rw [inBucket_append, inBucket_home (node, value)]
  simp

/-- Letting the predecessor of a node, or the slot, skip it removes its entry. -/
theorem erase (bucketed : Bucketed policy link buckets capacity (earlier ++ (node, value) :: later))
    (distinct : (addresses (earlier ++ (node, value) :: later)).Nodup)
    {next previous : Option Addr}
    (nextEq : next =
      (addresses (inBucket policy capacity (home policy capacity value) earlier)).head?)
    (previousEq : previous =
      (addresses (inBucket policy capacity (home policy capacity value) later)).getLast?) :
    Bucketed policy (redirect link next previous)
      (reslot buckets (home policy capacity value) next previous) capacity (earlier ++ later) := by
  have apart : ∀ bucket, home policy capacity value ≠ bucket →
      inBucket policy capacity bucket (earlier ++ (node, value) :: later) =
        inBucket policy capacity bucket (earlier ++ later) := by
    intro bucket different
    rw [inBucket_append, inBucket_append, inBucket_cons_of_ne different]
  constructor
  · cases previous <;> simp [reslot, bucketed.length_eq]
  · intro bucket below
    by_cases same : home policy capacity value = bucket
    · subst same
      have slot := bucketed.slots _ below
      rw [chain_split] at slot
      rw [inBucket_append, addresses_append]
      cases chain : addresses (inBucket policy capacity (home policy capacity value) later) with
      | nil =>
          rw [chain, List.getLast?_nil] at previousEq
          subst previousEq
          rw [reslot, List.getElem?_set_self (bucketed.length_eq.symm ▸ below), nextEq]
          rfl
      | cons first rest =>
          rw [chain] at previousEq slot
          rw [List.getLast?_cons] at previousEq
          subst previousEq
          exact slot
    · rw [← apart bucket same, ← bucketed.slots bucket below]
      cases previous with
      | none => exact List.getElem?_set_ne same
      | some _ => rfl
  · intro bucket below
    have chain := bucketed.chains bucket below
    by_cases same : home policy capacity value = bucket
    · subst same
      have once := nodup_inBucket policy capacity (home policy capacity value) distinct
      rw [chain_split] at chain once
      rw [inBucket_append, addresses_append, nextEq, previousEq]
      simpa only [Option.or_none] using chain.remove once
    · rw [← apart bucket same]
      apply chain.congr
      intro address member
      apply redirect_of_ne
      intro equal
      rw [previousEq] at equal
      have inLater := List.mem_of_getLast? equal
      rcases List.mem_map.mp inLater with ⟨entry, entryMember, rfl⟩
      rw [mem_inBucket] at entryMember
      have inEntries : entry ∈ earlier ++ (node, value) :: later := by simp [entryMember.1]
      exact same (entryMember.2.symm.trans (home_eq_of_address distinct inEntries member))

end Bucketed

namespace Holds

variable {policy : Policy Key Value} {nodes other : Nodes Value} {table : HashTable}
variable {entries earlier later : List (Entry Value)} {entry : Entry Value}

theorem distinct (holds : Holds policy nodes table entries) : (addresses entries).Nodup :=
  holds.listed.distinct

/-- Every entry has a node. -/
theorem live (holds : Holds policy nodes table entries) (member : entry ∈ entries) :
    ∃ cell, nodes entry.1 = some cell ∧ cell.memberData = entry.2 := by
  have found := holds.data entry member
  rcases node : nodes entry.1 with _ | cell
  · simp [view, node] at found
  · exact ⟨cell, rfl, by simpa [view, node] using found⟩

/-- Other nodes do not matter. -/
theorem congr (holds : Holds policy nodes table entries)
    (same : ∀ address ∈ addresses entries, other address = nodes address) :
    Holds policy other table entries where
  listed := holds.listed.congr (fun address member => by rw [view, same address member, view])
    fun address member => by rw [view, same address member, view]
  data entry member := by rw [view, same _ (mem_addresses member), ← holds.data entry member, view]
  bucketed := holds.bucketed.congr fun address member => by rw [view, same address member, view]
  keys := holds.keys
  size_eq := holds.size_eq
  factor := holds.factor
  room := holds.room
  width := holds.width
  admitted := holds.admitted

/-- A table of null slots is empty. -/
theorem empty {capacity factor : Nat} (factorOk : 1 ≤ factor ∧ factor ≤ 10)
    (width : capacity < 2 ^ 64) (admitted : capacity ≤ policy.maxSize) :
    Holds policy nodes ⟨0, factor, capacity, List.replicate capacity none, none, none⟩ [] where
  listed := .empty
  data _ member := absurd member List.not_mem_nil
  bucketed := .fresh
  keys := List.nodup_nil
  size_eq := rfl
  factor := factorOk
  room := Nat.zero_le _
  width := width
  admitted := admitted

/-- A table with elements has buckets. -/
theorem capacity_pos (holds : Holds policy nodes table entries) (some : table.memberSize ≠ 0) :
    0 < table.hashCapacity := by
  rcases Nat.eq_zero_or_pos table.hashCapacity with zero | positive
  · have room := holds.room
    rw [zero] at room
    simp [maximumElementsFor] at room
    exact absurd room some
  · exact positive

end Holds

end Wan.Container.HashTable
