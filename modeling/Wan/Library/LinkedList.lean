import Mathlib.Algebra.Ring.Nat
import Mathlib.Logic.Function.Basic
import Mathlib.Data.List.Nodup

/-!
# Heaps of nodes and chains of links

A heap of records that programs allocate, change and release, and the chains that
the link fields of such records form.  A chain is read through one link field, so
that a doubly linked list is a chain of next links over a list of addresses
together with a chain of previous links over its reverse.
-/

namespace Wan.Library.LinkedList

/-- An address of an allocated record. A link is an optional address. -/
abbrev Addr := Nat

/-- The live records and the next address to allocate, which no record uses. -/
structure Heap (N : Type) where
  cells : Addr → Option N
  next : Addr
  fresh : ∀ address, next ≤ address → cells address = none

namespace Heap

variable {N : Type}

/-- The heap without records. -/
def empty : Heap N := ⟨fun _ => none, 0, fun _ _ => rfl⟩

/-- Add a record at the next address. -/
def alloc (heap : Heap N) (node : N) : Heap N where
  cells := Function.update heap.cells heap.next (some node)
  next := heap.next + 1
  fresh address above := by
    rw [Function.update_of_ne (Nat.ne_of_gt above)]
    exact heap.fresh address (Nat.le_of_succ_le above)

/-- Change the record at an address. -/
def adjust (heap : Heap N) (address : Addr) (change : N → N) : Heap N where
  cells := Function.update heap.cells address ((heap.cells address).map change)
  next := heap.next
  fresh other above := by
    have none := heap.fresh other above
    by_cases same : other = address
    · subst same
      simp [none]
    · rw [Function.update_of_ne same, none]

/-- Release an address. -/
def free (heap : Heap N) (address : Addr) : Heap N where
  cells := Function.update heap.cells address none
  next := heap.next
  fresh other above := by
    by_cases same : other = address
    · subst same
      simp
    · rw [Function.update_of_ne same, heap.fresh other above]

variable {heap : Heap N} {address other : Addr} {node : N} {change : N → N}

theorem lt_next (live : heap.cells address = some node) : address < heap.next := by
  by_contra above
  simp [heap.fresh address (Nat.le_of_not_lt above)] at live

@[simp] theorem alloc_cells : (heap.alloc node).cells =
    Function.update heap.cells heap.next (some node) := rfl

@[simp] theorem alloc_next : (heap.alloc node).next = heap.next + 1 := rfl

@[simp] theorem adjust_cells : (heap.adjust address change).cells =
    Function.update heap.cells address ((heap.cells address).map change) := rfl

@[simp] theorem adjust_next : (heap.adjust address change).next = heap.next := rfl

@[simp] theorem free_cells : (heap.free address).cells =
    Function.update heap.cells address none := rfl

@[simp] theorem free_next : (heap.free address).next = heap.next := rfl

/-- Change the record of an owner, if there is one. -/
def adjustAt (heap : Heap N) (change : N → N) : Option Addr → Heap N
  | none => heap
  | some address => heap.adjust address change

end Heap

section View

variable {N α : Type}

/-- One field of the live records. -/
def view (field : N → α) (cells : Addr → Option N) (address : Addr) : Option α :=
  (cells address).map field

variable {field : N → α} {cells : Addr → Option N} {heap : Heap N} {address : Addr} {node : N}
variable {change : N → N}

@[simp] theorem view_update : view field (Function.update cells address (some node)) =
    Function.update (view field cells) address (some (field node)) := by
  funext other
  by_cases same : other = address
  · subst same
    simp [view]
  · simp [view, same]

/-- Changing other fields leaves a field alone. -/
theorem view_update_map_of_eq (kept : ∀ node, field (change node) = field node) :
    view field (Function.update cells address ((cells address).map change)) = view field cells := by
  funext other
  by_cases same : other = address
  · subst same
    simp [view, Function.comp_def, kept]
  · simp [view, same]

theorem view_update_map (live : cells address = some node) :
    view field (Function.update cells address ((cells address).map change)) =
      Function.update (view field cells) address (some (field (change node))) := by
  rw [live]
  exact view_update

theorem view_adjust_of_eq (kept : ∀ node, field (change node) = field node) :
    view field (heap.adjust address change).cells = view field heap.cells :=
  view_update_map_of_eq kept

theorem view_adjust (live : heap.cells address = some node) :
    view field (heap.adjust address change).cells =
      Function.update (view field heap.cells) address (some (field (change node))) :=
  view_update_map live

end View

section Chain

/-- Following the links from the first address of the list visits the list in
order and ends at `last`. -/
def Chain (link : Addr → Option (Option Addr)) : List Addr → Option Addr → Prop
  | [], _ => True
  | address :: rest, last => link address = some (rest.head?.or last) ∧ Chain link rest last

/-- Redirect the link of an owner, if there is one. -/
def redirect (link : Addr → Option (Option Addr)) (target : Option Addr) :
    Option Addr → Addr → Option (Option Addr)
  | none => link
  | some owner => Function.update link owner (some target)

/-- Redirect the first link of a list unless another link leads to its place. -/
def entrance (first target : Option Addr) : Option Addr → Option Addr
  | none => target
  | some _ => first

variable {link other : Addr → Option (Option Addr)} {addresses earlier later : List Addr}
variable {address : Addr} {last first target : Option Addr}

@[simp] theorem chain_nil : Chain link [] last := trivial

@[simp] theorem chain_cons : Chain link (address :: later) last ↔
    link address = some (later.head?.or last) ∧ Chain link later last := Iff.rfl

theorem chain_append : Chain link (earlier ++ later) last ↔
    Chain link earlier (later.head?.or last) ∧ Chain link later last := by
  induction earlier with
  | nil => simp
  | cons address rest ih =>
      simp [ih, Option.or_assoc, and_assoc]

/-- A chain depends only on the links of its own addresses. -/
theorem Chain.congr (chain : Chain link addresses last)
    (same : ∀ address ∈ addresses, other address = link address) :
    Chain other addresses last := by
  induction addresses with
  | nil => trivial
  | cons address rest ih =>
      rcases chain with ⟨first, chain⟩
      constructor
      · rw [same address List.mem_cons_self, first]
      · apply ih chain
        intro address member
        exact same address (List.mem_cons_of_mem _ member)

theorem redirect_of_ne {owner : Option Addr} (apart : owner ≠ some address) :
    redirect link target owner address = link address := by
  cases owner with
  | none => rfl
  | some owner =>
      apply Function.update_of_ne
      rintro rfl
      exact apart rfl

/-- Redirecting the final link of a chain leads it elsewhere. -/
theorem Chain.redirect (chain : Chain link addresses last) (distinct : addresses.Nodup) :
    Chain (redirect link target addresses.getLast?) addresses target := by
  induction addresses with
  | nil => trivial
  | cons address rest ih =>
      rcases chain with ⟨here, chain⟩
      rw [List.nodup_cons] at distinct
      cases rest with
      | nil => simp [LinkedList.redirect]
      | cons successor rest =>
          rw [List.getLast?_cons_cons]
          constructor
          · rw [redirect_of_ne, here]
            · rfl
            · intro equal
              exact distinct.1 (List.mem_of_getLast? equal)
          · exact ih chain distinct.2

/-- A chain without one of its addresses, after the link to it has been redirected. -/
theorem Chain.remove (chain : Chain link (earlier ++ address :: later) last)
    (distinct : (earlier ++ address :: later).Nodup) :
    Chain (LinkedList.redirect link (later.head?.or last) earlier.getLast?) (earlier ++ later)
      last := by
  rw [chain_append, chain_cons] at chain
  rw [List.nodup_append] at distinct
  rw [chain_append]
  constructor
  · exact chain.1.redirect distinct.1
  · apply chain.2.2.congr
    intro other member
    apply redirect_of_ne
    intro equal
    exact distinct.2.2 other (List.mem_of_getLast? equal) other (List.mem_cons_of_mem _ member) rfl

/-- Every address of a chain carries the link to its successor. -/
theorem Chain.link_eq (chain : Chain link (earlier ++ address :: later) last) :
    link address = some (later.head?.or last) :=
  (chain_append.mp chain).2.1

end Chain

section Owner

variable {N : Type} {α : Type} {heap : Heap N} {address : Addr} {owner target : Option Addr}
variable {change : N → N}

/-- Every live record stays live. -/
theorem Heap.adjust_isSome (other : Addr) :
    ((heap.adjust address change).cells other).isSome = (heap.cells other).isSome := by
  by_cases same : other = address
  · subst same
    simp
  · simp [same]

theorem Heap.adjustAt_isSome (other : Addr) :
    ((heap.adjustAt change owner).cells other).isSome = (heap.cells other).isSome := by
  cases owner with
  | none => rfl
  | some address => exact adjust_isSome other

theorem Heap.adjustAt_of_ne (apart : owner ≠ some address) :
    (heap.adjustAt change owner).cells address = heap.cells address := by
  cases owner with
  | none => rfl
  | some other =>
      apply Function.update_of_ne
      rintro rfl
      exact apart rfl

/-- Changing other fields of an owner leaves a field alone. -/
theorem view_adjustAt_of_eq {field : N → α} (kept : ∀ node, field (change node) = field node) :
    view field (heap.adjustAt change owner).cells = view field heap.cells := by
  cases owner with
  | none => rfl
  | some address => exact view_adjust_of_eq kept

/-- Changing the link of a live owner redirects it. -/
theorem view_adjustAt {field : N → Option Addr} (redirected : ∀ node, field (change node) = target)
    (live : ∀ address, owner = some address → (heap.cells address).isSome) :
    view field (heap.adjustAt change owner).cells =
      redirect (view field heap.cells) target owner := by
  cases owner with
  | none => rfl
  | some address =>
      rcases Option.isSome_iff_exists.mp (live address rfl) with ⟨node, found⟩
      rw [Heap.adjustAt, view_adjust found, redirected]
      rfl

end Owner

/-- A doubly linked list with its first and last pointers. -/
structure Doubly (next prev : Addr → Option (Option Addr)) (head tail : Option Addr)
    (addresses : List Addr) : Prop where
  distinct : addresses.Nodup
  forwards : Chain next addresses none
  backwards : Chain prev addresses.reverse none
  head_eq : head = addresses.head?
  tail_eq : tail = addresses.getLast?

namespace Doubly

variable {next prev otherNext otherPrev : Addr → Option (Option Addr)} {head tail : Option Addr}
variable {addresses earlier later : List Addr} {address : Addr}

theorem empty : Doubly next prev none none [] :=
  ⟨List.nodup_nil, trivial, trivial, rfl, rfl⟩

/-- The links of other addresses do not matter. -/
theorem congr (list : Doubly next prev head tail addresses)
    (nextSame : ∀ address ∈ addresses, otherNext address = next address)
    (prevSame : ∀ address ∈ addresses, otherPrev address = prev address) :
    Doubly otherNext otherPrev head tail addresses where
  distinct := list.distinct
  forwards := list.forwards.congr nextSame
  backwards := list.backwards.congr fun address member =>
    prevSame address (List.mem_reverse.mp member)
  head_eq := list.head_eq
  tail_eq := list.tail_eq

/-- Link a new address, whose next link is null, behind the last one. -/
theorem append (list : Doubly next prev head tail addresses) (absent : address ∉ addresses)
    (ended : next address = some none) :
    Doubly (redirect next (some address) tail) (Function.update prev address (some tail))
      (entrance head (some address) tail) (some address) (addresses ++ [address]) := by
  rcases list with ⟨distinct, forwards, backwards, rfl, rfl⟩
  constructor
  · rw [List.nodup_append]
    refine ⟨distinct, List.nodup_singleton _, ?_⟩
    intro other member last single
    rw [List.mem_singleton.mp single]
    rintro rfl
    exact absent member
  · rw [chain_append]
    constructor
    · exact forwards.redirect distinct
    · constructor
      · rw [redirect_of_ne, ended]
        · rfl
        · intro equal
          exact absent (List.mem_of_getLast? equal)
      · trivial
  · rw [List.reverse_append]
    constructor
    · simp
    · apply backwards.congr
      intro other member
      apply Function.update_of_ne
      rintro rfl
      exact absent (List.mem_reverse.mp member)
  · cases addresses with
    | nil => rfl
    | cons first rest =>
        rcases last : (first :: rest).getLast? with _ | final
        · simp at last
        · rfl
  · simp

variable (list : Doubly next prev head tail (earlier ++ address :: later))

include list

theorem next_eq : next address = some later.head? := by
  rw [list.forwards.link_eq, Option.or_none]

theorem prev_eq : prev address = some earlier.getLast? := by
  have backwards := list.backwards
  rw [List.reverse_append, List.reverse_cons, List.append_assoc, List.singleton_append] at backwards
  rw [backwards.link_eq, Option.or_none, List.head?_reverse]

/-- Let both neighbours of an address skip it. -/
theorem remove : Doubly (redirect next later.head? earlier.getLast?)
    (redirect prev earlier.getLast? later.head?) (entrance head later.head? earlier.getLast?)
    (entrance tail earlier.getLast? later.head?) (earlier ++ later) := by
  constructor
  · exact list.distinct.sublist ((List.Sublist.refl _).append (List.sublist_cons_self _ _))
  · simpa only [Option.or_none] using list.forwards.remove list.distinct
  · have backwards := list.backwards
    have distinct := List.nodup_reverse.mpr list.distinct
    rw [List.reverse_append, List.reverse_cons, List.append_assoc, List.singleton_append]
      at backwards distinct
    have removed := backwards.remove distinct
    rwa [Option.or_none, List.head?_reverse, List.getLast?_reverse, ← List.reverse_append] at removed
  · rw [list.head_eq]
    cases earlier with
    | nil => rfl
    | cons first rest =>
        rcases last : (first :: rest).getLast? with _ | final
        · simp at last
        · rfl
  · rw [list.tail_eq]
    cases later with
    | nil => simp [entrance]
    | cons first rest => simp [entrance, List.getLast?_append, List.getLast?_cons]

end Doubly

end Wan.Library.LinkedList
