import Wan.Library.LinkedList

/-!
# Rings

Circular doubly linked lists through a head that stands for no element: the next
links lead from the head over the elements back to the head, and the previous links
go the same way in the opposite direction.  A place of a ring is an element or, behind
the last element, the head.
-/

namespace Wan.Library.LinkedList

/-- The address at a place, before the later elements. -/
def successor (head : Addr) (later : List Addr) : Addr := later.head?.getD head

/-- The address in front of a place, behind the earlier elements. -/
def predecessor (head : Addr) (earlier : List Addr) : Addr := earlier.getLast?.getD head

/-- The address at a position. -/
def place (head : Addr) (addresses : List Addr) (position : Nat) : Addr :=
  successor head (addresses.drop position)

/-- The elements between a head and itself, in both directions. -/
structure Ring (next prev : Addr → Option (Option Addr)) (head : Addr)
    (addresses : List Addr) : Prop where
  distinct : (head :: addresses).Nodup
  forwards : Chain next (head :: addresses) (some head)
  backwards : Chain prev (head :: addresses.reverse) (some head)

section Places

variable {head address : Addr} {addresses earlier later : List Addr} {position : Nat}

@[simp] theorem successor_nil : successor head [] = head := rfl

@[simp] theorem successor_cons : successor head (address :: later) = address := rfl

@[simp] theorem predecessor_nil : predecessor head [] = head := rfl

@[simp] theorem predecessor_concat : predecessor head (earlier ++ [address]) = address := by
  simp [predecessor]

theorem successor_reverse : successor head earlier.reverse = predecessor head earlier := by
  rw [successor, predecessor, List.head?_reverse]

theorem predecessor_reverse : predecessor head later.reverse = successor head later := by
  rw [successor, predecessor, List.getLast?_reverse]

theorem successor_mem : successor head later ∈ head :: later := by
  cases later with
  | nil => exact List.mem_cons_self
  | cons address rest => exact List.mem_cons_of_mem _ List.mem_cons_self

theorem predecessor_mem : predecessor head earlier ∈ head :: earlier := by
  rw [← successor_reverse]
  simpa using (successor_mem : successor head earlier.reverse ∈ head :: earlier.reverse)

theorem successor_mem_append : successor head later ∈ head :: (earlier ++ later) :=
  List.cons_subset_cons head (List.subset_append_right earlier later) successor_mem

theorem predecessor_mem_append : predecessor head earlier ∈ head :: (earlier ++ later) :=
  List.cons_subset_cons head (List.subset_append_left earlier later) predecessor_mem

theorem head?_or_some : later.head?.or (some head) = some (successor head later) := by
  cases later <;> rfl

theorem getLast?_head_cons : (head :: earlier).getLast? = some (predecessor head earlier) :=
  List.getLast?_cons

theorem place_length : place head addresses addresses.length = head := by
  rw [place, List.drop_length, successor_nil]

theorem place_zero : place head addresses 0 = successor head addresses := rfl

theorem place_mem : place head addresses position ∈ head :: addresses := by
  have member : successor head (addresses.drop position) ∈
      head :: (addresses.take position ++ addresses.drop position) := successor_mem_append
  rwa [List.take_append_drop] at member

/-- What comes later does not matter for a place. -/
theorem place_append_of_lt (before : position < earlier.length) :
    place head (earlier ++ later) position = place head earlier position := by
  rw [place, place, List.drop_append_of_le_length (Nat.le_of_lt before),
    List.drop_eq_getElem_cons before]
  rfl

/-- What comes earlier moves a place on. -/
theorem place_append_of_le (behind : earlier.length ≤ position) :
    place head (earlier ++ later) position = place head later (position - earlier.length) := by
  obtain ⟨offset, rfl⟩ := Nat.exists_eq_add_of_le behind
  rw [place, place, List.drop_length_add_append, Nat.add_sub_cancel_left]

theorem place_eq_getElem? (within : position ≤ addresses.length) :
    (addresses ++ [head])[position]? = some (place head addresses position) := by
  rcases Nat.eq_or_lt_of_le within with rfl | before
  · rw [place_length, List.getElem?_append_right (Nat.le_refl _), Nat.sub_self]
    rfl
  · rw [List.getElem?_append_left before, List.getElem?_eq_getElem before, place,
      List.drop_eq_getElem_cons before, successor_cons]

/-- Different places have different addresses. -/
theorem place_inj {other : Nat} (distinct : (head :: addresses).Nodup)
    (within : position ≤ addresses.length) (otherWithin : other ≤ addresses.length) :
    place head addresses position = place head addresses other ↔ position = other := by
  constructor
  · intro same
    have nodup : (addresses ++ [head]).Nodup := by
      rw [List.nodup_append_comm]
      exact distinct
    apply (List.getElem?_inj (by simpa using Nat.lt_succ_of_le within) nodup).mp
    rw [place_eq_getElem? within, place_eq_getElem? otherWithin, same]
  · rintro rfl
    rfl

end Places

section Insertion

variable {link : Addr → Option (Option Addr)} {earlier later : List Addr} {new : Addr}
variable {last : Option Addr}

/-- A chain with a new address, after the link to its place has been redirected. -/
theorem Chain.insert (chain : Chain link (earlier ++ later) last)
    (distinct : (earlier ++ later).Nodup) (absent : new ∉ earlier ++ later) :
    Chain (LinkedList.redirect (Function.update link new (some (later.head?.or last))) (some new)
      earlier.getLast?) (earlier ++ new :: later) last := by
  rw [chain_append] at chain
  rw [List.mem_append, not_or] at absent
  rw [List.nodup_append] at distinct
  have others : ∀ address ∈ earlier ++ later,
      Function.update link new (some (later.head?.or last)) address = link address := by
    intro address member
    apply Function.update_of_ne
    rintro rfl
    rcases List.mem_append.mp member with inside | inside
    · exact absent.1 inside
    · exact absent.2 inside
  rw [chain_append, chain_cons]
  refine ⟨?_, ?_, ?_⟩
  · apply Chain.redirect _ distinct.1
    · exact later.head?.or last
    · exact chain.1.congr fun address member => others address (List.mem_append_left _ member)
  · rw [redirect_of_ne, Function.update_self]
    intro same
    exact absent.1 (List.mem_of_getLast? same)
  · apply chain.2.congr
    intro address member
    rw [redirect_of_ne, others address (List.mem_append_right _ member)]
    intro same
    exact distinct.2.2 address (List.mem_of_getLast? same) address member rfl

end Insertion

namespace Ring

variable {next prev otherNext otherPrev : Addr → Option (Option Addr)} {head new address : Addr}
variable {addresses earlier later : List Addr} {position : Nat}

/-- A head that is linked to itself. -/
theorem alone (nextSelf : next head = some (some head)) (prevSelf : prev head = some (some head)) :
    Ring next prev head [] :=
  ⟨List.nodup_singleton _, ⟨nextSelf, trivial⟩, ⟨prevSelf, trivial⟩⟩

/-- Seen from the other side. -/
theorem reverse (ring : Ring next prev head addresses) : Ring prev next head addresses.reverse where
  distinct := by
    have distinct := ring.distinct
    rw [List.nodup_cons] at distinct ⊢
    rwa [List.mem_reverse, List.nodup_reverse]
  forwards := ring.backwards
  backwards := by
    rw [List.reverse_reverse]
    exact ring.forwards

/-- The links of other addresses do not matter. -/
theorem congr (ring : Ring next prev head addresses)
    (nextSame : ∀ address ∈ head :: addresses, otherNext address = next address)
    (prevSame : ∀ address ∈ head :: addresses, otherPrev address = prev address) :
    Ring otherNext otherPrev head addresses where
  distinct := ring.distinct
  forwards := ring.forwards.congr nextSame
  backwards := ring.backwards.congr fun address member => prevSame address (by simpa using member)

/-- The next link over a place. -/
theorem next_predecessor (ring : Ring next prev head (earlier ++ later)) :
    next (predecessor head earlier) = some (some (successor head later)) := by
  have forwards := ring.forwards
  rcases List.eq_nil_or_concat earlier with rfl | ⟨front, address, rfl⟩
  · rw [List.nil_append, chain_cons, head?_or_some] at forwards
    exact forwards.1
  · rw [List.concat_eq_append, List.append_assoc, List.singleton_append,
      ← List.cons_append] at forwards
    rw [List.concat_eq_append, predecessor_concat, forwards.link_eq, head?_or_some]

/-- The previous link over a place. -/
theorem prev_successor (ring : Ring next prev head (earlier ++ later)) :
    prev (successor head later) = some (some (predecessor head earlier)) := by
  have flipped := ring.reverse
  rw [List.reverse_append] at flipped
  rw [← predecessor_reverse, flipped.next_predecessor, successor_reverse]

theorem next_head (ring : Ring next prev head addresses) :
    next head = some (some (successor head addresses)) := by
  have whole : Ring next prev head ([] ++ addresses) := ring
  exact whole.next_predecessor

theorem prev_head (ring : Ring next prev head addresses) :
    prev head = some (some (predecessor head addresses)) := by
  rw [ring.reverse.next_head, successor_reverse]

theorem next_eq (ring : Ring next prev head (earlier ++ address :: later)) :
    next address = some (some (successor head later)) := by
  rw [List.append_cons] at ring
  rw [← ring.next_predecessor, predecessor_concat]

theorem prev_eq (ring : Ring next prev head (earlier ++ address :: later)) :
    prev address = some (some (predecessor head earlier)) :=
  ring.prev_successor

/-- An element is not one of its own neighbours. -/
theorem ne_neighbours (ring : Ring next prev head (earlier ++ address :: later)) :
    address ∉ head :: (earlier ++ later) := by
  have distinct := ring.distinct
  rw [← List.cons_append, List.nodup_middle, List.nodup_cons] at distinct
  exact distinct.1

/-- Next and previous links are mutually inverse. -/
theorem prev_of_next (ring : Ring next prev head addresses) (member : address ∈ head :: addresses) :
    ∃ other ∈ head :: addresses, next address = some (some other) ∧
      prev other = some (some address) := by
  obtain ⟨earlier, later, rfl, same⟩ : ∃ earlier later, addresses = earlier ++ later ∧
      predecessor head earlier = address := by
    rcases List.mem_cons.mp member with rfl | inside
    · exact ⟨[], addresses, rfl, rfl⟩
    · obtain ⟨earlier, later, rfl⟩ := List.append_of_mem inside
      exact ⟨earlier ++ [address], later, List.append_cons .., predecessor_concat⟩
  refine ⟨successor head later, successor_mem_append, ?_, ?_⟩
  · rw [← same, ring.next_predecessor]
  · rw [ring.prev_successor, same]

/-- Let the neighbours of a place enclose a new element. -/
theorem insert (ring : Ring next prev head (earlier ++ later))
    (absent : new ∉ head :: (earlier ++ later)) :
    Ring
      (Function.update (Function.update next new (some (some (successor head later))))
        (predecessor head earlier) (some (some new)))
      (Function.update (Function.update prev new (some (some (predecessor head earlier))))
        (successor head later) (some (some new)))
      head (earlier ++ new :: later) := by
  constructor
  · have distinct := ring.distinct
    rw [← List.cons_append] at distinct absent ⊢
    exact List.nodup_middle.mpr (List.nodup_cons.mpr ⟨absent, distinct⟩)
  · have forwards : Chain next ((head :: earlier) ++ later) (some head) := ring.forwards
    have chain := forwards.insert ring.distinct absent
    rwa [getLast?_head_cons, head?_or_some] at chain
  · have flipped := ring.reverse
    rw [List.reverse_append] at flipped
    have backwards : Chain prev ((head :: later.reverse) ++ earlier.reverse) (some head) :=
      flipped.forwards
    have outside : new ∉ (head :: later.reverse) ++ earlier.reverse := by
      simpa [and_comm, or_comm] using absent
    have chain := backwards.insert flipped.distinct outside
    rw [getLast?_head_cons, head?_or_some, predecessor_reverse, successor_reverse] at chain
    simpa [LinkedList.redirect] using chain

/-- Let the neighbours of an element skip it. -/
theorem remove (ring : Ring next prev head (earlier ++ address :: later)) :
    Ring (Function.update next (predecessor head earlier) (some (some (successor head later))))
      (Function.update prev (successor head later) (some (some (predecessor head earlier))))
      head (earlier ++ later) := by
  constructor
  · exact ring.distinct.sublist
      (((List.Sublist.refl _).append (List.sublist_cons_self _ _)).cons_cons head)
  · have forwards : Chain next ((head :: earlier) ++ address :: later) (some head) := ring.forwards
    have chain := forwards.remove ring.distinct
    rwa [getLast?_head_cons, head?_or_some] at chain
  · have flipped := ring.reverse
    rw [List.reverse_append, List.reverse_cons, List.append_assoc, List.singleton_append] at flipped
    have backwards : Chain prev ((head :: later.reverse) ++ address :: earlier.reverse)
        (some head) := flipped.forwards
    have chain := backwards.remove flipped.distinct
    rw [getLast?_head_cons, head?_or_some, predecessor_reverse, successor_reverse] at chain
    simpa [LinkedList.redirect] using chain

/-- The next link of an element leads to the next place. -/
theorem next_place (ring : Ring next prev head addresses) (inside : position < addresses.length) :
    next (place head addresses position) = some (some (place head addresses (position + 1))) := by
  have split := List.take_append_drop position addresses
  rw [List.drop_eq_getElem_cons inside] at split
  rw [← split] at ring
  rw [place, List.drop_eq_getElem_cons inside, successor_cons, ring.next_eq]
  rfl

/-- The previous link leads to the previous place. -/
theorem prev_place (ring : Ring next prev head addresses) (inside : position < addresses.length) :
    prev (place head addresses (position + 1)) = some (some (place head addresses position)) := by
  have split := List.take_append_drop (position + 1) addresses
  rw [← split] at ring
  rw [place, ring.prev_successor, List.take_succ_eq_append_getElem inside, predecessor_concat,
    place, List.drop_eq_getElem_cons inside, successor_cons]

end Ring

end Wan.Library.LinkedList
