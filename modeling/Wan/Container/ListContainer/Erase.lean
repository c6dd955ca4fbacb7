import Wan.Container.ListContainer.Insert

/-!
# Erasure

The neighbours of an element skip it before its node is deleted.
-/

namespace Wan.Container.ListContainer

open Wan.Library Wan.Library.LinkedList Wan.Library.Program

variable {V : Type}

/-- The nodes after a node between two others was taken out and deleted. -/
def unlink (nodes : Nodes V) (address previous next : Addr) : Nodes V :=
  Function.update
    (adjust (adjust nodes previous fun node => { node with memberNext := some next })
      next fun node => { node with memberPrev := some previous })
    address none

section Unlinking

variable {frame : Nodes V} {state : State V} {head address : Addr} {value : V}
variable {earlier later entries : List (Entry V)} {iterator : ListIterator}

/-- An element between its neighbours. -/
theorem Holds.neighbours {nodes : Nodes V} {list : ListContainer}
    (holds : Holds nodes list head (earlier ++ (address, value) :: later)) :
    address ∉ head :: (addresses earlier ++ addresses later) ∧
      ∃ node, nodes address = some node ∧
        node.memberPrev = some (predecessor head (addresses earlier)) ∧
        node.memberNext = some (successor head (addresses later)) := by
  have ring := holds.ring
  rw [addresses_append, addresses_cons] at ring
  obtain ⟨node, live, nextEq⟩ := Option.map_eq_some_iff.mp ring.next_eq
  obtain ⟨same, sameLive, prevEq⟩ := Option.map_eq_some_iff.mp ring.prev_eq
  rw [live] at sameLive
  cases sameLive
  exact ⟨ring.ne_neighbours, node, live, prevEq, nextEq⟩

/-- The nodes around an element are live. -/
theorem Holds.around {nodes : Nodes V} {list : ListContainer}
    (holds : Holds nodes list head (earlier ++ (address, value) :: later)) {other : Addr}
    (member : other ∈ head :: (addresses earlier ++ addresses later)) :
    (nodes other).isSome := by
  apply holds.isSome
  simp only [addresses_append, addresses_cons, List.mem_cons, List.mem_append] at member ⊢
  tauto

/-- Once its neighbours skip it, an element is not in the list any more. -/
theorem Holds.skip {nodes : Nodes V} {list : ListContainer}
    (holds : Holds nodes list head (earlier ++ (address, value) :: later)) :
    Holds
      (adjust
        (adjust nodes (predecessor head (addresses earlier)) fun node =>
          { node with memberNext := some (successor head (addresses later)) })
        (successor head (addresses later)) fun node =>
          { node with memberPrev := some (predecessor head (addresses earlier)) })
      { list with memberSize := list.memberSize - 1 } head (earlier ++ later) where
  head_eq := holds.head_eq
  size_eq := by
    have size := holds.size_eq
    rw [List.length_append, List.length_cons] at size
    rw [UInt64.toNat_sub_of_le]
    · rw [UInt64.toNat_one, size, List.length_append]
      omega
    · rw [UInt64.le_iff_toNat_le, UInt64.toNat_one, size]
      omega
  ring := by
    have previousLive : (nodes (predecessor head (addresses earlier))).isSome :=
      holds.around predecessor_mem_append
    have nextLive : (nodes (successor head (addresses later))).isSome :=
      holds.around successor_mem_append
    have ring := holds.ring
    rw [addresses_append, addresses_cons] at ring
    rw [view_next_adjust_prev, view_next_adjust_next previousLive,
      view_prev_adjust_prev (by rwa [adjust_isSome]), view_prev_adjust_next, addresses_append]
    exact ring.remove
  sentinel := by
    rw [view_data_adjust_prev, view_data_adjust_next]
    exact holds.sentinel
  data entry member := by
    rw [view_data_adjust_prev, view_data_adjust_next]
    apply holds.data
    rcases List.mem_append.mp member with stored | stored
    · exact List.mem_append_left _ stored
    · exact List.mem_append_right _ (List.mem_cons_of_mem _ stored)
  bounded other member := by
    apply holds.bounded
    simp only [addresses_append, addresses_cons, List.mem_cons, List.mem_append] at member ⊢
    tauto

/-- An element leaves the list. -/
theorem Valid.unlink (valid : Valid frame state head (earlier ++ (address, value) :: later)) :
    Valid frame
      { state with
        nodes := ListContainer.unlink state.nodes address (predecessor head (addresses earlier))
          (successor head (addresses later))
        self := { state.self with memberSize := state.self.memberSize - 1 } }
      head (earlier ++ later) := by
  have absent : address ∉ head :: addresses (earlier ++ later) := by
    rw [addresses_append]
    exact valid.holds.neighbours.1
  have members : ∀ other, other ∈ head :: addresses (earlier ++ (address, value) :: later) ↔
      other = address ∨ other ∈ head :: addresses (earlier ++ later) := by
    intro other
    simp only [addresses_append, addresses_cons, List.mem_cons, List.mem_append]
    tauto
  constructor
  · apply valid.holds.skip.congr
    intro other member
    apply Function.update_of_ne
    rintro rfl
    exact absent member
  · intro other outside
    show ListContainer.unlink _ _ _ _ other = _
    by_cases same : other = address
    · subst same
      rw [ListContainer.unlink, Function.update_self]
      exact (valid.apart other ((members other).mpr (.inl rfl))).symm
    · have elsewhere : other ∉ head :: addresses (earlier ++ (address, value) :: later) := by
        rw [members other]
        exact not_or.mpr ⟨same, outside⟩
      rw [addresses_append] at outside
      rw [ListContainer.unlink, Function.update_of_ne same, adjust_of_ne, adjust_of_ne]
      · exact valid.framed other elsewhere
      · rintro rfl
        exact outside predecessor_mem_append
      · rintro rfl
        exact outside successor_mem_append
  · intro other member
    exact valid.apart other ((members other).mpr (.inr member))

end Unlinking

section Methods

variable {frame : Nodes V} {state : State V} {head address : Addr} {value : V}
variable {earlier later entries : List (Entry V)} {iterator : ListIterator}
variable {raises : Fault → State V → Prop}

/-- An iterator of another list, or none, is rejected. -/
theorem erase_rejects
    (foreign : iterator.memberNode = none ∨ iterator.memberOwner ≠ state.self.memberHead) :
    Runs (erase iterator) state (fun _ _ => False)
      (fun fault next => next = state ∧
        fault = .invalidArgument "list erase iterator does not belong to this list") := by
  simp only [erase, runs_bind, runs_get, runs_refuse]
  exact ⟨fun _ => ⟨trivial, trivial⟩, fun own => absurd foreign.symm own⟩

/-- Erasing at the end of a list does nothing. -/
theorem erase_end_spec (valid : Valid frame state head entries) :
    Runs (erase ⟨some head, some head⟩) state
      (fun iterator next => next = state ∧ iterator = ⟨some head, some head⟩) raises := by
  simp only [erase, runs_bind, runs_get, runs_refuse, valid.holds.head_eq]
  exact ⟨fun foreign => by simp at foreign, fun _ => by simp [valid.holds.head_eq]⟩

/-- `Erase` takes the element at the iterator out, and yields the next place. -/
theorem erase_spec (valid : Valid frame state head (earlier ++ (address, value) :: later)) :
    Runs (erase ⟨some address, some head⟩) state
      (fun iterator next => iterator = ⟨some (successor head (addresses later)), some head⟩ ∧
        Valid frame next head (earlier ++ later))
      raises := by
  obtain ⟨apart, node, live, prevEq, nextEq⟩ := valid.holds.neighbours
  have notHead : ¬some address = some head := by
    intro same
    cases same
    exact apart List.mem_cons_self
  have previousLive : (state.nodes (predecessor head (addresses earlier))).isSome :=
    valid.holds.around predecessor_mem_append
  have nextLive : (state.nodes (successor head (addresses later))).isSome :=
    valid.holds.around successor_mem_append
  have notPrevious : address ≠ predecessor head (addresses earlier) := by
    rintro rfl
    exact apart predecessor_mem_append
  have notNext : address ≠ successor head (addresses later) := by
    rintro rfl
    exact apart successor_mem_append
  simp only [erase, runs_bind, runs_get, runs_refuse, valid.holds.head_eq, if_neg notHead]
  refine ⟨fun foreign => by simp at foreign, fun _ => ?_⟩
  rw [runs_read live, prevEq, nextEq, runs_write previousLive,
    runs_read ((adjust_of_ne notPrevious).trans live), prevEq, nextEq,
    runs_write (by rwa [adjust_isSome]), runs_delete]
  · exact ⟨rfl, valid.unlink⟩
  · rw [adjust_isSome, adjust_isSome, live]
    rfl

/-- The links of the head. -/
theorem Holds.head_links {nodes : Nodes V} {list : ListContainer}
    (holds : Holds nodes list head entries) :
    ∃ node, nodes head = some node ∧ node.memberNext = some (successor head (addresses entries)) ∧
      node.memberPrev = some (predecessor head (addresses entries)) := by
  obtain ⟨node, live, nextEq⟩ := Option.map_eq_some_iff.mp holds.ring.next_head
  obtain ⟨same, sameLive, prevEq⟩ := Option.map_eq_some_iff.mp holds.ring.prev_head
  rw [live] at sameLive
  cases sameLive
  exact ⟨node, live, nextEq, prevEq⟩

theorem runs_empty (valid : Valid frame state head entries) {post : Bool → State V → Prop} :
    Runs empty state post raises ↔ post entries.isEmpty state := by
  obtain ⟨node, live, nextEq, -⟩ := valid.holds.head_links
  simp only [empty, runs_bind, runs_get, runs_pure, valid.holds.head_eq, runs_read live, nextEq]
  cases entries with
  | nil => simp
  | cons entry rest =>
      have apart : entry.1 ≠ head := by
        rintro rfl
        exact (List.nodup_cons.mp valid.holds.distinct).1 List.mem_cons_self
      have differ : (some entry.1 == some head) = false := by simpa using apart
      rw [addresses_cons, successor_cons, differ, List.isEmpty_cons]

/-- `PopBack` drops the last element, if there is one. -/
theorem popBack_spec (valid : Valid frame state head entries) :
    Runs popBack state (fun _ next => Valid frame next head entries.dropLast) raises := by
  simp only [popBack, runs_bind, runs_empty valid]
  rcases List.eq_nil_or_concat entries with rfl | ⟨front, ⟨address, value⟩, rfl⟩
  · exact valid
  · obtain ⟨node, live, -, prevEq⟩ := valid.holds.head_links
    rw [List.concat_eq_append, addresses_append, addresses_cons, addresses_nil,
      predecessor_concat] at prevEq
    rw [List.concat_eq_append] at valid ⊢
    have filled : (front ++ [(address, value)]).isEmpty = false := by simp
    simp only [filled, Bool.false_eq_true, if_false, runs_bind, runs_endIterator,
      ListIterator.decrement, ListIterator.follow, valid.holds.head_eq, runs_read live, runs_pure, prevEq]
    apply (erase_spec valid).mono
    · rintro _ next ⟨-, validNext⟩
      rw [List.append_nil] at validNext
      rwa [List.dropLast_concat]
    · exact fun _ _ => id

/-- `PopFront` drops the first element, if there is one, and yields the first place. -/
theorem popFront_spec (valid : Valid frame state head entries) :
    Runs popFront state
      (fun iterator next => Valid frame next head entries.tail ∧
        iterator = ⟨some (successor head (addresses entries.tail)), some head⟩)
      raises := by
  simp only [popFront, runs_bind, runs_empty valid]
  cases entries with
  | nil =>
      rw [List.isEmpty_nil, if_pos rfl, runs_endIterator, valid.holds.head_eq]
      exact ⟨valid, rfl⟩
  | cons entry rest =>
      have whole : Valid frame state head ([] ++ (entry.1, entry.2) :: rest) := valid
      obtain ⟨apart, node, live, prevEq, nextEq⟩ := whole.holds.neighbours
      obtain ⟨headNode, headLive, headNext, -⟩ := valid.holds.head_links
      have unlinked := whole.unlink
      have nextLive : (state.nodes (successor head (addresses rest))).isSome :=
        whole.holds.around successor_mem_append
      rw [addresses_cons, successor_cons] at headNext
      simp only [List.isEmpty_cons, Bool.false_eq_true, if_false, runs_bind, runs_get,
        valid.holds.head_eq, runs_read headLive, headNext, runs_read live, nextEq]
      rw [runs_write (by rw [headLive]; rfl), runs_write (by rwa [adjust_isSome]),
        runs_modifySelf, runs_delete, runs_pure]
      · exact ⟨unlinked, rfl⟩
      · rw [adjust_isSome, adjust_isSome, live]
        rfl

end Methods

end Wan.Container.ListContainer
