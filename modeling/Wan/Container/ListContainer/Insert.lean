import Wan.Container.ListContainer.Frame

/-!
# Insertion

A new node takes its element from a reference, which may refer to an element of the same
or of another list, and is linked between two nodes of the ring.
-/

namespace Wan.Container.ListContainer

open Wan.Library Wan.Library.LinkedList Wan.Library.Program

variable {V : Type} {environment : Environment V}

/-- The nodes after the element that is referred to was taken. -/
def depart (remains : V → V) (nodes : Nodes V) : Reference V → Nodes V
  | .outside _ => nodes
  | .element node =>
      adjust nodes node fun cell => { cell with memberData := cell.memberData.map remains }

/-- The elements after the element that is referred to was taken. -/
def departed (remains : V → V) (entries : List (Entry V)) : Reference V → List (Entry V)
  | .outside _ => entries
  | .element node =>
      entries.map fun entry => if entry.1 = node then (entry.1, remains entry.2) else entry

/-- What a reference refers to. -/
def Reference.Refers (nodes : Nodes V) : Reference V → V → Prop
  | .outside object, value => object = value
  | .element node, value => view (·.memberData) nodes node = some (some value)

/-- The nodes after a new node was linked between two others. -/
def link (nodes : Nodes V) (new previous next : Addr) : Nodes V :=
  adjust
    (adjust
      (adjust (adjust nodes new fun node => { node with memberPrev := some previous })
        new fun node => { node with memberNext := some next })
      previous fun node => { node with memberNext := some new })
    next fun node => { node with memberPrev := some new }

section Departure

variable {remains : V → V} {nodes other frame : Nodes V} {reference : Reference V}
variable {list : ListContainer} {state : State V} {head address : Addr}
variable {entries earlier later : List (Entry V)} {value : V}

@[simp] theorem addresses_departed :
    addresses (departed remains entries reference) = addresses entries := by
  cases reference with
  | outside object => rfl
  | element node =>
      rw [departed, addresses, List.map_map]
      apply List.map_congr_left
      intro entry _
      rw [Function.comp_apply]
      split <;> rfl

@[simp] theorem departed_length : (departed remains entries reference).length = entries.length := by
  rw [← addresses_length, addresses_departed, addresses_length]

theorem departed_append : departed remains (earlier ++ later) reference =
    departed remains earlier reference ++ departed remains later reference := by
  cases reference with
  | outside object => rfl
  | element node => exact List.map_append

/-- A copied element stays as it is. -/
@[simp] theorem depart_id : depart id nodes reference = nodes := by
  cases reference with
  | outside object => rfl
  | element node => simp [depart, adjust]

@[simp] theorem departed_id : departed id entries reference = entries := by
  cases reference with
  | outside object => rfl
  | element node => simp [departed]

theorem depart_congr (same : nodes address = other address) :
    depart remains nodes reference address = depart remains other reference address := by
  cases reference with
  | outside object => exact same
  | element node =>
      by_cases here : address = node
      · subst here
        simp [depart, adjust, same]
      · rw [depart, depart, adjust_of_ne here, adjust_of_ne here, same]

/-- The data after the element that is referred to was taken. -/
theorem view_depart {node : Addr} {data : Option V}
    (found : view (·.memberData) nodes address = some data) :
    view (·.memberData) (depart remains nodes (.element node)) address =
      some (if address = node then data.map remains else data) := by
  obtain ⟨cell, live, rfl⟩ := Option.map_eq_some_iff.mp found
  by_cases here : address = node
  · subst here
    rw [view, depart, adjust_self live, Option.map_some, if_pos rfl]
  · rw [view, depart, adjust_of_ne here, live, Option.map_some, if_neg here]

theorem depart_none (dead : nodes address = none) : depart remains nodes reference address = none := by
  cases reference with
  | outside object => exact dead
  | element node =>
      by_cases here : address = node
      · subst here
        simp [depart, adjust, dead]
      · rw [depart, adjust_of_ne here, dead]

theorem view_depart_keeps {α : Type} {field : ListContainerNode V → α}
    (kept : ∀ node data, field { node with memberData := data } = field node) :
    view field (depart remains nodes reference) = view field nodes := by
  cases reference with
  | outside object => rfl
  | element node => exact view_adjust_keeps fun cell => kept cell _

/-- Taking an element leaves a list with what remains of it. -/
theorem Holds.depart (holds : Holds nodes list head entries) :
    Holds (depart remains nodes reference) list head (departed remains entries reference) where
  head_eq := holds.head_eq
  size_eq := by rw [departed_length, holds.size_eq]
  ring := by
    rw [addresses_departed, view_depart_keeps fun _ _ => rfl, view_depart_keeps fun _ _ => rfl]
    exact holds.ring
  sentinel := by
    cases reference with
    | outside object => exact holds.sentinel
    | element node => rw [view_depart holds.sentinel, Option.map_none, ite_self]
  data := by
    cases reference with
    | outside object => exact holds.data
    | element node =>
        intro entry member
        obtain ⟨original, stored, rfl⟩ := List.mem_map.mp member
        by_cases here : original.1 = node
        · rw [if_pos here, view_depart (holds.data original stored), if_pos here]
          rfl
        · rw [if_neg here, view_depart (holds.data original stored), if_neg here]
  bounded := by
    rw [addresses_departed]
    exact holds.bounded

theorem Valid.depart (valid : Valid frame state head entries) :
    Valid (depart remains frame reference)
      { state with nodes := depart remains state.nodes reference } head
      (departed remains entries reference) where
  holds := valid.holds.depart
  framed address outside := by
    rw [addresses_departed] at outside
    exact depart_congr (valid.framed address outside)
  apart address member := by
    rw [addresses_departed] at member
    exact depart_none (valid.apart address member)

theorem runs_element {post : V → State V → Prop} {raises : Fault → State V → Prop} {node : Addr}
    (found : view (·.memberData) state.nodes node = some (some value)) :
    Runs (element node) state post raises ↔ post value state := by
  obtain ⟨cell, live, same⟩ := Option.map_eq_some_iff.mp found
  rw [element, runs_bind, runs_read live, same]
  exact runs_pure

/-- The value that a new element takes, and what remains of the old one. -/
theorem runs_take {passing : Passing} {post : V → State V → Prop}
    {raises : Fault → State V → Prop} (refers : reference.Refers state.nodes value) :
    Runs (reference.take environment passing) state post raises ↔
      post value { state with
        nodes := ListContainer.depart (passing.remains environment) state.nodes reference } := by
  cases reference with
  | outside object =>
      cases refers
      exact runs_pure
  | element node =>
      cases passing with
      | copy =>
          rw [Reference.take, runs_element refers, Passing.remains, depart_id]
      | move =>
          obtain ⟨cell, live, same⟩ := Option.map_eq_some_iff.mp refers
          rw [Reference.take, runs_bind, runs_element refers, runs_bind,
            runs_write (by rw [live]; rfl), runs_pure]
          simp [ListContainer.depart, adjust, live, same, Passing.remains]

end Departure

section Linking

variable {nodes : Nodes V} {new previous next address : Addr}

theorem view_link_next (newLive : (nodes new).isSome) (previousLive : (nodes previous).isSome) :
    view (·.memberNext) (link nodes new previous next) =
      Function.update (Function.update (view (·.memberNext) nodes) new (some (some next))) previous
        (some (some new)) := by
  rw [link, view_next_adjust_prev, view_next_adjust_next, view_next_adjust_next,
    view_next_adjust_prev]
  · rwa [adjust_isSome]
  · rwa [adjust_isSome, adjust_isSome]

theorem view_link_prev (newLive : (nodes new).isSome) (nextLive : (nodes next).isSome) :
    view (·.memberPrev) (link nodes new previous next) =
      Function.update (Function.update (view (·.memberPrev) nodes) new (some (some previous))) next
        (some (some new)) := by
  rw [link, view_prev_adjust_prev, view_prev_adjust_next, view_prev_adjust_next,
    view_prev_adjust_prev newLive]
  rwa [adjust_isSome, adjust_isSome, adjust_isSome]

theorem view_link_data :
    view (·.memberData) (link nodes new previous next) = view (·.memberData) nodes := by
  simp [link]

theorem link_of_ne (notNew : address ≠ new) (notPrevious : address ≠ previous)
    (notNext : address ≠ next) : link nodes new previous next address = nodes address := by
  rw [link, adjust_of_ne notNext, adjust_of_ne notPrevious, adjust_of_ne notNew, adjust_of_ne notNew]

end Linking

namespace Valid

variable {frame : Nodes V} {state : State V} {head new : Addr} {cell : ListContainerNode V}
variable {entries earlier later : List (Entry V)} {value : V}

/-- A node at a dead address belongs to the frame. -/
theorem extend (valid : Valid frame state head entries) (dead : state.nodes new = none) :
    Valid (Function.update frame new (some cell))
      { state with nodes := Function.update state.nodes new (some cell) } head entries := by
  have absent := (valid.dead dead).1
  constructor
  · apply valid.holds.congr
    intro address member
    apply Function.update_of_ne
    rintro rfl
    exact absent member
  · intro address outside
    by_cases same : address = new
    · subst same
      simp
    · show Function.update state.nodes new (some cell) address = _
      rw [Function.update_of_ne same, Function.update_of_ne same]
      exact valid.framed address outside
  · intro address member
    rw [Function.update_of_ne]
    · exact valid.apart address member
    · rintro rfl
      exact absent member

/-- A node of the frame becomes an element. -/
theorem link (valid : Valid (Function.update frame new (some cell)) state head (earlier ++ later))
    (data : cell.memberData = some value) (fresh : frame new = none) (bounded : new < 2 ^ 64) :
    Valid frame
      { state with
        nodes := ListContainer.link state.nodes new (predecessor head (addresses earlier))
          (successor head (addresses later))
        self := { state.self with memberSize := state.self.memberSize + 1 } }
      head (earlier ++ (new, value) :: later) := by
  have live : state.nodes new = some cell := valid.extends_frame (Function.update_self ..)
  have absent : new ∉ head :: addresses (earlier ++ later) := by
    intro member
    simpa using valid.apart new member
  have ring := valid.holds.ring
  have fits := valid.holds.bounded
  rw [addresses_append] at ring absent fits
  have previousLive : (state.nodes (predecessor head (addresses earlier))).isSome := by
    apply valid.holds.isSome
    rw [addresses_append]
    exact predecessor_mem_append
  have nextLive : (state.nodes (successor head (addresses later))).isSome := by
    apply valid.holds.isSome
    rw [addresses_append]
    exact successor_mem_append
  have newLive : (state.nodes new).isSome := by
    rw [live]
    rfl
  have linked := ring.insert absent
  rw [← view_link_next newLive previousLive, ← view_link_prev newLive nextLive] at linked
  have members : ∀ address, address ∈ head :: addresses (earlier ++ (new, value) :: later) →
      address = new ∨ address ∈ head :: (addresses earlier ++ addresses later) := by
    intro address member
    simpa [or_left_comm] using member
  have below : ∀ address ∈ head :: addresses (earlier ++ (new, value) :: later),
      address < 2 ^ 64 := by
    intro address member
    rcases members address member with rfl | inside
    · exact bounded
    · exact fits address inside
  have room := length_lt_of_bounded (by simpa using linked.distinct) below
  constructor
  · constructor
    · exact valid.holds.head_eq
    · have size := valid.holds.size_eq
      rw [List.length_append] at size
      rw [List.length_append, List.length_cons] at room ⊢
      simp only [UInt64.toNat_add, UInt64.toNat_one, size]
      omega
    · simpa using linked
    · rw [view_link_data]
      exact valid.holds.sentinel
    · intro entry member
      rw [view_link_data]
      rcases List.mem_append.mp member with stored | stored
      · exact valid.holds.data entry (List.mem_append_left _ stored)
      · rcases List.mem_cons.mp stored with rfl | stored
        · rw [view, live, Option.map_some, data]
        · exact valid.holds.data entry (List.mem_append_right _ stored)
    · exact below
  · intro address outside
    have notNew : address ≠ new := by
      rintro rfl
      simp at outside
    have elsewhere : address ∉ head :: (addresses earlier ++ addresses later) := by
      intro member
      apply outside
      simp only [addresses_append, addresses_cons, List.mem_cons, List.mem_append] at member ⊢
      tauto
    show ListContainer.link _ _ _ _ address = _
    rw [link_of_ne notNew, valid.framed address (by rwa [addresses_append]),
      Function.update_of_ne notNew]
    · rintro rfl
      exact elsewhere predecessor_mem_append
    · rintro rfl
      exact elsewhere successor_mem_append
  · intro address member
    rcases members address member with rfl | inside
    · exact fresh
    · have apart := valid.apart address (by rwa [addresses_append])
      rwa [Function.update_of_ne] at apart
      rintro rfl
      exact absent inside

end Valid

section Methods

variable {frame : Nodes V} {state : State V} {head : Addr} {earlier later entries : List (Entry V)}
variable {reference : Reference V} {value : V} {passing : Passing} {iterator : ListIterator}

/-- A refused request is raised, and leaves the nodes and the fields alone. -/
structure Interrupted (environment : Environment V) (more : Nat) (before : State V) (fault : Fault)
    (after : State V) : Prop where
  raised : fault = .raised
  quiet : Quiet before after
  refused : Refused environment more after.nodes

/-- A new node is added to the frame. -/
theorem newContainerNode_spec (valid : Valid frame state head entries)
    (refers : reference.Refers state.nodes value) :
    Runs (newContainerNode environment passing reference) state
      (fun new next => new < 2 ^ 64 ∧ frame new = none ∧ next.self = state.self ∧
        Valid
          (Function.update (depart (passing.remains environment) frame reference) new
            (some ⟨none, none, some value⟩))
          next head (departed (passing.remains environment) entries reference))
      (Interrupted environment 0 state) := by
  rw [newContainerNode, runs_bind]
  apply runs_allocate
  · intro new next quiet dead bounded
    have validNext := valid.quiet quiet
    rw [← quiet.1] at dead refers
    rw [runs_bind, runs_take refers, runs_bind, runs_put, runs_pure]
    refine ⟨bounded, (validNext.dead dead).2, quiet.2, ?_⟩
    exact validNext.depart.extend (depart_none dead)
  · exact fun next quiet refused => ⟨rfl, quiet, refused⟩

/-- An iterator of another list, or none, is rejected. -/
theorem insert_rejects
    (foreign : iterator.memberNode = none ∨ iterator.memberOwner ≠ state.self.memberHead) :
    Runs (insert environment iterator passing reference) state (fun _ _ => False)
      (fun fault next => next = state ∧
        fault = .invalidArgument "list insertion iterator does not belong to this list") := by
  simp only [insert, runs_bind, runs_get, runs_refuse]
  exact ⟨fun _ => ⟨trivial, trivial⟩, fun own => absurd foreign own⟩

/-- `Insert` puts the element in front of the place of the iterator. -/
theorem insert_spec (valid : Valid frame state head (earlier ++ later))
    (refers : reference.Refers state.nodes value) :
    Runs
      (insert environment ⟨some (successor head (addresses later)), some head⟩ passing reference)
      state
      (fun iterator next => ∃ new, iterator = ⟨some new, some head⟩ ∧
        Valid (depart (passing.remains environment) frame reference) next head
          (departed (passing.remains environment) earlier reference ++
            (new, value) :: departed (passing.remains environment) later reference))
      (Interrupted environment 0 state) := by
  simp only [insert, runs_bind, runs_get, runs_refuse, valid.holds.head_eq]
  refine ⟨fun foreign => by simp at foreign, fun _ => ?_⟩
  apply (newContainerNode_spec valid refers).mono
  · rintro new first ⟨bounded, fresh, sameSelf, validFirst⟩
    rw [departed_append] at validFirst
    have ring := validFirst.holds.ring
    have newLive : (first.nodes new).isSome := by
      rw [validFirst.extends_frame (Function.update_self ..)]
      rfl
    have linked := validFirst.link rfl (depart_none fresh) bounded
    have owned : ∀ address ∈ head :: (addresses earlier ++ addresses later),
        (first.nodes address).isSome := by
      intro address member
      apply validFirst.holds.isSome
      rwa [addresses_append, addresses_departed, addresses_departed]
    rw [addresses_append, addresses_departed, addresses_departed] at ring
    rw [addresses_departed, addresses_departed] at linked
    apply runs_read_view _ ring.prev_successor
    intro current currentLive previousEq
    rw [runs_write newLive, previousEq, runs_write (by rwa [adjust_isSome])]
    apply runs_read_view (·.memberPrev)
    · rw [view_prev_adjust_next, view_prev_adjust_prev newLive, Function.update_self]
    · intro node nodeLive nodeEq
      rw [nodeEq, runs_write, runs_write]
      · exact ⟨new, rfl, linked⟩
      · rw [adjust_isSome, adjust_isSome, adjust_isSome]
        exact owned _ successor_mem_append
      · rw [adjust_isSome, adjust_isSome]
        exact owned _ predecessor_mem_append
  · exact fun _ _ => id

end Methods

end Wan.Container.ListContainer
