import Wan.Container.ListContainer.Growth

/-!
# Construction, copies and destruction

A copy is built node by node next to its source, which belongs to the frame.  `Clear`
deletes all nodes but the head, and the destructor leaves nothing but the frame.
-/

namespace Wan.Container.ListContainer

open Wan.Library Wan.Library.LinkedList Wan.Library.Program

variable {V : Type} {environment : Environment V}

/-- What belongs to others. -/
def rest (nodes : Nodes V) (head : Addr) (entries : List (Entry V)) : Nodes V :=
  fun address => if address ∈ head :: addresses entries then none else nodes address

section Frames

variable {nodes frame : Nodes V} {list : ListContainer} {state next : State V}
variable {head other address : Addr} {entries others : List (Entry V)} {requests : Nat}

theorem rest_of_mem (member : address ∈ head :: addresses entries) :
    rest nodes head entries address = none := if_pos member

theorem rest_of_not_mem (outside : address ∉ head :: addresses entries) :
    rest nodes head entries address = nodes address := if_neg outside

theorem rest_comm : rest (rest nodes head entries) other others =
    rest (rest nodes other others) head entries := by
  funext address
  by_cases member : address ∈ head :: addresses entries
  · by_cases inside : address ∈ other :: addresses others
    · rw [rest_of_mem inside, rest_of_mem member]
    · rw [rest_of_not_mem inside, rest_of_mem member, rest_of_mem member]
  · by_cases inside : address ∈ other :: addresses others
    · rw [rest_of_mem inside, rest_of_not_mem member, rest_of_mem inside]
    · rw [rest_of_not_mem inside, rest_of_not_mem member, rest_of_not_mem member,
        rest_of_not_mem inside]

theorem Valid.rest_eq (valid : Valid frame state head entries) :
    rest state.nodes head entries = frame := by
  funext address
  by_cases member : address ∈ head :: addresses entries
  · rw [rest_of_mem member, valid.apart address member]
  · rw [rest_of_not_mem member, valid.framed address member]

/-- A list is valid next to everything else. -/
theorem Holds.valid (holds : Holds nodes list head entries) :
    Valid (rest nodes head entries) ⟨nodes, requests, list⟩ head entries where
  holds := holds
  framed _ outside := (rest_of_not_mem outside).symm
  apart _ member := rest_of_mem member

/-- A list of the frame is untouched. -/
theorem Valid.holds_frame (valid : Valid frame state head entries)
    (holds : Holds frame list other others) : Holds state.nodes list other others := by
  apply holds.congr
  intro address member
  obtain ⟨node, live⟩ := holds.live member
  rw [live]
  exact valid.extends_frame live

/-- A list of the frame has other nodes. -/
theorem Valid.disjoint (valid : Valid frame state head entries)
    (holds : Holds frame list other others) (member : address ∈ head :: addresses entries) :
    address ∉ other :: addresses others := by
  intro inside
  obtain ⟨node, live⟩ := holds.live inside
  rw [valid.apart address member] at live
  cases live

/-- When the nodes of a list of the frame are gone, the rest of the frame is left. -/
theorem Valid.without (valid : Valid frame state head entries)
    (holds : Holds frame list other others)
    (gone : next.nodes = rest state.nodes other others) (same : next.self = state.self) :
    Valid (rest frame other others) next head entries where
  holds := by
    rw [same]
    apply valid.holds.congr
    intro address member
    rw [gone, rest_of_not_mem (valid.disjoint holds member)]
  framed address outside := by
    rw [gone, rest, rest, valid.framed address outside]
  apart address member := by
    rw [rest_of_not_mem (valid.disjoint holds member)]
    exact valid.apart address member

end Frames

section Clearing

variable {frame : Nodes V} {state : State V} {head : Addr} {entries : List (Entry V)}
variable {raises : Fault → State V → Prop} {remaining : List Addr} {fuel : Nat}

/-- What is left while `Clear` deletes the nodes. -/
structure Clearing (frame : Nodes V) (state : State V) (head : Addr) (remaining : List Addr) :
    Prop where
  distinct : (head :: remaining).Nodup
  forwards : Chain (view (·.memberNext) state.nodes) (head :: remaining) (some head)
  sentinel : view (·.memberData) state.nodes head = some none
  framed : ∀ address ∉ head :: remaining, state.nodes address = frame address

/-- The loop of `Clear` deletes the first node until the head is its own successor. -/
theorem clearFrom_spec (clearing : Clearing frame state head remaining)
    (dead : ∀ address ∈ remaining, frame address = none) (enough : remaining.length < fuel) :
    Runs (clearFrom (some head) fuel (some (successor head remaining))) state
      (fun _ next => next.self = state.self ∧ Clearing frame next head []) raises := by
  induction remaining generalizing fuel state with
  | nil =>
      obtain ⟨fuel, rfl⟩ := Nat.exists_eq_succ_of_ne_zero (Nat.ne_zero_of_lt enough)
      rw [clearFrom, successor_nil, if_pos rfl, runs_pure]
      exact ⟨rfl, clearing⟩
  | cons address remaining ih =>
      obtain ⟨fuel, rfl⟩ := Nat.exists_eq_succ_of_ne_zero (Nat.ne_zero_of_lt enough)
      have forwards := clearing.forwards
      simp only [chain_cons, head?_or_some] at forwards
      obtain ⟨headNext, addressNext, chain⟩ := forwards
      have distinct := clearing.distinct
      rw [List.nodup_cons, List.nodup_cons, List.mem_cons, not_or] at distinct
      obtain ⟨⟨headNe, headAbsent⟩, absent, nodup⟩ := distinct
      obtain ⟨node, live, nextEq⟩ := Option.map_eq_some_iff.mp addressNext
      obtain ⟨headNode, headLive, -⟩ := Option.map_eq_some_iff.mp headNext
      have differ : ¬some address = some head := by
        intro same
        cases same
        exact headNe rfl
      have headIsSome : (state.nodes head).isSome := by
        rw [headLive]
        rfl
      rw [clearFrom, successor_cons, if_neg differ, runs_bind, runs_read live, nextEq, runs_bind,
        runs_write headIsSome, runs_bind,
        runs_delete (by rw [adjust_isSome, live]; rfl), runs_bind]
      -- The head skips the deleted node.
      have linked : view (·.memberNext)
          (Function.update
            (adjust state.nodes head fun node =>
              { node with memberNext := some (successor head remaining) })
            address none) head = some (some (successor head remaining)) := by
        rw [view, Function.update_of_ne headNe, adjust_self headLive]
        rfl
      apply runs_read_view _ linked
      intro node _ nodeEq
      rw [nodeEq]
      apply ih
      · constructor
        · exact List.nodup_cons.mpr ⟨headAbsent, nodup⟩
        · rw [chain_cons, head?_or_some]
          refine ⟨linked, chain.congr ?_⟩
          intro other member
          have notAddress : other ≠ address := by
            rintro rfl
            exact absent member
          have notHead : other ≠ head := by
            rintro rfl
            exact headAbsent member
          exact congrArg (Option.map _)
            ((Function.update_of_ne notAddress _ _).trans (adjust_of_ne notHead))
        · have sentinel := clearing.sentinel
          rw [view, headLive] at sentinel
          refine (congrArg (Option.map _)
            ((Function.update_of_ne headNe _ _).trans (adjust_self headLive))).trans ?_
          exact sentinel
        · intro other outside
          rw [List.mem_cons, not_or] at outside
          by_cases same : other = address
          · subst same
            exact (Function.update_self ..).trans (dead other List.mem_cons_self).symm
          · refine (Function.update_of_ne same _ _).trans ((adjust_of_ne outside.1).trans ?_)
            apply clearing.framed
            simp [outside, same]
      · intro other member
        exact dead other (List.mem_cons_of_mem _ member)
      · simpa using enough

/-- `Clear` deletes all elements. -/
theorem clear_spec (valid : Valid frame state head entries) :
    Runs clear state
      (fun _ next => Valid frame next head [] ∧ next.self = ⟨some head, 0⟩) raises := by
  obtain ⟨node, live, nextEq, -⟩ := valid.holds.head_links
  have clearing : Clearing frame state head (addresses entries) :=
    ⟨valid.holds.distinct, valid.holds.ring.forwards, valid.holds.sentinel, valid.framed⟩
  have enough : (addresses entries).length < addressSpace := by
    rw [addresses_length]
    exact valid.holds.length_lt
  simp only [clear, runs_bind, runs_get, valid.holds.head_eq, runs_read live, nextEq]
  apply (clearFrom_spec clearing
    (fun address member => valid.apart address (List.mem_cons_of_mem _ member)) enough).mono
  · rintro _ next ⟨same, cleared⟩
    obtain ⟨headNode, headLive, -⟩ := Option.map_eq_some_iff.mp cleared.sentinel
    have headIsSome : (next.nodes head).isSome := by
      rw [headLive]
      rfl
    rw [runs_write headIsSome, runs_write (by rwa [adjust_isSome]), runs_modifySelf]
    have headEq : next.self.memberHead = some head := by rw [same, valid.holds.head_eq]
    refine ⟨?_, by simp [headEq]⟩
    constructor
    · constructor
      · exact headEq
      · rfl
      · apply Ring.alone
        · rw [view_next_adjust_next (by rwa [adjust_isSome]), Function.update_self]
        · rw [view_prev_adjust_next, view_prev_adjust_prev headIsSome, Function.update_self]
      · rw [view_data_adjust_next, view_data_adjust_prev]
        exact cleared.sentinel
      · exact fun _ member => absurd member List.not_mem_nil
      · intro address member
        exact valid.holds.bounded address (List.mem_cons.mpr (.inl (List.mem_singleton.mp member)))
    · intro address outside
      have notHead : address ≠ head := by
        rintro rfl
        exact outside List.mem_cons_self
      exact (adjust_of_ne notHead).trans
        ((adjust_of_ne notHead).trans (cleared.framed address outside))
    · intro address member
      exact valid.apart address (List.mem_cons.mpr (.inl (List.mem_singleton.mp member)))
  · exact fun _ _ => id

/-- The destructor deletes all nodes of a list. -/
theorem destruct_spec (valid : Valid frame state head entries) :
    Runs destruct state (fun _ next => next.nodes = frame) raises := by
  simp only [destruct, runs_bind, runs_get, valid.holds.head_eq]
  apply (clear_spec valid).mono
  · rintro _ next ⟨cleared, -⟩
    rw [runs_delete (cleared.holds.isSome List.mem_cons_self), runs_modifySelf]
    funext address
    show Function.update next.nodes head none address = frame address
    by_cases same : address = head
    · subst same
      rw [Function.update_self]
      exact (cleared.apart address List.mem_cons_self).symm
    · rw [Function.update_of_ne same]
      apply cleared.framed
      simpa using same
  · exact fun _ _ => id

end Clearing

section Construction

variable {frame : Nodes V} {state : State V} {list : ListContainer} {head other : Addr}
variable {entries others earlier later : List (Entry V)} {raises : Fault → State V → Prop}
variable {values : List V}

/-- A sentinel that is linked to itself. -/
def lone (head : Addr) : ListContainerNode V := ⟨some head, some head, none⟩

@[simp] theorem runs_onList {α : Type} {method : Method V α}
    {post : α × ListContainer → State V → Prop} :
    Runs (onList list method) state post raises ↔
      Runs method { state with self := list }
        (fun result next => post (result, next.self) { next with self := state.self })
        (fun fault next => raises fault { next with self := state.self }) := by
  simp only [onList, runs_bind, runs_get, runs_modifySelf, runs_guarded, runs_pure]

/-- A sentinel alone is an empty list. -/
theorem Valid.lone {requests : Nat} (dead : frame head = none) (bounded : head < 2 ^ 64) :
    Valid frame
      ⟨Function.update frame head (some (ListContainer.lone head)), requests, ⟨some head, 0⟩⟩
      head [] := by
  have live : Function.update frame head (some (ListContainer.lone head)) head =
      some (ListContainer.lone head) := Function.update_self ..
  constructor
  · constructor
    · rfl
    · rfl
    · apply Ring.alone
      · exact congrArg (Option.map (·.memberNext)) live
      · exact congrArg (Option.map (·.memberPrev)) live
    · exact congrArg (Option.map (·.memberData)) live
    · exact fun _ member => absurd member List.not_mem_nil
    · intro address member
      cases List.mem_singleton.mp member
      exact bounded
  · intro address outside
    apply Function.update_of_ne
    rintro rfl
    exact outside List.mem_cons_self
  · intro address member
    cases List.mem_singleton.mp member
    exact dead

theorem newHead_spec :
    Runs (newHead environment) state
      (fun head next => state.nodes head = none ∧ head < 2 ^ 64 ∧ next.self = state.self ∧
        next.nodes = Function.update state.nodes head (some (lone head)))
      (Interrupted environment 0 state) := by
  rw [newHead, runs_bind]
  apply runs_allocate
  · intro head next quiet dead bounded
    have live : (Function.update next.nodes head (some (⟨none, none, none⟩ : ListContainerNode V))
        head).isSome := by
      rw [Function.update_self]
      rfl
    rw [runs_bind, runs_put, runs_bind, runs_write live, runs_bind,
      runs_write (by rwa [adjust_isSome]), runs_pure]
    refine ⟨dead, bounded, quiet.2, ?_⟩
    simp [adjust, quiet.1, lone]
  · exact fun next quiet refused => ⟨rfl, quiet, refused⟩

/-- The default constructor makes an empty list. -/
theorem construct_spec :
    Runs (construct environment) state (fun _ next => ∃ head, Valid state.nodes next head [])
      (Interrupted environment 0 state) := by
  rw [construct, runs_bind]
  apply newHead_spec.mono
  · rintro head ⟨nodes, requests, self⟩ ⟨dead, bounded, -, rfl⟩
    exact ⟨head, .lone dead bounded⟩
  · exact fun _ _ => id

/-- The loops over a range copy every element to the end, next to its source. -/
theorem appendRange_spec {fuel : Nat} (valid : Valid frame state head entries)
    (holds : Holds frame list other (earlier ++ later)) (enough : later.length < fuel) :
    Runs
      (appendRange environment fuel ⟨some (successor other (addresses later)), some other⟩
        ⟨some other, some other⟩)
      state (fun _ next => Grown frame next head entries (later.map Prod.snd))
      (Stunted environment 0 frame head entries (later.map Prod.snd)) := by
  induction later generalizing fuel state entries earlier with
  | nil =>
      obtain ⟨fuel, rfl⟩ := Nat.exists_eq_succ_of_ne_zero (Nat.ne_zero_of_lt enough)
      rw [appendRange, addresses_nil, successor_nil, if_pos rfl]
      exact .nil valid
  | cons entry later ih =>
      obtain ⟨fuel, rfl⟩ := Nat.exists_eq_succ_of_ne_zero (Nat.ne_zero_of_lt enough)
      obtain ⟨address, value⟩ := entry
      obtain ⟨apart, node, live, -, nextEq⟩ := holds.neighbours
      have differ : ¬(⟨some address, some other⟩ : ListIterator) = ⟨some other, some other⟩ := by
        intro same
        cases same
        exact apart List.mem_cons_self
      have held : (Reference.element address).Held frame entries value :=
        .inr (holds.data _ (List.mem_append_right _ List.mem_cons_self))
      rw [appendRange, addresses_cons, successor_cons, if_neg differ, runs_bind, runs_follow,
        runs_bind]
      apply (pushBack_copy_spec valid held).mono
      · rintro _ next ⟨new, validNext⟩
        rw [runs_bind, ListIterator.increment, ListIterator.follow, runs_bind, runs_read (validNext.extends_frame live),
          runs_pure, nextEq]
        rw [List.append_cons] at holds
        apply (ih validNext holds (by simpa using enough)).mono
        · intro _ last grown
          exact grown.cons
        · intro fault last stunted
          exact stunted.cons
      · intro fault next interrupted
        exact .none valid interrupted

/-- `operator+=` copies the elements of another list to the end. -/
theorem append_spec (valid : Valid frame state head entries)
    (holds : Holds frame list other others) :
    Runs (append environment list) state
      (fun _ next => Grown frame next head entries (others.map Prod.snd))
      (Stunted environment 0 frame head entries (others.map Prod.snd)) := by
  obtain ⟨node, live, nextEq, -⟩ := holds.head_links
  rw [append, runs_bind, beginOf, runs_bind, holds.head_eq,
    runs_read (valid.extends_frame live), runs_pure, nextEq, endOf, holds.head_eq]
  have whole : Holds frame list other ([] ++ others) := holds
  exact appendRange_spec valid whole holds.length_lt

/-- A constructor that fails leaves the nodes as they were. -/
structure Unmade (environment : Environment V) (more : Nat) (nodes : Nodes V) (fault : Fault)
    (state : State V) : Prop where
  raised : fault = .raised
  nodes_eq : state.nodes = nodes
  refused : Refused environment more state.nodes

theorem Interrupted.unmade {next : State V} {fault : Fault} {more : Nat}
    (interrupted : Interrupted environment 0 state fault next) :
    Unmade environment more state.nodes fault next :=
  ⟨interrupted.raised, interrupted.quiet.1, interrupted.refused.mono (Nat.zero_le _)⟩

/-- The handler of a constructor deletes the nodes that it has made so far. -/
theorem Stunted.cleanup {next : State V} {fault : Fault}
    (stunted : Stunted environment 0 frame head [] values fault next) :
    Runs destruct next (fun _ => Unmade environment values.length frame fault) raises := by
  obtain ⟨raised, ⟨count, fewer, added, same, valid⟩, refused⟩ := stunted
  have few : added.length < values.length := by
    rw [← List.length_map Prod.snd, same, List.length_take]
    omega
  apply (destruct_spec valid).mono
  · intro _ ended gone
    refine ⟨raised, gone, ?_⟩
    rw [gone]
    exact (valid.refused refused).mono few
  · exact fun _ _ => id

/-- The copy constructor makes a list of the same values, or leaves nothing behind. -/
theorem copyConstruct_spec (state : State V) (holds : Holds state.nodes list other others) :
    Runs (copyConstruct environment list) state
      (fun _ next => ∃ head, Grown state.nodes next head [] (others.map Prod.snd))
      (Unmade environment others.length state.nodes) := by
  rw [copyConstruct, runs_bind, ← List.length_map Prod.snd]
  apply construct_spec.mono
  · rintro _ next ⟨head, valid⟩
    rw [runs_guarded]
    apply (append_spec valid holds).mono
    · intro _ last grown
      exact ⟨head, grown⟩
    · exact fun fault last stunted => stunted.cleanup
  · exact fun fault next interrupted => interrupted.unmade

end Construction

end Wan.Container.ListContainer
