import Wan.Container.ListContainer.Lifetime

/-!
# Initializer lists, moves and assignment

A move hands all nodes over with the sentinel, and an assignment leaves nothing of what
was assigned to.  A list that is appended to itself is copied before.
-/

namespace Wan.Container.ListContainer

open Wan.Library Wan.Library.LinkedList Wan.Library.Program

variable {V : Type} {environment : Environment V} {frame : Nodes V} {state : State V}
variable {list : ListContainer} {head other : Addr} {entries others : List (Entry V)}
variable {values : List V} {raises : Fault → State V → Prop}

/-- The loops over an initializer list push back every element. -/
theorem pushValues_spec (valid : Valid frame state head entries) :
    Runs (pushValues environment values) state
      (fun _ next => Grown frame next head entries values) (Stunted environment 0 frame head entries values) := by
  induction values generalizing state entries with
  | nil => exact .nil valid
  | cons value values ih =>
      have held : (Reference.outside value).Held frame entries value := rfl
      rw [pushValues, runs_bind]
      apply (pushBack_copy_spec valid held).mono
      · rintro _ next ⟨new, validNext⟩
        apply (ih validNext).mono
        · intro _ last grown
          exact grown.cons
        · intro fault last stunted
          exact stunted.cons
      · intro fault next interrupted
        exact .none valid interrupted

/-- The constructor from an initializer list makes a list of its values, or leaves nothing
behind. -/
theorem constructValues_spec :
    Runs (constructValues environment values) state
      (fun _ next => ∃ head, Grown state.nodes next head [] values)
      (Unmade environment values.length state.nodes) := by
  rw [constructValues, runs_bind]
  apply construct_spec.mono
  · rintro _ next ⟨head, valid⟩
    rw [runs_guarded]
    apply (pushValues_spec valid).mono
    · intro _ last grown
      exact ⟨head, grown⟩
    · exact fun fault last stunted => stunted.cleanup
  · exact fun fault next interrupted => interrupted.unmade

/-- Assigning an initializer list clears the list first. -/
theorem assignValues_spec (valid : Valid frame state head entries) :
    Runs (assignValues environment values) state
      (fun _ next => Grown frame next head [] values) (Stunted environment 0 frame head [] values) := by
  rw [assignValues, runs_bind]
  apply (clear_spec valid).mono
  · rintro _ next ⟨cleared, -⟩
    exact pushValues_spec cleared
  · exact fun _ _ => id

/-- The move constructor takes the nodes over and leaves an empty list. -/
theorem moveConstruct_spec :
    Runs (moveConstruct environment list) state
      (fun left next => next.self = list ∧
        ∃ head, Valid state.nodes { next with self := left } head [])
      (Interrupted environment 0 state) := by
  rw [moveConstruct, runs_bind]
  apply newHead_spec.mono
  · rintro head ⟨nodes, requests, self⟩ ⟨dead, bounded, -, rfl⟩
    exact ⟨rfl, head, .lone dead bounded⟩
  · exact fun _ _ => id

/-- Move assignment deletes its own nodes, takes the others over and leaves an empty list. -/
theorem moveAssign_spec (valid : Valid frame state head entries) :
    Runs (moveAssign environment list) state
      (fun left next => next.self = list ∧ ∃ head, Valid frame { next with self := left } head [])
      (Interrupted environment 0 state) := by
  rw [moveAssign, runs_bind]
  apply newHead_spec.mono
  · rintro replacement ⟨nodes, requests, self⟩ ⟨dead, bounded, same, rfl⟩
    cases same
    have fresh := (valid.dead dead).2
    have extended : Valid (Function.update frame replacement (some (lone replacement)))
        ⟨Function.update state.nodes replacement (some (lone replacement)), requests, state.self⟩
        head entries := ⟨(valid.extend dead).holds, (valid.extend dead).framed,
          (valid.extend dead).apart⟩
    rw [runs_bind]
    apply (clear_spec extended).mono
    · rintro _ ⟨nodes, requests, self⟩ ⟨cleared, selfEq⟩
      cases selfEq
      rw [runs_bind, runs_get, runs_bind,
        runs_delete (cleared.holds.isSome List.mem_cons_self), runs_bind, runs_modifySelf, runs_pure]
      refine ⟨rfl, replacement, ?_⟩
      have gone : Function.update nodes head none =
          Function.update frame replacement (some (lone replacement)) := by
        funext address
        by_cases here : address = head
        · subst here
          rw [Function.update_self, cleared.apart address List.mem_cons_self]
        · rw [Function.update_of_ne here]
          exact cleared.framed address (by simpa using here)
      show Valid frame ⟨Function.update nodes head none, requests, _⟩ _ _
      rw [gone]
      exact .lone fresh bounded
    · exact fun _ _ => id
  · exact fun _ _ => id

/-- Destroying another list leaves the rest of the frame. -/
theorem destruct_other_spec (valid : Valid frame state head entries)
    (holds : Holds frame list other others) :
    Runs destruct { state with self := list }
      (fun _ next => next.nodes = rest state.nodes other others ∧
        Valid (rest frame other others) { next with self := state.self } head entries)
      raises := by
  apply (destruct_spec (valid.holds_frame holds).valid).mono
  · intro _ next gone
    exact ⟨gone, valid.without holds gone rfl⟩
  · exact fun _ _ => id

/-- Copy assignment replaces the list by a copy, or leaves it as it is. -/
theorem copyAssign_spec (valid : Valid frame state head entries)
    (holds : Holds frame list other others) :
    Runs (copyAssign environment list) state
      (fun _ next => ∃ head, Grown frame next head [] (others.map Prod.snd))
      (Interrupted environment others.length state) := by
  have source : Holds state.nodes list other others := valid.holds_frame holds
  rw [copyAssign, runs_bind, runs_onList]
  apply (copyConstruct_spec { state with self := ⟨none, 0⟩ } source).mono
  · rintro _ next ⟨copyHead, copies, same, validCopy⟩
    rw [runs_bind, runs_get, runs_bind, runs_modifySelf, runs_bind, runs_onList]
    apply (destruct_other_spec validCopy valid.holds).mono
    · rintro _ last ⟨-, left⟩
      rw [valid.rest_eq] at left
      exact ⟨copyHead, copies, same, left⟩
    · exact fun _ _ => id
  · rintro fault next ⟨raised, same, refused⟩
    exact ⟨raised, ⟨same, rfl⟩, refused⟩

/-- Appending a list to itself doubles it. -/
theorem appendSelf_spec (valid : Valid frame state head entries) :
    Runs (appendSelf environment) state
      (fun _ next => Grown frame next head entries (entries.map Prod.snd))
      (fun fault next => Interrupted environment (entries.length + 1) state fault next ∨
        Stunted environment (entries.length + 1) frame head entries (entries.map Prod.snd) fault
          next) := by
  rw [appendSelf, runs_bind, runs_get, runs_bind, runs_onList]
  apply (copyConstruct_spec { state with self := ⟨none, 0⟩ } valid.holds).mono
  · rintro _ next ⟨copyHead, copies, same, validCopy⟩
    rw [List.nil_append] at validCopy
    -- The list itself, next to the copy and the frame.
    have own : Valid (rest next.nodes head entries) { next with self := state.self } head entries :=
      (validCopy.holds_frame valid.holds).valid
    have copyHolds : Holds (rest next.nodes head entries) next.self copyHead copies := by
      apply validCopy.holds.congr
      intro address member
      exact rest_of_not_mem (validCopy.disjoint valid.holds member)
    have left : rest (rest next.nodes head entries) copyHead copies = frame := by
      rw [rest_comm, validCopy.rest_eq, valid.rest_eq]
    have dropCopy : ∀ {last : State V} {values : List V} {raises : Fault → State V → Prop},
        Grown (rest next.nodes head entries) last head entries values →
        Runs (onList next.self destruct) last
          (fun _ ended => ended.nodes = rest last.nodes copyHead copies ∧
            Grown frame ended head entries values) raises := by
      rintro last values raises ⟨added, sameValues, validLast⟩
      rw [runs_onList]
      apply (destruct_other_spec validLast copyHolds).mono
      · rintro _ ended ⟨gone, validEnded⟩
        rw [left] at validEnded
        exact ⟨gone, added, sameValues, validEnded⟩
      · exact fun _ _ => id
    rw [runs_bind, runs_guarded]
    apply (append_spec own copyHolds).mono
    · intro _ last grown
      rw [same] at grown
      rw [runs_bind]
      apply (dropCopy grown).mono
      · exact fun _ _ ended => ended.2
      · exact fun _ _ => id
    · rintro fault last ⟨raised, ⟨count, fewer, grown⟩, refused⟩
      rw [same] at fewer grown
      rw [runs_bind]
      apply (dropCopy grown).mono
      · rintro _ ended ⟨gone, left⟩
        refine .inr ⟨raised, ⟨count, fewer, left⟩, ?_⟩
        have without := refused.without (copyHead :: addresses copies) fun address outside =>
          (rest_of_not_mem outside).symm
        have count : copies.length = entries.length := by
          simpa using congrArg List.length same
        rwa [← gone, Nat.add_zero, List.length_cons, addresses_length, count] at without
      · exact fun _ _ => id
  · rintro fault next ⟨raised, same, refused⟩
    exact .inl ⟨raised, ⟨same, rfl⟩, refused.mono (Nat.le_succ _)⟩

end Wan.Container.ListContainer
