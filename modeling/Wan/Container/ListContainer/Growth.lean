import Wan.Container.ListContainer.Erase

/-!
# Loops that lengthen and shorten a list

`Resize` and the loops over a range push one element after the other.  When a `new` raises
on the way, the elements that are there stay.
-/

namespace Wan.Container.ListContainer

open Wan.Library Wan.Library.LinkedList Wan.Library.Program

variable {V : Type} {environment : Environment V}

/-- What a reference refers to that stays valid while a list grows: an element of the list,
or of a list in the frame. -/
def Reference.Held (frame : Nodes V) (entries : List (Entry V)) : Reference V → V → Prop
  | .outside object, value => object = value
  | .element node, value =>
      (node, value) ∈ entries ∨ view (·.memberData) frame node = some (some value)

/-- Values have been added behind the entries. -/
def Grown (frame : Nodes V) (state : State V) (head : Addr) (entries : List (Entry V))
    (values : List V) : Prop :=
  ∃ added : List (Entry V), added.map Prod.snd = values ∧
    Valid frame state head (entries ++ added)

/-- A refused request is raised before all values were added. -/
structure Stunted (environment : Environment V) (more : Nat) (frame : Nodes V) (head : Addr)
    (entries : List (Entry V)) (values : List V) (fault : Fault) (state : State V) : Prop where
  raised : fault = .raised
  grown : ∃ count, count < values.length ∧ Grown frame state head entries (values.take count)
  refused : Refused environment more state.nodes

section References

variable {frame : Nodes V} {state : State V} {head : Addr} {entries more : List (Entry V)}
variable {reference : Reference V} {value : V}

theorem Reference.Held.refers (held : reference.Held frame entries value)
    (valid : Valid frame state head entries) : reference.Refers state.nodes value := by
  cases reference with
  | outside object => exact held
  | element node =>
      rcases held with stored | found
      · exact valid.holds.data _ stored
      · obtain ⟨cell, live, same⟩ := Option.map_eq_some_iff.mp found
        rw [Reference.Refers, view, valid.extends_frame live, Option.map_some, same]

theorem Reference.Refers.held (refers : reference.Refers state.nodes value)
    (valid : Valid frame state head entries) : reference.Held frame entries value := by
  cases reference with
  | outside object => exact refers
  | element node =>
      by_cases owned : node ∈ head :: addresses entries
      · rcases List.mem_cons.mp owned with rfl | inside
        · rw [Reference.Refers, valid.holds.sentinel] at refers
          cases refers
        · obtain ⟨entry, stored, rfl⟩ := List.mem_map.mp inside
          rw [Reference.Refers, valid.holds.data entry stored] at refers
          cases refers
          exact .inl stored
      · rw [Reference.Refers, view, valid.framed node owned] at refers
        exact .inr refers

theorem Reference.Held.append (held : reference.Held frame entries value) :
    reference.Held frame (entries ++ more) value := by
  cases reference with
  | outside object => exact held
  | element node => exact held.imp_left (List.mem_append_left _)

end References

section Growing

variable {frame : Nodes V} {state next : State V} {head new : Addr} {entries : List (Entry V)}
variable {values : List V} {value : V} {fault : Fault}

theorem Grown.nil (valid : Valid frame state head entries) : Grown frame state head entries [] :=
  ⟨[], rfl, by rwa [List.append_nil]⟩

theorem Grown.cons (grown : Grown frame state head (entries ++ [(new, value)]) values) :
    Grown frame state head entries (value :: values) := by
  obtain ⟨added, rfl, valid⟩ := grown
  exact ⟨(new, value) :: added, rfl, by rwa [List.append_cons]⟩

theorem Stunted.none (valid : Valid frame state head entries)
    (interrupted : Interrupted environment 0 state fault next) :
    Stunted environment 0 frame head entries (value :: values) fault next where
  raised := interrupted.raised
  grown := ⟨0, Nat.succ_pos _, .nil (valid.quiet interrupted.quiet)⟩
  refused := interrupted.refused

theorem Stunted.cons
    (stunted : Stunted environment 0 frame head (entries ++ [(new, value)]) values fault next) :
    Stunted environment 0 frame head entries (value :: values) fault next := by
  obtain ⟨raised, ⟨count, fewer, grown⟩, refused⟩ := stunted
  exact ⟨raised, ⟨count + 1, Nat.succ_lt_succ fewer, grown.cons⟩, refused⟩

end Growing

section Methods

variable {frame : Nodes V} {state : State V} {head : Addr} {entries : List (Entry V)}
variable {reference : Reference V} {value : V} {passing : Passing}
variable {raises : Fault → State V → Prop}

/-- `PushBack` adds an element at the end. -/
theorem pushBack_spec (valid : Valid frame state head entries)
    (refers : reference.Refers state.nodes value) :
    Runs (pushBack environment passing reference) state
      (fun _ next => ∃ new, Valid (depart (passing.remains environment) frame reference) next head
        (departed (passing.remains environment) entries reference ++ [(new, value)]))
      (Interrupted environment 0 state) := by
  rw [pushBack, runs_bind, runs_endIterator, valid.holds.head_eq, runs_bind]
  have whole : Valid frame state head (entries ++ []) := by rwa [List.append_nil]
  apply (insert_spec whole refers).mono
  · rintro _ next ⟨new, -, validNext⟩
    refine ⟨new, ?_⟩
    cases reference <;> exact validNext
  · exact fun _ _ => id

/-- `PushFront` adds an element at the begin. -/
theorem pushFront_spec (valid : Valid frame state head entries)
    (refers : reference.Refers state.nodes value) :
    Runs (pushFront environment passing reference) state
      (fun _ next => ∃ new, Valid (depart (passing.remains environment) frame reference) next head
        ((new, value) :: departed (passing.remains environment) entries reference))
      (Interrupted environment 0 state) := by
  obtain ⟨node, live, nextEq, -⟩ := valid.holds.head_links
  simp only [pushFront, beginIterator, runs_bind, runs_get, valid.holds.head_eq, runs_read live,
    runs_pure, nextEq]
  have whole : Valid frame state head ([] ++ entries) := valid
  apply (insert_spec whole refers).mono
  · rintro _ next ⟨new, -, validNext⟩
    refine ⟨new, ?_⟩
    cases reference <;> exact validNext
  · exact fun _ _ => id

/-- Copying an element to the end. -/
theorem pushBack_copy_spec (valid : Valid frame state head entries)
    (held : reference.Held frame entries value) :
    Runs (pushBack environment .copy reference) state
      (fun _ next => ∃ new, Valid frame next head (entries ++ [(new, value)]))
      (Interrupted environment 0 state) := by
  have pushed : Runs (pushBack environment .copy reference) state _ (Interrupted environment 0 state) :=
    pushBack_spec valid (held.refers valid)
  simpa only [Passing.remains, depart_id, departed_id] using pushed

/-- The loop of `Resize` that adds elements. -/
theorem repeatedly_pushBack_spec (count : Nat) (valid : Valid frame state head entries)
    (held : reference.Held frame entries value) :
    Runs (repeatedly (pushBack environment .copy reference) count) state
      (fun _ next => Grown frame next head entries (List.replicate count value))
      (Stunted environment 0 frame head entries (List.replicate count value)) := by
  induction count generalizing state entries with
  | zero => exact .nil valid
  | succ count ih =>
      rw [repeatedly, runs_bind]
      apply (pushBack_copy_spec valid held).mono
      · rintro _ next ⟨new, validNext⟩
        apply (ih validNext held.append).mono
        · intro _ last grown
          exact grown.cons
        · intro fault last stunted
          exact stunted.cons
      · intro fault next interrupted
        exact .none valid interrupted

/-- The loop of `Resize` that drops elements. -/
theorem repeatedly_popBack_spec (count : Nat) (valid : Valid frame state head entries) :
    Runs (repeatedly popBack count) state
      (fun _ next => Valid frame next head (entries.take (entries.length - count))) raises := by
  induction count generalizing state entries with
  | zero =>
      rw [Nat.sub_zero, List.take_length]
      exact valid
  | succ count ih =>
      rw [repeatedly, runs_bind]
      apply (popBack_spec valid).mono
      · intro _ next validNext
        have rest := ih validNext
        rwa [List.length_dropLast, List.dropLast_eq_take, List.take_take, Nat.sub_sub,
          Nat.min_eq_left (by omega), Nat.add_comm 1] at rest
      · exact fun _ _ => id

/-- `Resize` cuts the list off or fills it up. -/
theorem resize_spec (newContainerSize : UInt64) (valid : Valid frame state head entries)
    (refers : reference.Refers state.nodes value) :
    Runs (resize environment newContainerSize reference) state
      (fun _ next => Grown frame next head (entries.take newContainerSize.toNat)
        (List.replicate (newContainerSize.toNat - entries.length) value))
      (Stunted environment 0 frame head entries
        (List.replicate (newContainerSize.toNat - entries.length) value)) := by
  have size := valid.holds.size_eq
  simp only [resize, runs_bind, runs_get]
  split
  next small =>
    rw [UInt64.le_iff_toNat_le, size] at small
    apply (repeatedly_popBack_spec _ valid).mono
    · intro _ next validNext
      rw [size, Nat.sub_sub_self small] at validNext
      rw [Nat.sub_eq_zero_of_le small]
      exact .nil validNext
    · exact fun _ _ => id
  next large =>
    rw [UInt64.le_iff_toNat_le, size, Nat.not_le] at large
    rw [size, List.take_of_length_le (Nat.le_of_lt large)]
    exact repeatedly_pushBack_spec _ valid (refers.held valid)

end Methods

end Wan.Container.ListContainer
