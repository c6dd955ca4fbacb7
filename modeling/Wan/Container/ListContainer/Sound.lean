import Wan.Container.ListContainer.Assignment
import Wan.Container.ListContainer.World

/-!
# Nodes that stand for sequences

`Laid` says which nodes belong to which list, and `Sound` that the lists hold the values of
the named sequences and that every iterator that does not dangle stands where its cursor
says.  Both are kept when a list is made, dropped, exchanged or changed in one place.
-/

namespace Wan.Container.ListContainer

open Wan.Library Wan.Library.LinkedList Wan.Library.Program

variable {V : Type}

/-- The sentinel of a list and its entries. -/
structure Shape (V : Type) where
  head : Addr
  entries : List (Entry V)

namespace Shape

/-- The nodes of a list. -/
def owned (shape : Shape V) : List Addr := shape.head :: addresses shape.entries

def values (shape : Shape V) : List V := shape.entries.map Prod.snd

/-- The iterator at a position. -/
def iterator (shape : Shape V) (position : Nat) : ListIterator :=
  ⟨some (place shape.head (addresses shape.entries) position), some shape.head⟩

theorem iterator_eq_iff {head : Addr} {entries others : List (Entry V)} {position other : Nat} :
    iterator ⟨head, entries⟩ position = iterator ⟨head, others⟩ other ↔
      place head (addresses entries) position = place head (addresses others) other := by
  simp [iterator]

/-- An element of the list may have been taken. -/
def depart (shape : Shape V) (remains : V → V) (reference : Reference V) : Shape V :=
  ⟨shape.head, departed remains shape.entries reference⟩

end Shape

/-- The shapes of the named lists. -/
abbrev Shapes (V : Type) := Nat → Option (Shape V)

def Shapes.depart (shapes : Shapes V) (remains : V → V) (reference : Reference V) : Shapes V :=
  fun name => (shapes name).map fun shape => shape.depart remains reference

/-- Every node belongs to one named list. -/
structure Laid (nodes : Nodes V) (lists : Nat → Option ListContainer) (shapes : Shapes V) :
    Prop where
  holds : ∀ {name shape}, shapes name = some shape →
    ∃ list, lists name = some list ∧ Holds nodes list shape.head shape.entries
  vacant : ∀ {name}, shapes name = none → lists name = none
  apart : ∀ {name other shape another}, name ≠ other → shapes name = some shape →
    shapes other = some another → ∀ address ∈ shape.owned, address ∉ another.owned
  owned : ∀ {address node}, nodes address = some node →
    ∃ name shape, shapes name = some shape ∧ address ∈ shape.owned

/-- An iterator stands where a cursor says. -/
def Stands (shapes : Shapes V) (iterator : ListIterator) : Cursor → Prop
  | .unbound => iterator = ⟨none, none⟩
  | .within name position => ∃ shape, shapes name = some shape ∧
      position ≤ shape.entries.length ∧ iterator = shape.iterator position

/-- The lists and iterators of a program stand for sequences and cursors. -/
structure Sound (world : World V) (sequences : Sequences V) (shapes : Shapes V) : Prop where
  laid : Laid world.nodes world.lists shapes
  contents : ∀ name, sequences.contents name = (shapes name).map Shape.values
  cursors : ∀ {iterator cursor}, sequences.cursors iterator = some cursor →
    Stands shapes (world.iterators iterator) cursor

section Updates

variable {α : Type} {function : Nat → Option α} {name other : Nat} {value new : α}

theorem update_none_eq_some : Function.update function name none other = some value ↔
    other ≠ name ∧ function other = some value := by
  by_cases same : other = name
  · subst same
    simp
  · simp [same]

theorem update_some_eq_some : Function.update function name (some new) other = some value ↔
    other = name ∧ new = value ∨ other ≠ name ∧ function other = some value := by
  by_cases same : other = name
  · subst same
    simp
  · simp [same]

theorem update_some_eq_none : Function.update function name (some new) other = none ↔
    other ≠ name ∧ function other = none := by
  by_cases same : other = name
  · subst same
    simp
  · simp [same]

end Updates

namespace Laid

variable {nodes : Nodes V} {lists : Nat → Option ListContainer} {shapes : Shapes V}
variable {name other : Nat} {head : Addr} {entries : List (Entry V)} {state : State V}
variable {shape : Shape V}

/-- A list and its nodes are gone. -/
theorem drop (laid : Laid nodes lists shapes) (found : shapes name = some shape) :
    Laid (rest nodes shape.head shape.entries) (Function.update lists name none)
      (Function.update shapes name none) where
  holds := by
    intro other another present
    rw [update_none_eq_some] at present
    obtain ⟨list, listed, holds⟩ := laid.holds present.2
    refine ⟨list, by rwa [Function.update_of_ne present.1], holds.congr ?_⟩
    intro address member
    exact rest_of_not_mem (laid.apart present.1 present.2 found address member)
  vacant := by
    intro other absent
    by_cases same : other = name
    · rw [same, Function.update_self]
    · rw [Function.update_of_ne same] at absent ⊢
      exact laid.vacant absent
  apart := by
    intro first second shape another differ left right
    rw [update_none_eq_some] at left right
    exact laid.apart differ left.2 right.2
  owned := by
    intro address node live
    by_cases member : address ∈ shape.head :: addresses shape.entries
    · rw [rest_of_mem member] at live
      cases live
    · rw [rest_of_not_mem member] at live
      obtain ⟨owner, another, present, inside⟩ := laid.owned live
      refine ⟨owner, another, update_none_eq_some.mpr ⟨?_, present⟩, inside⟩
      rintro rfl
      rw [found] at present
      cases present
      exact member inside

/-- A list is there next to what was there before. -/
theorem create (laid : Laid nodes lists shapes) (absent : shapes name = none)
    (valid : Valid nodes state head entries) :
    Laid state.nodes (Function.update lists name (some state.self))
      (Function.update shapes name (some ⟨head, entries⟩)) := by
  have separate : ∀ {owner another}, shapes owner = some another →
      ∀ address ∈ another.owned, address ∉ head :: addresses entries := by
    intro owner another present address member inside
    obtain ⟨list, -, holds⟩ := laid.holds present
    exact valid.disjoint holds inside member
  constructor
  · intro owner another present
    rw [update_some_eq_some] at present
    rcases present with ⟨rfl, rfl⟩ | ⟨differ, present⟩
    · exact ⟨state.self, Function.update_self .., valid.holds⟩
    · obtain ⟨list, listed, holds⟩ := laid.holds present
      exact ⟨list, by rwa [Function.update_of_ne differ], valid.holds_frame holds⟩
  · intro owner vacant
    rw [update_some_eq_none] at vacant
    rw [Function.update_of_ne vacant.1]
    exact laid.vacant vacant.2
  · intro first second shape another differ left right
    rw [update_some_eq_some] at left right
    rcases left with ⟨rfl, rfl⟩ | ⟨_, left⟩
    · rcases right with ⟨rfl, rfl⟩ | ⟨_, right⟩
      · exact absurd rfl differ
      · intro address inside member
        exact separate right address member inside
    · rcases right with ⟨rfl, rfl⟩ | ⟨_, right⟩
      · exact separate left
      · exact laid.apart differ left right
  · intro address node live
    by_cases member : address ∈ head :: addresses entries
    · exact ⟨name, ⟨head, entries⟩, Function.update_self .., member⟩
    · rw [valid.framed address member] at live
      obtain ⟨owner, another, present, inside⟩ := laid.owned live
      refine ⟨owner, another, update_some_eq_some.mpr (.inr ⟨?_, present⟩), inside⟩
      rintro rfl
      rw [absent] at present
      cases present

/-- A list changes its nodes. -/
theorem replace (laid : Laid nodes lists shapes) (found : shapes name = some shape)
    (valid : Valid (rest nodes shape.head shape.entries) state head entries) :
    Laid state.nodes (Function.update lists name (some state.self))
      (Function.update shapes name (some ⟨head, entries⟩)) := by
  have created := (laid.drop found).create (Function.update_self ..) valid
  rwa [Function.update_idem, Function.update_idem] at created

/-- Two lists exchange their fields. -/
theorem exchange (laid : Laid nodes lists shapes) :
    Laid nodes (fun owner => lists (Equiv.swap name other owner))
      (fun owner => shapes (Equiv.swap name other owner)) where
  holds := laid.holds
  vacant := laid.vacant
  apart differ := laid.apart ((Equiv.swap name other).injective.ne differ)
  owned live := by
    obtain ⟨owner, shape, present, inside⟩ := laid.owned live
    exact ⟨Equiv.swap name other owner, shape, by rwa [Equiv.swap_apply_self], inside⟩

/-- An element of some list is taken. -/
theorem depart (laid : Laid nodes lists shapes) (remains : V → V) (reference : Reference V) :
    Laid (depart remains nodes reference) lists
      (shapes.depart remains reference) where
  holds := by
    intro owner shape present
    obtain ⟨original, stored, rfl⟩ := Option.map_eq_some_iff.mp present
    obtain ⟨list, listed, holds⟩ := laid.holds stored
    exact ⟨list, listed, holds.depart⟩
  vacant absent := laid.vacant (Option.map_eq_none_iff.mp absent)
  apart := by
    intro first second shape another differ left right address
    obtain ⟨original, first, rfl⟩ := Option.map_eq_some_iff.mp left
    obtain ⟨counterpart, second, rfl⟩ := Option.map_eq_some_iff.mp right
    simpa [Shape.owned, Shape.depart] using laid.apart differ first second address
  owned := by
    intro address node live
    have present : (nodes address).isSome := by
      by_contra dead
      rw [Option.not_isSome_iff_eq_none] at dead
      rw [depart_none dead] at live
      cases live
    obtain ⟨original, found⟩ := Option.isSome_iff_exists.mp present
    obtain ⟨owner, shape, shaped, inside⟩ := laid.owned found
    refine ⟨owner, shape.depart remains reference, congrArg (Option.map _) shaped, ?_⟩
    simpa [Shape.owned, Shape.depart] using inside

end Laid

section Values

variable {remains : V → V} {entries : List (Entry V)} {node head : Addr} {position : Nat}

theorem departed_of_not_mem (outside : node ∉ addresses entries) :
    departed remains entries (.element node) = entries := by
  apply (List.map_congr_left _).trans (List.map_id _)
  intro entry member
  rw [if_neg, id]
  rintro rfl
  exact outside (List.mem_map_of_mem member)

theorem place_of_lt (inside : position < entries.length) :
    place head (addresses entries) position = entries[position].1 := by
  have within : position < (addresses entries).length := by rwa [addresses_length]
  rw [place, List.drop_eq_getElem_cons within, successor_cons]
  simp [addresses]

/-- The values when the element at a place is taken. -/
theorem departed_values (distinct : (addresses entries).Nodup) (inside : position < entries.length) :
    (departed remains entries (.element (place head (addresses entries) position))).map Prod.snd =
      (entries.map Prod.snd).modify position remains := by
  rw [departed, List.map_map, place_of_lt inside]
  apply List.ext_getElem
  · simp
  · intro index left right
    have bound : index < entries.length := by simpa using left
    rw [List.getElem_modify, List.getElem_map, List.getElem_map, Function.comp_apply]
    by_cases here : position = index
    · subst here
      rw [if_pos rfl, if_pos rfl]
    · rw [if_neg here, if_neg]
      intro same
      apply here
      have equal : (addresses entries)[index]? = (addresses entries)[position]? := by
        rw [addresses, List.getElem?_map, List.getElem?_map, List.getElem?_eq_getElem bound,
          List.getElem?_eq_getElem inside, Option.map_some, Option.map_some, same]
      have bounded : index < (addresses entries).length := by rwa [addresses_length]
      exact ((List.getElem?_inj bounded distinct).mp equal).symm

end Values

section Places

variable {head : Addr} {earlier later : List (Entry V)} {position : Nat}

theorem place_entries_of_lt (before : position < earlier.length) :
    place head (addresses (earlier ++ later)) position = place head (addresses earlier) position := by
  rw [addresses_append, place_append_of_lt (by rwa [addresses_length])]

theorem place_entries_of_le (behind : earlier.length ≤ position) :
    place head (addresses (earlier ++ later)) position =
      place head (addresses later) (position - earlier.length) := by
  rw [addresses_append, place_append_of_le (by rwa [addresses_length]), addresses_length]

end Places

namespace Stands

variable {shapes : Shapes V} {name other : Nat} {iterator : ListIterator} {cursor next : Cursor}
variable {head : Addr} {shape : Shape V} {earlier removed added later : List (Entry V)}

/-- Replacing a part of a list leaves the iterators at other elements where they are. -/
theorem splice (stands : Stands shapes iterator cursor)
    (found : shapes name = some ⟨head, earlier ++ removed ++ later⟩)
    (moved : cursor.splice name earlier.length removed.length added.length = some next) :
    Stands (Function.update shapes name (some ⟨head, earlier ++ added ++ later⟩)) iterator next := by
  cases cursor with
  | unbound =>
      cases moved
      exact stands
  | within owner position =>
      obtain ⟨shape, present, bound, rfl⟩ := stands
      rw [Cursor.splice] at moved
      by_cases same : owner = name
      · subst same
        rw [found] at present
        cases present
        rw [List.append_assoc, List.length_append] at bound
        split at moved
        next before =>
          have before := before.resolve_left (fun differ => differ rfl)
          cases moved
          refine ⟨_, Function.update_self .., ?_, ?_⟩
          · simp only [List.length_append]
            omega
          · rw [Shape.iterator_eq_iff]
            simp only [List.append_assoc]
            rw [place_entries_of_lt before, place_entries_of_lt before]
        next behind =>
          have behind : earlier.length ≤ position :=
            Nat.le_of_not_lt fun before => behind (.inr before)
          split at moved
          next => cases moved
          next behindPart =>
            cases moved
            rw [List.length_append] at bound
            refine ⟨_, Function.update_self .., ?_, ?_⟩
            · simp only [List.length_append]
              omega
            · rw [Shape.iterator_eq_iff, place_entries_of_le, place_entries_of_le]
              · congr 1
                simp only [List.length_append]
                omega
              · simp only [List.length_append]
                omega
              · simp only [List.length_append]
                omega
      · rw [if_pos (.inl same)] at moved
        cases moved
        exact ⟨shape, by rwa [Function.update_of_ne same], bound, rfl⟩

theorem drop (stands : Stands shapes iterator cursor) (kept : cursor.drop name = some next) :
    Stands (Function.update shapes name none) iterator next := by
  cases cursor with
  | unbound =>
      cases kept
      exact stands
  | within owner position =>
      obtain ⟨shape, present, bound, rfl⟩ := stands
      rw [Cursor.drop] at kept
      split at kept
      next => cases kept
      next differ =>
        cases kept
        exact ⟨shape, by rwa [Function.update_of_ne differ], bound, rfl⟩

theorem create (stands : Stands shapes iterator cursor) (absent : shapes name = none) :
    Stands (Function.update shapes name (some shape)) iterator cursor := by
  cases cursor with
  | unbound => exact stands
  | within owner position =>
      obtain ⟨another, present, bound, rfl⟩ := stands
      refine ⟨another, ?_, bound, rfl⟩
      rw [Function.update_of_ne, present]
      rintro rfl
      rw [absent] at present
      cases present

theorem exchange (stands : Stands shapes iterator cursor) :
    Stands (fun owner => shapes (Equiv.swap name other owner)) iterator
      (cursor.exchange name other) := by
  cases cursor with
  | unbound => exact stands
  | within owner position =>
      obtain ⟨shape, present, bound, rfl⟩ := stands
      exact ⟨shape, (congrArg shapes (Equiv.swap_apply_self ..)).trans present, bound, rfl⟩

theorem depart {remains : V → V} {reference : Reference V}
    (stands : Stands shapes iterator cursor) :
    Stands (shapes.depart remains reference) iterator cursor := by
  cases cursor with
  | unbound => exact stands
  | within owner position =>
      obtain ⟨shape, present, bound, rfl⟩ := stands
      refine ⟨shape.depart remains reference, congrArg (Option.map _) present, ?_, ?_⟩
      · rwa [Shape.depart, departed_length]
      · rw [Shape.iterator, Shape.iterator, Shape.depart, addresses_departed]

end Stands

namespace Sound

variable {world : World V} {sequences : Sequences V} {shapes : Shapes V} {name other : Nat}
variable {head : Addr} {entries earlier removed added later : List (Entry V)} {state : State V}
variable {shape : Shape V} {list : ListContainer} {requests : Nat}

theorem empty : Sound (World.empty (V := V)) Sequences.empty (fun _ => none) where
  laid := {
    holds := nofun
    vacant := fun _ => rfl
    apart := nofun
    owned := nofun }
  contents _ := rfl
  cursors := by
    intro iterator cursor here
    cases here
    rfl

theorem congr (sound : Sound world sequences shapes) {after : World V}
    (nodes : after.nodes = world.nodes) (lists : after.lists = world.lists)
    (iterators : after.iterators = world.iterators) : Sound after sequences shapes where
  laid := by
    rw [nodes, lists]
    exact sound.laid
  contents := sound.contents
  cursors := by
    rw [iterators]
    exact sound.cursors

/-- The number of requests does not matter. -/
theorem quiet (sound : Sound world sequences shapes) (listed : world.lists name = some list)
    (same : Quiet ⟨world.nodes, world.requests, list⟩ state) :
    Sound (world.after name state) sequences shapes := by
  have sameLists : (world.after name state).lists = world.lists := by
    rw [World.after, same.2, ← listed, Function.update_eq_self]
  exact sound.congr same.1 sameLists rfl

/-- A named list is valid next to the nodes of the others. -/
theorem listed (sound : Sound world sequences shapes) (found : shapes name = some shape) :
    ∃ list, world.lists name = some list ∧
      Valid (rest world.nodes shape.head shape.entries) ⟨world.nodes, world.requests, list⟩
        shape.head shape.entries := by
  obtain ⟨list, listed, holds⟩ := sound.laid.holds found
  exact ⟨list, listed, holds.valid⟩

/-- The nodes of a list that has contents. -/
theorem shaped (sound : Sound world sequences shapes) {values : List V}
    (found : sequences.contents name = some values) :
    ∃ head entries, shapes name = some ⟨head, entries⟩ ∧ entries.map Prod.snd = values := by
  rw [sound.contents, Option.map_eq_some_iff] at found
  obtain ⟨⟨head, entries⟩, present, same⟩ := found
  exact ⟨head, entries, present, same⟩

theorem absent (sound : Sound world sequences shapes) (vacant : sequences.contents name = none) :
    shapes name = none := by
  rwa [sound.contents, Option.map_eq_none_iff] at vacant

/-- A new list. -/
theorem create (sound : Sound world sequences shapes) (state : State V)
    (absent : shapes name = none) (valid : Valid world.nodes state head entries) :
    Sound (world.after name state) (sequences.create name (entries.map Prod.snd))
      (Function.update shapes name (some ⟨head, entries⟩)) where
  laid := sound.laid.create absent valid
  contents owner := by
    by_cases same : owner = name
    · subst same
      simp [Sequences.create, Shape.values]
    · simp [Sequences.create, same, sound.contents]
  cursors here := (sound.cursors here).create absent

/-- A list is gone. -/
theorem drop (sound : Sound world sequences shapes) (requests : Nat)
    (found : shapes name = some shape) : Sound ⟨rest world.nodes shape.head shape.entries, requests,
        Function.update world.lists name none, world.iterators⟩
      (sequences.drop name) (Function.update shapes name none) where
  laid := sound.laid.drop found
  contents owner := by
    by_cases same : owner = name
    · subst same
      simp [Sequences.drop]
    · simp [Sequences.drop, same, sound.contents]
  cursors here := by
    obtain ⟨cursor, stood, kept⟩ := Option.bind_eq_some_iff.mp here
    exact (sound.cursors stood).drop kept

/-- Two lists exchange their nodes. -/
theorem exchange (sound : Sound world sequences shapes) (requests name other : Nat) :
    Sound ⟨world.nodes, requests, fun owner => world.lists (Equiv.swap name other owner),
        world.iterators⟩
      (sequences.exchange name other) (fun owner => shapes (Equiv.swap name other owner)) where
  laid := sound.laid.exchange
  contents owner := sound.contents _
  cursors here := by
    obtain ⟨cursor, stood, rfl⟩ := Option.map_eq_some_iff.mp here
    exact (sound.cursors stood).exchange

/-- A part of a list is replaced. -/
theorem splice (sound : Sound world sequences shapes)
    (earlier removed added later : List (Entry V))
    (found : shapes name = some ⟨head, earlier ++ removed ++ later⟩)
    (valid : Valid (rest world.nodes head (earlier ++ removed ++ later)) state head
      (earlier ++ added ++ later)) :
    Sound (world.after name state)
      (sequences.splice name earlier.length removed.length (added.map Prod.snd))
      (Function.update shapes name (some ⟨head, earlier ++ added ++ later⟩)) where
  laid := sound.laid.replace found valid
  contents owner := by
    by_cases same : owner = name
    · subst same
      simp [Sequences.splice, sound.contents, found, Shape.values,
        List.drop_append]
    · simp [Sequences.splice, same, sound.contents]
  cursors here := by
    obtain ⟨cursor, stood, moved⟩ := Option.bind_eq_some_iff.mp here
    rw [List.length_map] at moved
    exact (sound.cursors stood).splice found moved

/-- Elements have been added after a part of a list, and the others dropped. -/
theorem grown (sound : Sound world sequences shapes) (earlier removed : List (Entry V))
    {values : List V} (found : shapes name = some ⟨head, earlier ++ removed⟩)
    (grown : Grown (rest world.nodes head (earlier ++ removed)) state head earlier values) :
    ∃ entries, Sound (world.after name state)
      (sequences.splice name earlier.length removed.length values)
      (Function.update shapes name (some ⟨head, entries⟩)) := by
  obtain ⟨added, rfl, valid⟩ := grown
  refine ⟨earlier ++ added ++ [], sound.splice earlier removed added [] ?_ ?_⟩
  · rwa [List.append_nil]
  · rwa [List.append_nil, List.append_nil]

/-- An iterator is assigned. -/
theorem steer (sound : Sound world sequences shapes) {target : Nat} {iterator : ListIterator}
    {cursor : Option Cursor} (stands : ∀ place, cursor = some place → Stands shapes iterator place) :
    Sound { world with iterators := Function.update world.iterators target iterator }
      (sequences.steer target cursor) shapes where
  laid := sound.laid
  contents := sound.contents
  cursors := by
    intro assigned place here
    show Stands shapes (Function.update world.iterators target iterator assigned) place
    have here : Function.update sequences.cursors target cursor assigned = some place := here
    by_cases same : assigned = target
    · subst same
      rw [Function.update_self] at here ⊢
      exact stands place here
    · rw [Function.update_of_ne same] at here ⊢
      exact sound.cursors here

/-- An element is taken by reference. -/
theorem resolve (sound : Sound world sequences shapes) {argument : Argument V} {value : V}
    (passed : sequences.argument argument = some value) :
    ∃ reference : Reference V, reference.Refers world.nodes value ∧
      (∀ remains, Sound { world with nodes := ListContainer.depart remains world.nodes reference }
        (sequences.depart remains argument) (shapes.depart remains reference)) ∧
      ∀ post raises, Runs (World.resolve argument) world post raises ↔ post reference world := by
  cases argument with
  | object object =>
      cases passed
      refine ⟨.outside value, rfl, ?_, fun _ _ => Iff.rfl⟩
      intro remains
      have same : shapes.depart remains (.outside value) = shapes := by
        funext owner
        exact Option.map_id_apply
      rw [same]
      exact sound
  | target iterator =>
      simp only [Sequences.argument, Option.bind_eq_bind, Option.bind_eq_some_iff] at passed
      obtain ⟨_ | ⟨owner, position⟩, here, passed⟩ := passed
      · cases passed
      obtain ⟨values, stored, found⟩ := Option.bind_eq_some_iff.mp passed
      obtain ⟨head, entries, present, rfl⟩ := sound.shaped stored
      obtain ⟨inside, rfl⟩ := List.getElem?_eq_some_iff.mp found
      rw [List.length_map] at inside
      obtain ⟨shape, shaped, -, iteratorEq⟩ := sound.cursors here
      rw [present] at shaped
      cases shaped
      obtain ⟨list, -, holds⟩ := sound.laid.holds present
      refine ⟨.element (place head (addresses entries) position), ?_, ?_, ?_⟩
      · rw [Reference.Refers, place_of_lt inside, holds.data _ (List.getElem_mem inside),
          List.getElem_map]
      · intro remains
        have left : sequences.depart remains (.target iterator) =
            sequences.alter owner position remains := by
          simp [Sequences.depart, here]
        rw [left]
        constructor
        · exact sound.laid.depart remains (.element (place head (addresses entries) position))
        · intro other
          by_cases same : other = owner
          · subst same
            simp [Sequences.alter, sound.contents, present, Shapes.depart, Shape.depart,
              Shape.values, departed_values (List.nodup_cons.mp holds.distinct).2 inside]
          · refine (Function.update_of_ne same _ _).trans ((sound.contents other).trans ?_)
            rcases stranger : shapes other with _ | another
            · simp [Shapes.depart, stranger]
            · -- The element belongs to one list only.
              have outside : place head (addresses entries) position ∉ addresses another.entries :=
                fun member => sound.laid.apart (Ne.symm same) present stranger _ place_mem
                  (List.mem_cons_of_mem _ member)
              simp [Shapes.depart, stranger, Shape.depart, departed_of_not_mem outside]
        · exact fun stood => (sound.cursors stood).depart
      · intro post raises
        rw [World.resolve, runs_bind, runs_get, iteratorEq]
        exact Iff.rfl

end Sound

end Wan.Container.ListContainer
