import Wan.Container.ListContainer.Edits

/-!
# Whole programs

Commands that only look at lists or move iterators, and from the lemmas about single
commands that every program that keeps to the preconditions runs to its end as the
sequences say, whatever its calls yield or raise.
-/

namespace Wan.Container.ListContainer

open Wan.Library Wan.Library.LinkedList Wan.Library.Program

variable {V : Type} {environment : Environment V}

section Links

variable {nodes frame : Nodes V} {state : State V} {list : ListContainer} {head : Addr}
variable {entries : List (Entry V)} {position : Nat} {raises : Fault → State V → Prop}

/-- The place behind a place; the sentinel is followed by the first element. -/
theorem Holds.next_place (holds : Holds nodes list head entries)
    (within : position ≤ entries.length) :
    view (·.memberNext) nodes (place head (addresses entries) position) =
      some (some (place head (addresses entries)
        (if position < entries.length then position + 1 else 0))) := by
  by_cases before : position < entries.length
  · rw [if_pos before]
    exact holds.ring.next_place (by rwa [addresses_length])
  · have atEnd : position = (addresses entries).length := by
      rw [addresses_length]
      omega
    rw [if_neg before, atEnd, place_length, place_zero]
    exact holds.ring.next_head

/-- The place in front of a place. -/
theorem Holds.prev_place (holds : Holds nodes list head entries)
    (within : position ≤ entries.length) :
    view (·.memberPrev) nodes (place head (addresses entries) position) =
      some (some (place head (addresses entries)
        (if position = 0 then entries.length else position - 1))) := by
  cases position with
  | zero =>
      rw [if_pos rfl, ← addresses_length, place_length, place_zero]
      have whole : Ring (view (·.memberNext) nodes) (view (·.memberPrev) nodes) head
          ([] ++ addresses entries) := holds.ring
      exact whole.prev_successor
  | succ position =>
      rw [if_neg (Nat.succ_ne_zero _)]
      exact holds.ring.prev_place (by rwa [addresses_length])

theorem front_spec (valid : Valid frame state head entries) {value : V}
    (first : (entries.map Prod.snd).head? = some value) :
    Runs front state (fun found next => found = value ∧ next = state) raises := by
  obtain ⟨node, live, nextEq, -⟩ := valid.holds.head_links
  rw [List.head?_map, Option.map_eq_some_iff] at first
  obtain ⟨⟨address, value⟩, here, rfl⟩ := first
  obtain ⟨rest, rfl⟩ := List.head?_eq_some_iff.mp here
  rw [front, runs_bind, runs_get, runs_bind, valid.holds.head_eq, runs_read live, nextEq,
    addresses_cons, successor_cons, runs_bind, runs_follow,
    runs_element (valid.holds.data _ List.mem_cons_self)]
  exact ⟨rfl, rfl⟩

theorem back_spec (valid : Valid frame state head entries) {value : V}
    (last : (entries.map Prod.snd).getLast? = some value) :
    Runs back state (fun found next => found = value ∧ next = state) raises := by
  obtain ⟨node, live, -, prevEq⟩ := valid.holds.head_links
  rw [List.getLast?_map, Option.map_eq_some_iff] at last
  obtain ⟨⟨address, value⟩, here, rfl⟩ := last
  obtain ⟨front, rfl⟩ := List.getLast?_eq_some_iff.mp here
  rw [back, runs_bind, runs_get, runs_bind, valid.holds.head_eq, runs_read live, prevEq,
    addresses_append, addresses_cons, addresses_nil, predecessor_concat, runs_bind, runs_follow,
    runs_element (valid.holds.data (address, value) (by simp))]
  exact ⟨rfl, rfl⟩

end Links

section Observations

variable {world : World V} {sequences later : Sequences V} {shapes : Shapes V}
variable {name target iterator other : Nat} {outcome : Except Fault (Observation V)}

theorem size_correct (sound : Sound world sequences shapes)
    (effect : (Command.size name).effect environment sequences = some (outcome, later)) :
    Correct environment (.size name) sequences world := by
  have unfolded := effect
  simp only [Command.effect, Option.bind_eq_bind, Option.bind_eq_some_iff] at unfolded
  obtain ⟨values, stored, ended⟩ := unfolded
  cases ended
  obtain ⟨head, entries, found, rfl⟩ := sound.shaped stored
  obtain ⟨list, listed, valid⟩ := sound.listed found
  rw [Correct, Command.run, runs_bind, runs_named listed, runs_pure]
  rw [List.length_map, ← valid.holds.size_eq, UInt64.ofNat_toNat] at effect
  exact .effect effect ⟨shapes, sound⟩

/-- Member functions that only look at a list. -/
theorem observe_correct {α : Type} {command : Command V} {method : Method V α} {list : ListContainer}
    {observation : Observation V} {observe : α → Observation V}
    (sound : Sound world sequences shapes) (listed : world.lists name = some list)
    (effect : command.effect environment sequences = some (.ok observation, sequences))
    (runs : Runs method ⟨world.nodes, world.requests, list⟩
      (fun found next => observe found = observation ∧ next = ⟨world.nodes, world.requests, list⟩)
      (fun _ _ => False)) :
    Runs (World.call name method >>= fun found => pure (observe found)) world
      (fun observation => Conforms environment command sequences (.ok observation))
      (fun fault => Conforms environment command sequences (.error fault)) := by
  rw [runs_bind, runs_call listed]
  apply runs.mono
  · rintro found next ⟨rfl, rfl⟩
    exact .effect effect ⟨shapes, sound.quiet listed (.refl _)⟩
  · exact fun _ _ => False.elim

theorem empty_correct (sound : Sound world sequences shapes)
    (effect : (Command.empty name).effect environment sequences = some (outcome, later)) :
    Correct environment (.empty name) sequences world := by
  have unfolded := effect
  simp only [Command.effect, Option.bind_eq_bind, Option.bind_eq_some_iff] at unfolded
  obtain ⟨values, stored, ended⟩ := unfolded
  cases ended
  obtain ⟨head, entries, found, rfl⟩ := sound.shaped stored
  obtain ⟨list, listed, valid⟩ := sound.listed found
  apply observe_correct sound listed effect
  rw [runs_empty valid, List.isEmpty_map]
  exact ⟨rfl, rfl⟩

theorem front_correct (sound : Sound world sequences shapes)
    (effect : (Command.front name).effect environment sequences = some (outcome, later)) :
    Correct environment (.front name) sequences world := by
  have unfolded := effect
  simp only [Command.effect, Option.bind_eq_bind, Option.bind_eq_some_iff] at unfolded
  obtain ⟨values, stored, value, first, ended⟩ := unfolded
  cases ended
  obtain ⟨head, entries, found, rfl⟩ := sound.shaped stored
  obtain ⟨list, listed, valid⟩ := sound.listed found
  apply observe_correct sound listed effect
  apply (front_spec valid first).mono
  · rintro found next ⟨rfl, rfl⟩
    exact ⟨rfl, rfl⟩
  · exact fun _ _ => id

theorem back_correct (sound : Sound world sequences shapes)
    (effect : (Command.back name).effect environment sequences = some (outcome, later)) :
    Correct environment (.back name) sequences world := by
  have unfolded := effect
  simp only [Command.effect, Option.bind_eq_bind, Option.bind_eq_some_iff] at unfolded
  obtain ⟨values, stored, value, last, ended⟩ := unfolded
  cases ended
  obtain ⟨head, entries, found, rfl⟩ := sound.shaped stored
  obtain ⟨list, listed, valid⟩ := sound.listed found
  apply observe_correct sound listed effect
  apply (back_spec valid last).mono
  · rintro found next ⟨rfl, rfl⟩
    exact ⟨rfl, rfl⟩
  · exact fun _ _ => id

end Observations

section Iterators

variable {world : World V} {sequences later : Sequences V} {shapes : Shapes V}
variable {name target iterator other : Nat} {outcome : Except Fault (Observation V)}

theorem beginIterator_correct (sound : Sound world sequences shapes)
    (effect : (Command.beginIterator name target).effect environment sequences =
      some (outcome, later)) :
    Correct environment (.beginIterator name target) sequences world := by
  have unfolded := effect
  simp only [Command.effect, Option.bind_eq_bind, Option.bind_eq_some_iff] at unfolded
  obtain ⟨values, stored, ended⟩ := unfolded
  cases ended
  obtain ⟨head, entries, found, rfl⟩ := sound.shaped stored
  obtain ⟨list, listed, valid⟩ := sound.listed found
  obtain ⟨node, live, nextEq, -⟩ := valid.holds.head_links
  rw [Correct, Command.run, runs_bind, runs_call listed, beginIterator, runs_bind, runs_get,
    runs_bind, valid.holds.head_eq, runs_read live, runs_pure, nextEq, runs_bind, runs_steer,
    runs_pure]
  refine .effect effect ⟨_, (sound.quiet listed (.refl _)).steer ?_⟩
  rintro _ ⟨⟩
  exact ⟨_, found, Nat.zero_le _, rfl⟩

theorem endIterator_correct (sound : Sound world sequences shapes)
    (effect : (Command.endIterator name target).effect environment sequences =
      some (outcome, later)) :
    Correct environment (.endIterator name target) sequences world := by
  have unfolded := effect
  simp only [Command.effect, Option.bind_eq_bind, Option.bind_eq_some_iff] at unfolded
  obtain ⟨values, stored, ended⟩ := unfolded
  cases ended
  obtain ⟨head, entries, found, rfl⟩ := sound.shaped stored
  obtain ⟨list, listed, valid⟩ := sound.listed found
  rw [Correct, Command.run, runs_bind, runs_call listed, runs_endIterator, valid.holds.head_eq,
    runs_bind, runs_steer, runs_pure]
  refine .effect effect ⟨_, (sound.quiet listed (.refl _)).steer ?_⟩
  rintro _ ⟨⟩
  refine ⟨_, found, ?_, ?_⟩
  · rw [List.length_map]
  · rw [Shape.iterator, List.length_map, ← addresses_length, place_length]

theorem assignIterator_correct (sound : Sound world sequences shapes)
    (effect : (Command.assignIterator iterator target).effect environment sequences =
      some (outcome, later)) :
    Correct environment (.assignIterator iterator target) sequences world := by
  have unfolded := effect
  cases unfolded
  exact .effect effect ⟨_, sound.steer fun place here => sound.cursors here⟩

/-- `++` and `--` of an iterator at a place. -/
theorem follow_spec {link : ListContainerNode V → Option Addr} {position next : Nat}
    {shape : Shape V} {method : Method V ListIterator} (sound : Sound world sequences shapes)
    (found : shapes name = some shape)
    (stands : world.iterators iterator = shape.iterator position)
    (follows : method = (world.iterators iterator).follow link)
    (linked : view link world.nodes (place shape.head (addresses shape.entries) position) =
      some (some (place shape.head (addresses shape.entries) next)))
    (within : next ≤ shape.entries.length) :
    Runs (World.onMemory method >>= World.steer iterator) world
      (fun _ moved => Models moved (sequences.steer iterator (some (.within name next))))
      (fun _ _ => False) := by
  obtain ⟨node, live, linkEq⟩ := Option.map_eq_some_iff.mp linked
  rw [follows, stands, Shape.iterator, runs_bind, World.onMemory, runs_onPart, ListIterator.follow,
    runs_bind, runs_read live, linkEq, runs_pure, runs_steer]
  refine ⟨shapes, sound.steer ?_⟩
  rintro _ ⟨⟩
  exact ⟨shape, found, within, rfl⟩

/-- An iterator that is bound to no list stays where it is. -/
theorem follow_unbound_spec {link : ListContainerNode V → Option Addr}
    {method : Method V ListIterator} (sound : Sound world sequences shapes)
    (stands : world.iterators iterator = ⟨none, none⟩)
    (follows : method = (world.iterators iterator).follow link) :
    Runs (World.onMemory method >>= World.steer iterator) world
      (fun _ moved => Models moved sequences) (fun _ _ => False) := by
  rw [follows, runs_bind, World.onMemory, runs_onPart, stands, ListIterator.follow, runs_pure,
    runs_steer, ← stands]
  exact ⟨shapes, sound.congr rfl rfl (Function.update_eq_self ..)⟩

/-- An iterator that has moved is assigned. -/
theorem moved_correct {command : Command V} {method : Method V ListIterator}
    {observation : Observation V} (effect : command.effect environment sequences =
      some (.ok observation, later))
    (runs : Runs (World.onMemory method >>= World.steer iterator) world
      (fun _ moved => Models moved later) (fun _ _ => False)) :
    Runs (World.onMemory method >>= fun moved => World.steer iterator moved >>= fun _ =>
        pure observation) world
      (fun observation => Conforms environment command sequences (.ok observation))
      (fun fault => Conforms environment command sequences (.error fault)) := by
  rw [← bind_assoc, runs_bind]
  apply runs.mono
  · intro _ next models
    exact .effect effect models
  · exact fun _ _ => False.elim

theorem increment_correct (sound : Sound world sequences shapes)
    (effect : (Command.increment iterator).effect environment sequences = some (outcome, later)) :
    Correct environment (.increment iterator) sequences world := by
  have unfolded := effect
  simp only [Command.effect, Option.bind_eq_bind, Option.bind_eq_some_iff] at unfolded
  obtain ⟨_ | ⟨name, position⟩, here, ended⟩ := unfolded
  · cases ended
    rw [Correct, Command.run, runs_bind, runs_get]
    exact moved_correct effect (follow_unbound_spec sound (sound.cursors here) rfl)
  · obtain ⟨values, stored, ended⟩ := Option.bind_eq_some_iff.mp ended
    cases ended
    obtain ⟨head, entries, found, rfl⟩ := sound.shaped stored
    obtain ⟨shape, present, within, stands⟩ := sound.cursors here
    rw [found] at present
    cases present
    obtain ⟨list, listed, holds⟩ := sound.laid.holds found
    rw [List.length_map] at effect
    rw [Correct, Command.run, runs_bind, runs_get]
    apply moved_correct effect
    apply follow_spec sound found stands rfl (holds.next_place within)
    split
    · assumption
    · exact Nat.zero_le _

theorem decrement_correct (sound : Sound world sequences shapes)
    (effect : (Command.decrement iterator).effect environment sequences = some (outcome, later)) :
    Correct environment (.decrement iterator) sequences world := by
  have unfolded := effect
  simp only [Command.effect, Option.bind_eq_bind, Option.bind_eq_some_iff] at unfolded
  obtain ⟨_ | ⟨name, position⟩, here, ended⟩ := unfolded
  · cases ended
    rw [Correct, Command.run, runs_bind, runs_get]
    exact moved_correct effect (follow_unbound_spec sound (sound.cursors here) rfl)
  · obtain ⟨values, stored, ended⟩ := Option.bind_eq_some_iff.mp ended
    cases ended
    obtain ⟨head, entries, found, rfl⟩ := sound.shaped stored
    obtain ⟨shape, present, within, stands⟩ := sound.cursors here
    rw [found] at present
    cases present
    obtain ⟨list, listed, holds⟩ := sound.laid.holds found
    rw [List.length_map] at effect
    rw [Correct, Command.run, runs_bind, runs_get]
    apply moved_correct effect
    apply follow_spec sound found stands rfl (holds.prev_place within)
    split
    · exact Nat.le_refl _
    · exact Nat.le_trans (Nat.sub_le ..) within

/-- Iterators at different places are different. -/
theorem Sound.cursors_inj (sound : Sound world sequences shapes) {cursor another : Cursor}
    (here : sequences.cursors iterator = some cursor)
    (there : sequences.cursors other = some another) :
    world.iterators iterator = world.iterators other ↔ cursor = another := by
  have left := sound.cursors here
  have right := sound.cursors there
  cases cursor with
  | unbound =>
      cases another with
      | unbound => simp [left.trans right.symm]
      | within owner position =>
          obtain ⟨shape, -, -, stands⟩ := right
          simp [left.trans rfl, stands, Shape.iterator]
  | within name place =>
      obtain ⟨shape, found, within, stands⟩ := left
      cases another with
      | unbound => simp [right.trans rfl, stands, Shape.iterator]
      | within owner position =>
          obtain ⟨otherShape, otherFound, otherWithin, otherStands⟩ := right
          rw [stands, otherStands, Cursor.within.injEq]
          by_cases same : name = owner
          · subst same
            rw [found] at otherFound
            cases otherFound
            obtain ⟨list, -, holds⟩ := sound.laid.holds found
            rw [← addresses_length] at within otherWithin
            simp [Shape.iterator, place_inj holds.distinct within otherWithin]
          · have heads := sound.laid.heads_ne same found otherFound
            simp [Shape.iterator, heads, same]

theorem same_correct (sound : Sound world sequences shapes)
    (effect : (Command.same iterator other).effect environment sequences = some (outcome, later)) :
    Correct environment (.same iterator other) sequences world := by
  have unfolded := effect
  simp only [Command.effect, Option.bind_eq_bind, Option.bind_eq_some_iff] at unfolded
  obtain ⟨cursor, here, another, there, ended⟩ := unfolded
  cases ended
  rw [Correct, Command.run, runs_bind, runs_get, runs_pure]
  simp only [sound.cursors_inj here there]
  exact .effect effect ⟨shapes, sound⟩

theorem element_correct (sound : Sound world sequences shapes)
    (effect : (Command.element iterator).effect environment sequences = some (outcome, later)) :
    Correct environment (.element iterator) sequences world := by
  have unfolded := effect
  simp only [Command.effect, Option.bind_eq_bind, Option.bind_eq_some_iff] at unfolded
  obtain ⟨value, passed, ended⟩ := unfolded
  cases ended
  obtain ⟨reference, refers, -, runs⟩ := sound.resolve passed
  rw [Correct, Command.run, runs_bind, runs, runs_bind, World.onMemory, runs_onPart,
    runs_take refers, Passing.remains, depart_id, runs_pure]
  exact .effect effect ⟨shapes, sound⟩

end Iterators

/-- Every command does to the lists what it does to the sequences. -/
theorem Command.correct {world : World V} {sequences later : Sequences V}
    {outcome : Except Fault (Observation V)} (command : Command V)
    (models : Models world sequences)
    (effect : command.effect environment sequences = some (outcome, later)) :
    Correct environment command sequences world := by
  obtain ⟨shapes, sound⟩ := models
  cases command with
  | construct name => exact construct_correct sound effect
  | constructValues name values => exact constructValues_correct sound effect
  | copyConstruct name source => exact copyConstruct_correct sound effect
  | moveConstruct name source => exact moveConstruct_correct sound effect
  | destruct name => exact destruct_correct sound effect
  | copyAssign name source => exact copyAssign_correct sound effect
  | moveAssign name source => exact moveAssign_correct sound effect
  | assignValues name values => exact assignValues_correct sound effect
  | swap name other => exact swap_correct sound effect
  | pushBack name passing argument => exact pushBack_correct sound effect
  | pushFront name passing argument => exact pushFront_correct sound effect
  | popBack name => exact popBack_correct sound effect
  | popFront name target => exact popFront_correct sound effect
  | insert name position passing argument target => exact insert_correct sound effect
  | erase name position target => exact erase_correct sound effect
  | resize name newContainerSize argument => exact resize_correct sound effect
  | clear name => exact clear_correct sound effect
  | append name source => exact append_correct sound effect
  | size name => exact size_correct sound effect
  | empty name => exact empty_correct sound effect
  | front name => exact front_correct sound effect
  | back name => exact back_correct sound effect
  | beginIterator name target => exact beginIterator_correct sound effect
  | endIterator name target => exact endIterator_correct sound effect
  | assignIterator iterator target => exact assignIterator_correct sound effect
  | increment iterator => exact increment_correct sound effect
  | decrement iterator => exact decrement_correct sound effect
  | same iterator other => exact same_correct sound effect
  | element iterator => exact element_correct sound effect

section Clients

/-- A program that uses lists: what it calls next depends on what the calls so far have yielded
or raised. -/
inductive Client (V : Type) where
  | finish
  | call (command : Command V) (next : Except Fault (Observation V) → Client V)

namespace Client

/-- Commands one after the other, until one raises. -/
def perform : List (Command V) → Client V
  | [] => .finish
  | command :: commands => .call command fun
      | .ok _ => perform commands
      | .error _ => .finish

/-- Run a program; there is nothing if it gets stuck. -/
def execute (environment : Environment V) : Client V → World V →
    Option (List (Except Fault (Observation V)) × World V)
  | .finish, world => some ([], world)
  | .call command next, world => do
      let (outcome, world) ← (command.run environment).run.run world
      let (outcomes, world) ← (next outcome).execute environment world
      return (outcome :: outcomes, world)

/-- The program keeps to the preconditions, however its calls end. -/
def Permitted (environment : Environment V) : Client V → Sequences V → Prop
  | .finish, _ => True
  | .call command next, sequences =>
      (command.effect environment sequences).isSome ∧ ∀ outcome later,
        command.Ends environment sequences outcome later →
        (next outcome).Permitted environment later

/-- What the program does to the sequences. -/
inductive Behaves (environment : Environment V) : Client V → Sequences V →
    List (Except Fault (Observation V)) → Sequences V → Prop where
  | finish {sequences} : Behaves environment .finish sequences [] sequences
  | call {command next sequences outcome later outcomes last} :
      command.Ends environment sequences outcome later →
      Behaves environment (next outcome) later outcomes last →
      Behaves environment (.call command next) sequences (outcome :: outcomes) last

/-- Only what comes after a command that returns has preconditions. -/
theorem permitted_cons {command : Command V} {commands : List (Command V)}
    {sequences later : Sequences V} {observation : Observation V}
    (effect : command.effect environment sequences = some (.ok observation, later))
    (continues : (perform commands).Permitted environment later) :
    (perform (command :: commands)).Permitted environment sequences := by
  refine ⟨by rw [effect]; rfl, ?_⟩
  intro outcome after ends
  cases ends with
  | effect ended =>
      rw [effect] at ended
      cases ended
      exact continues
  | raised => trivial

theorem execute_correct (client : Client V) {world : World V} {sequences : Sequences V}
    (models : Models world sequences) (permitted : client.Permitted environment sequences) :
    ∃ outcomes final last, client.execute environment world = some (outcomes, final) ∧
      client.Behaves environment sequences outcomes last ∧ Models final last := by
  induction client generalizing world sequences with
  | finish => exact ⟨[], world, sequences, rfl, .finish, models⟩
  | call command next ih =>
      obtain ⟨defined, continues⟩ := permitted
      obtain ⟨⟨outcome, later⟩, effect⟩ := Option.isSome_iff_exists.mp defined
      have step : ∀ {outcome : Except Fault (Observation V)} {moved : World V},
          (command.run environment).run.run world = some (outcome, moved) →
          Conforms environment command sequences outcome moved →
          ∃ outcomes final last,
            (Client.call command next).execute environment world = some (outcomes, final) ∧
              (Client.call command next).Behaves environment sequences outcomes last ∧
              Models final last := by
        rintro outcome moved ran ⟨after, ends, modelsAfter⟩
        obtain ⟨outcomes, final, last, executed, behaves, modelsFinal⟩ :=
          ih outcome modelsAfter (continues outcome after ends)
        refine ⟨outcome :: outcomes, final, last, ?_, .call ends behaves, modelsFinal⟩
        simp [execute, ran, executed]
      rcases (command.correct models effect).outcome with
        ⟨observation, moved, ran, conforms⟩ | ⟨fault, moved, ran, conforms⟩
      · exact step ran conforms
      · exact step ran conforms

end Client

/-- Without lists there are no nodes. -/
theorem Laid.nodes_none {nodes : Nodes V} {lists : Nat → Option ListContainer} {shapes : Shapes V}
    (laid : Laid nodes lists shapes) (gone : ∀ name, shapes name = none) (address : Addr) :
    nodes address = none := by
  by_contra live
  obtain ⟨node, found⟩ := Option.ne_none_iff_exists'.mp live
  obtain ⟨name, shape, present, -⟩ := laid.owned found
  rw [gone name] at present
  cases present

/-- A program that keeps to the preconditions runs to its end and does to its lists what it does
to sequences: the nodes of each list are a ring with its values, iterators stay with their
elements, and nothing is left when all lists are gone. -/
theorem lists_refine_sequences (environment : Environment V) (client : Client V)
    (permitted : client.Permitted environment Sequences.empty) :
    ∃ outcomes world sequences shapes,
      client.execute environment World.empty = some (outcomes, world) ∧
      client.Behaves environment Sequences.empty outcomes sequences ∧
      Sound world sequences shapes ∧
      ((∀ name, sequences.contents name = none) → ∀ address, world.nodes address = none) := by
  obtain ⟨outcomes, world, sequences, executed, behaves, shapes, sound⟩ :=
    client.execute_correct ⟨_, Sound.empty⟩ permitted
  refine ⟨outcomes, world, sequences, shapes, executed, behaves, sound, ?_⟩
  intro gone
  exact sound.laid.nodes_none fun name => sound.absent (gone name)

/-- Memory that is given out once. -/
def onceOnly : Environment Nat where
  moved _ := 0
  place requests nodes :=
    if requests < 100 ∧ (nodes requests).isNone then some requests else none
  dead := by
    intro requests nodes address placed
    split at placed
    next granted =>
      cases placed
      exact Option.isNone_iff_eq_none.mp granted.2
    next => cases placed
  bounded := by
    intro requests nodes address placed
    split at placed
    next granted =>
      cases placed
      exact Nat.lt_trans granted.1 (by decide)
    next => cases placed

theorem lists_refine_sequences_move :
    ∃ outcomes world sequences shapes,
      (Client.perform [.construct 0, .pushBack 0 .move (.object 7), .beginIterator 0 1,
        .moveConstruct 2 0, .insert 2 1 .copy (.target 1) 3]).execute onceOnly World.empty =
          some (outcomes, world) ∧
      (Client.perform [.construct 0, .pushBack 0 .move (.object 7), .beginIterator 0 1,
        .moveConstruct 2 0, .insert 2 1 .copy (.target 1) 3]).Behaves onceOnly Sequences.empty
          outcomes sequences ∧
      Sound world sequences shapes ∧
      ((∀ name, sequences.contents name = none) → ∀ address, world.nodes address = none) := by
  apply lists_refine_sequences onceOnly
  iterate 5 refine Client.permitted_cons rfl ?_
  trivial

end Clients

end Wan.Container.ListContainer
