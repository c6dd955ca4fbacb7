import Wan.Container.ListContainer.Ownership

/-!
# Commands at the elements of a list

Every change of the elements replaces a part of one list.  An element that is passed by
reference may belong to the same list or to another one.
-/

namespace Wan.Container.ListContainer

open Wan.Library Wan.Library.LinkedList Wan.Library.Program

variable {V : Type} {environment : Environment V}

section Insertion

variable {world : World V} {sequences : Sequences V} {shapes : Shapes V} {name : Nat}
variable {remains : V → V} {nodes : Nodes V} {reference : Reference V} {argument : Argument V}
variable {head new : Addr} {entries earlier later : List (Entry V)} {state : State V} {value : V}
variable {list : ListContainer}

@[simp] theorem departed_nil : departed remains ([] : List (Entry V)) reference = [] := by
  cases reference <;> rfl

theorem depart_rest : depart remains (rest nodes head entries) reference =
    rest (depart remains nodes reference) head (departed remains entries reference) := by
  funext address
  by_cases member : address ∈ head :: addresses entries
  · rw [depart_none (rest_of_mem member), rest_of_mem]
    rwa [addresses_departed]
  · rw [depart_congr (rest_of_not_mem member), rest_of_not_mem]
    rwa [addresses_departed]

/-- A new element has been linked between two parts of a list. -/
theorem Sound.inserted
    (departed : Sound { world with nodes := depart remains world.nodes reference }
      (sequences.depart remains argument) (shapes.depart remains reference))
    (earlier later : List (Entry V)) (found : shapes name = some ⟨head, earlier ++ later⟩)
    (valid : Valid (depart remains (rest world.nodes head (earlier ++ later)) reference) state head
      (ListContainer.departed remains earlier reference ++
        (new, value) :: ListContainer.departed remains later reference)) :
    Sound (world.after name state)
      ((sequences.depart remains argument).splice name earlier.length 0 [value])
      (Function.update (shapes.depart remains reference) name
        (some ⟨head, ListContainer.departed remains earlier reference ++
          (new, value) :: ListContainer.departed remains later reference⟩)) := by
  have shaped : shapes.depart remains reference name =
      some ⟨head, ListContainer.departed remains earlier reference ++ [] ++
        ListContainer.departed remains later reference⟩ := by
    rw [Shapes.depart, found, List.append_nil, ← departed_append]
    rfl
  have linked : Valid
      (rest (depart remains world.nodes reference) head
        (ListContainer.departed remains earlier reference ++ [] ++
          ListContainer.departed remains later reference))
      state head
      (ListContainer.departed remains earlier reference ++ [(new, value)] ++
        ListContainer.departed remains later reference) := by
    rw [depart_rest, departed_append] at valid
    simpa using valid
  have spliced := departed.splice _ _ _ _ shaped linked
  rw [departed_length, List.append_assoc, List.singleton_append] at spliced
  exact spliced

/-- Where an iterator at a position points to. -/
theorem Shape.iterator_split (head : Addr) {position : Nat} (within : position ≤ entries.length) :
    ∃ earlier later, entries = earlier ++ later ∧ earlier.length = position ∧
      Shape.iterator ⟨head, entries⟩ position =
        ⟨some (successor head (addresses later)), some head⟩ := by
  refine ⟨entries.take position, entries.drop position, (List.take_append_drop ..).symm,
    List.length_take_of_le within, ?_⟩
  rw [Shape.iterator, place, addresses, addresses, List.map_drop]

/-- The iterator behind the earlier elements. -/
theorem Shape.iterator_append : Shape.iterator ⟨head, earlier ++ later⟩ earlier.length =
    ⟨some (successor head (addresses later)), some head⟩ := by
  rw [Shape.iterator, place_entries_of_le (Nat.le_refl _), Nat.sub_self, place_zero]

theorem Laid.heads_ne {lists : Nat → Option ListContainer} (laid : Laid nodes lists shapes)
    {owner : Nat} {shape another : Shape V} (differ : owner ≠ name) (left : shapes owner = some shape)
    (right : shapes name = some another) : shape.head ≠ another.head := by
  intro same
  apply laid.apart differ left right shape.head List.mem_cons_self
  rw [same]
  exact List.mem_cons_self

end Insertion

section Elements

variable {world : World V} {sequences later : Sequences V} {shapes : Shapes V} {name source : Nat}
variable {outcome : Except Fault (Observation V)} {values : List V} {passing : Passing}
variable {argument : Argument V} {position target : Nat} {newContainerSize : UInt64}

theorem assignValues_correct (sound : Sound world sequences shapes)
    (effect : (Command.assignValues name values).effect environment sequences =
      some (outcome, later)) :
    Correct environment (.assignValues name values) sequences world := by
  have unfolded := effect
  simp only [Command.effect, Option.bind_eq_bind, Option.bind_eq_some_iff] at unfolded
  obtain ⟨old, stored, ended⟩ := unfolded
  cases ended
  obtain ⟨head, entries, found, rfl⟩ := sound.shaped stored
  obtain ⟨list, listed, valid⟩ := sound.listed found
  rw [List.length_map] at effect
  apply correct_of_runs effect
  rw [runs_call listed]
  apply (assignValues_spec valid).mono
  · intro _ next grown
    obtain ⟨added, replaced⟩ := sound.grown [] entries found grown
    exact ⟨_, replaced⟩
  · rintro fault next ⟨raised, ⟨count, fewer, grown⟩, refused⟩
    obtain ⟨added, replaced⟩ := sound.grown [] entries found grown
    exact ⟨raised, ⟨count, _, by simp [Command.interrupted, stored, fewer], _, replaced⟩, refused⟩

theorem pushBack_correct (sound : Sound world sequences shapes)
    (effect : (Command.pushBack name passing argument).effect environment sequences =
      some (outcome, later)) :
    Correct environment (.pushBack name passing argument) sequences world := by
  have unfolded := effect
  simp only [Command.effect, Option.bind_eq_bind, Option.bind_eq_some_iff] at unfolded
  obtain ⟨values, stored, value, passed, ended⟩ := unfolded
  cases ended
  obtain ⟨head, entries, found, rfl⟩ := sound.shaped stored
  obtain ⟨list, listed, valid⟩ := sound.listed found
  obtain ⟨reference, refers, departs, runs⟩ := sound.resolve passed
  rw [Correct, Command.run, runs_bind, runs]
  rw [List.length_map] at effect
  apply correct_of_runs effect
  rw [runs_call listed]
  apply (pushBack_spec valid refers).mono
  · rintro _ next ⟨new, linked⟩
    have inserted := (departs (passing.remains environment)).inserted entries [] (by rwa [List.append_nil])
      (by simpa using linked)
    exact ⟨_, inserted⟩
  · rintro fault next ⟨raised, quiet, refused⟩
    exact ⟨raised, ⟨0, sequences, rfl, shapes, sound.quiet listed quiet⟩, refused⟩

theorem pushFront_correct (sound : Sound world sequences shapes)
    (effect : (Command.pushFront name passing argument).effect environment sequences =
      some (outcome, later)) :
    Correct environment (.pushFront name passing argument) sequences world := by
  have unfolded := effect
  simp only [Command.effect, Option.bind_eq_bind, Option.bind_eq_some_iff] at unfolded
  obtain ⟨values, stored, value, passed, ended⟩ := unfolded
  cases ended
  obtain ⟨head, entries, found, rfl⟩ := sound.shaped stored
  obtain ⟨list, listed, valid⟩ := sound.listed found
  obtain ⟨reference, refers, departs, runs⟩ := sound.resolve passed
  rw [Correct, Command.run, runs_bind, runs]
  apply correct_of_runs effect
  rw [runs_call listed]
  apply (pushFront_spec valid refers).mono
  · rintro _ next ⟨new, linked⟩
    have inserted := (departs (passing.remains environment)).inserted [] entries found
      (by simpa using linked)
    exact ⟨_, inserted⟩
  · rintro fault next ⟨raised, quiet, refused⟩
    exact ⟨raised, ⟨0, sequences, rfl, shapes, sound.quiet listed quiet⟩, refused⟩

/-- An iterator of another list, or of none, is not at home in a list. -/
theorem Sound.foreign (sound : Sound world sequences shapes) {list : ListContainer} {cursor : Cursor}
    (here : sequences.cursors position = some cursor) {head : Addr} {entries : List (Entry V)}
    (found : shapes name = some ⟨head, entries⟩) (listed : list.memberHead = some head)
    (elsewhere : ∀ place, cursor ≠ .within name place) :
    (world.iterators position).memberNode = none ∨
      (world.iterators position).memberOwner ≠ list.memberHead := by
  have stands := sound.cursors here
  cases cursor with
  | unbound =>
      rw [stands]
      exact .inl rfl
  | within owner place =>
      obtain ⟨shape, present, -, iteratorEq⟩ := stands
      have differ : owner ≠ name := by
        rintro rfl
        exact elsewhere place rfl
      right
      rw [iteratorEq, listed]
      intro same
      exact sound.laid.heads_ne differ present found (Option.some.inj same)

theorem insert_correct (sound : Sound world sequences shapes)
    (effect : (Command.insert name position passing argument target).effect environment sequences =
      some (outcome, later)) :
    Correct environment (.insert name position passing argument target) sequences world := by
  have unfolded := effect
  simp only [Command.effect, Option.bind_eq_bind, Option.bind_eq_some_iff] at unfolded
  obtain ⟨values, stored, value, passed, cursor, here, ended⟩ := unfolded
  obtain ⟨head, entries, found, rfl⟩ := sound.shaped stored
  obtain ⟨list, listed, valid⟩ := sound.listed found
  obtain ⟨reference, refers, departs, runs⟩ := sound.resolve passed
  rw [Correct, Command.run, runs_bind, runs, runs_bind, runs_get, runs_bind,
    runs_call listed]
  by_cases own : ∃ place, cursor = .within name place
  · obtain ⟨place, rfl⟩ := own
    simp only [if_pos] at ended
    cases ended
    obtain ⟨shape, present, within, iteratorEq⟩ := sound.cursors here
    rw [found] at present
    cases present
    obtain ⟨earlier, later, rfl, rfl, split⟩ := Shape.iterator_split head within
    rw [iteratorEq, split]
    apply (insert_spec valid refers).mono
    · rintro _ next ⟨new, rfl, linked⟩
      rw [runs_bind, runs_steer, runs_pure]
      have inserted := (departs (passing.remains environment)).inserted earlier later found linked
      refine .effect effect ⟨_, inserted.steer ?_⟩
      rintro _ ⟨⟩
      refine ⟨_, Function.update_self .., ?_, ?_⟩
      · rw [List.length_append, departed_length]
        exact Nat.le_add_right ..
      · have same : (departed (passing.remains environment) earlier reference).length =
            earlier.length := departed_length
        rw [← same,
          Shape.iterator_append, addresses_cons, successor_cons]
    · rintro fault next ⟨raised, quiet, refused⟩
      exact .raised effect raised 0 rfl refused ⟨shapes, sound.quiet listed quiet⟩
  · have elsewhere : ∀ place, cursor ≠ .within name place := fun place same => own ⟨place, same⟩
    have refused : outcome = .error (.invalidArgument
        "list insertion iterator does not belong to this list") ∧ later = sequences := by
      cases cursor with
      | unbound => cases ended; exact ⟨rfl, rfl⟩
      | within owner place =>
          have differ : ¬owner = name := fun same => elsewhere place (by rw [same])
          simp only [if_neg differ] at ended
          cases ended
          exact ⟨rfl, rfl⟩
    obtain ⟨rfl, rfl⟩ := refused
    apply (insert_rejects (sound.foreign here found valid.holds.head_eq elsewhere)).mono
    · exact fun _ _ => False.elim
    · rintro fault next ⟨rfl, rfl⟩
      exact .effect effect ⟨shapes, sound.quiet listed (.refl _)⟩

theorem erase_correct (sound : Sound world sequences shapes)
    (effect : (Command.erase name position target).effect environment sequences =
      some (outcome, later)) :
    Correct environment (.erase name position target) sequences world := by
  have unfolded := effect
  simp only [Command.effect, Option.bind_eq_bind, Option.bind_eq_some_iff] at unfolded
  obtain ⟨values, stored, cursor, here, ended⟩ := unfolded
  obtain ⟨head, entries, found, rfl⟩ := sound.shaped stored
  obtain ⟨list, listed, valid⟩ := sound.listed found
  rw [Correct, Command.run, runs_bind, runs_get, runs_bind, runs_call listed]
  by_cases own : ∃ place, cursor = .within name place
  · obtain ⟨place, rfl⟩ := own
    obtain ⟨shape, present, within, iteratorEq⟩ := sound.cursors here
    rw [found] at present
    cases present
    simp only [ne_eq, not_true_eq_false, if_false, List.length_map] at ended
    obtain ⟨earlier, rest, rfl, rfl, split⟩ := Shape.iterator_split head within
    rw [iteratorEq, split]
    rcases rest with _ | ⟨⟨address, value⟩, rest⟩
    · -- The end of the list.
      rw [if_pos (by simp)] at ended
      cases ended
      apply (erase_end_spec valid).mono
      · rintro _ next ⟨rfl, rfl⟩
        rw [runs_bind, runs_steer, runs_pure]
        refine .effect effect ⟨shapes, (sound.quiet listed (.refl _)).steer ?_⟩
        rintro _ ⟨⟩
        exact ⟨_, found, by simp, by rw [Shape.iterator_append, addresses_nil, successor_nil]⟩
      · exact fun _ _ => id
    · rw [if_neg (by simp)] at ended
      cases ended
      rw [addresses_cons, successor_cons]
      apply (erase_spec valid).mono
      · rintro _ next ⟨rfl, validNext⟩
        rw [runs_bind, runs_steer, runs_pure]
        have part : shapes name = some ⟨head, earlier ++ [(address, value)] ++ rest⟩ := by
          rw [found, List.append_assoc, List.singleton_append]
        have unlinked := sound.splice earlier [(address, value)] [] rest part (by simpa using validNext)
        refine .effect effect ⟨_, unlinked.steer ?_⟩
        rintro _ ⟨⟩
        refine ⟨_, Function.update_self .., ?_, ?_⟩
        · simp
        · rw [List.append_nil, Shape.iterator_append]
      · exact fun _ _ => id
  · have elsewhere : ∀ place, cursor ≠ .within name place := fun place same => own ⟨place, same⟩
    have refused : outcome = .error (.invalidArgument
        "list erase iterator does not belong to this list") ∧ later = sequences := by
      cases cursor with
      | unbound => cases ended; exact ⟨rfl, rfl⟩
      | within owner place =>
          have differ : owner ≠ name := fun same => elsewhere place (by rw [same])
          simp only [if_pos differ] at ended
          cases ended
          exact ⟨rfl, rfl⟩
    obtain ⟨rfl, rfl⟩ := refused
    apply (erase_rejects (sound.foreign here found valid.holds.head_eq elsewhere)).mono
    · exact fun _ _ => False.elim
    · rintro fault next ⟨rfl, rfl⟩
      exact .effect effect ⟨shapes, sound.quiet listed (.refl _)⟩

theorem popBack_correct (sound : Sound world sequences shapes)
    (effect : (Command.popBack name).effect environment sequences = some (outcome, later)) :
    Correct environment (.popBack name) sequences world := by
  have unfolded := effect
  simp only [Command.effect, Option.bind_eq_bind, Option.bind_eq_some_iff] at unfolded
  obtain ⟨values, stored, ended⟩ := unfolded
  cases ended
  obtain ⟨head, entries, found, rfl⟩ := sound.shaped stored
  obtain ⟨list, listed, valid⟩ := sound.listed found
  apply correct_of_runs effect
  rw [runs_call listed]
  apply (popBack_spec valid).mono
  · intro _ next validNext
    have split := List.take_append_drop (entries.length - 1) entries
    rw [List.dropLast_eq_take] at validNext
    have shortened := sound.grown (entries.take (entries.length - 1))
      (entries.drop (entries.length - 1)) (by rwa [split])
      (.nil (by simpa only [split] using validNext))
    have dropped : entries.length - (entries.length - 1) = min 1 entries.length := by omega
    rw [List.length_take_of_le (Nat.sub_le ..), List.length_drop, dropped] at shortened
    rw [List.length_map]
    obtain ⟨_, models⟩ := shortened
    exact ⟨_, models⟩
  · exact fun _ _ => id

theorem popFront_correct (sound : Sound world sequences shapes)
    (effect : (Command.popFront name target).effect environment sequences = some (outcome, later)) :
    Correct environment (.popFront name target) sequences world := by
  have unfolded := effect
  simp only [Command.effect, Option.bind_eq_bind, Option.bind_eq_some_iff] at unfolded
  obtain ⟨values, stored, ended⟩ := unfolded
  cases ended
  obtain ⟨head, entries, found, rfl⟩ := sound.shaped stored
  obtain ⟨list, listed, valid⟩ := sound.listed found
  rw [Correct, Command.run, runs_bind, runs_call listed]
  apply (popFront_spec valid).mono
  · rintro _ next ⟨validNext, rfl⟩
    rw [runs_bind, runs_steer, runs_pure]
    have split : [] ++ entries.take 1 ++ entries.tail = entries := by
      rw [List.nil_append, ← List.drop_one, List.take_append_drop]
    have shortened := sound.splice [] (entries.take 1) [] entries.tail (by rwa [split])
      (by rwa [split])
    rw [List.length_take] at shortened
    rw [List.length_map] at effect
    refine .effect effect ⟨_, shortened.steer ?_⟩
    rintro _ ⟨⟩
    exact ⟨_, Function.update_self .., Nat.zero_le _, rfl⟩
  · exact fun _ _ => id

theorem resize_correct (sound : Sound world sequences shapes)
    (effect : (Command.resize name newContainerSize argument).effect environment sequences =
      some (outcome, later)) :
    Correct environment (.resize name newContainerSize argument) sequences world := by
  have unfolded := effect
  simp only [Command.effect, Option.bind_eq_bind, Option.bind_eq_some_iff] at unfolded
  obtain ⟨values, stored, value, passed, ended⟩ := unfolded
  cases ended
  obtain ⟨head, entries, found, rfl⟩ := sound.shaped stored
  obtain ⟨list, listed, valid⟩ := sound.listed found
  obtain ⟨reference, refers, -, runs⟩ := sound.resolve passed
  rw [Correct, Command.run, runs_bind, runs]
  rw [List.length_map] at effect
  apply correct_of_runs effect
  rw [runs_call listed]
  apply (resize_spec newContainerSize valid refers).mono
  · intro _ next grown
    have split := List.take_append_drop newContainerSize.toNat entries
    obtain ⟨_, resized⟩ := sound.grown (entries.take newContainerSize.toNat)
      (entries.drop newContainerSize.toNat) (by rwa [split])
      (by simpa only [split] using grown)
    rw [List.length_take, List.length_drop] at resized
    exact ⟨_, resized⟩
  · rintro fault next ⟨raised, ⟨count, fewer, grown⟩, refused⟩
    obtain ⟨_, stopped⟩ := sound.grown entries [] (by rwa [List.append_nil]) (by simpa only [List.append_nil] using grown)
    refine ⟨raised, ⟨count, _, ?_, _, stopped⟩, refused⟩
    rw [List.length_replicate] at fewer
    simp [Command.interrupted, stored, passed, fewer]

theorem clear_correct (sound : Sound world sequences shapes)
    (effect : (Command.clear name).effect environment sequences = some (outcome, later)) :
    Correct environment (.clear name) sequences world := by
  have unfolded := effect
  simp only [Command.effect, Option.bind_eq_bind, Option.bind_eq_some_iff] at unfolded
  obtain ⟨values, stored, ended⟩ := unfolded
  cases ended
  obtain ⟨head, entries, found, rfl⟩ := sound.shaped stored
  obtain ⟨list, listed, valid⟩ := sound.listed found
  rw [List.length_map] at effect
  apply correct_of_runs effect
  rw [runs_call listed]
  apply (clear_spec valid).mono
  · rintro _ next ⟨cleared, -⟩
    obtain ⟨_, emptied⟩ := sound.grown [] entries found (.nil cleared)
    exact ⟨_, emptied⟩
  · exact fun _ _ => id

theorem append_correct (sound : Sound world sequences shapes)
    (effect : (Command.append name source).effect environment sequences = some (outcome, later)) :
    Correct environment (.append name source) sequences world := by
  have unfolded := effect
  simp only [Command.effect, Option.bind_eq_bind, Option.bind_eq_some_iff] at unfolded
  obtain ⟨values, stored, added, sourceStored, ended⟩ := unfolded
  cases ended
  obtain ⟨head, entries, found, rfl⟩ := sound.shaped stored
  obtain ⟨otherHead, others, sourceFound, rfl⟩ := sound.shaped sourceStored
  obtain ⟨list, listed, valid⟩ := sound.listed found
  obtain ⟨sourceList, sourceListed, -⟩ := sound.laid.holds sourceFound
  have extended : ∀ {next : State V} {values : List V},
      Grown (rest world.nodes head entries) next head entries values →
      Models (world.after name next)
        (sequences.splice name (entries.map Prod.snd).length 0 values) := by
    intro next values grown
    obtain ⟨_, models⟩ := sound.grown entries [] (by rwa [List.append_nil]) (by simpa only [List.append_nil] using grown)
    rw [List.length_map]
    exact ⟨_, models⟩
  rw [Correct, Command.run, runs_bind, runs_named sourceListed]
  by_cases same : name = source
  · subst same
    rw [found] at sourceFound
    cases sourceFound
    rw [if_pos rfl]
    apply correct_of_runs effect
    rw [runs_call listed]
    apply (appendSelf_spec valid).mono
    · exact fun _ _ => extended
    · have spare : (Command.append name name).spare sequences = entries.length + 1 := by
        simp [Command.spare, stored]
      rintro fault next (⟨raised, quiet, refused⟩ | ⟨raised, ⟨count, fewer, grown⟩, refused⟩)
      · refine ⟨raised, ⟨0, _, ?_, extended (.nil (valid.quiet quiet))⟩, by rwa [spare]⟩
        simp [Command.interrupted, stored]
      · refine ⟨raised, ⟨count, _, ?_, extended grown⟩, by rwa [spare]⟩
        rw [List.length_map] at fewer
        simp [Command.interrupted, stored, fewer]
  · obtain ⟨kept, keptListed, holds⟩ := (sound.laid.drop found).holds
      (update_none_eq_some.mpr ⟨Ne.symm same, sourceFound⟩)
    rw [Function.update_of_ne (Ne.symm same), sourceListed] at keptListed
    cases keptListed
    rw [if_neg same]
    apply correct_of_runs effect
    rw [runs_call listed]
    apply (append_spec valid holds).mono
    · exact fun _ _ => extended
    · rintro fault next ⟨raised, ⟨count, fewer, grown⟩, refused⟩
      refine ⟨raised, ⟨count, _, ?_, extended grown⟩, refused.mono (Nat.zero_le _)⟩
      rw [List.length_map] at fewer
      simp [Command.interrupted, stored, sourceStored, fewer]

end Elements

end Wan.Container.ListContainer
