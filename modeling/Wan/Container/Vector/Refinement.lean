import Wan.Container.Vector.World

/-!
# Vectors refine lists

Every command on vectors does to what they stand for what it does to lists.
-/

namespace Wan.Container.Vector

open Wan.Library Wan.Library.LinkedList Wan.Library.Program

variable {V : Type} (element : Element V)

/-- Every vector stands for its list, no two of them share a block, and no other block is
allocated. -/
structure Refines (world : World V) (lists : Lists V) : Prop where
  named : ∀ name, (world.vectors name).isSome = (lists name).isSome
  stands : ∀ name vector list, world.vectors name = some vector → lists name = some list →
    Represents element world.memory vector list
  apart : ∀ first second vector other block, world.vectors first = some vector →
    world.vectors second = some other → vector.data = some block → other.data = some block →
      first = second
  owned : ∀ block, world.memory.cells block ≠ none →
    ∃ name vector, world.vectors name = some vector ∧ vector.data = some block

/-- No vector loses capacity, but for the exempt ones. -/
def KeepsCapacity (exempt : Nat → Bool) (world later : World V) : Prop :=
  ∀ name vector result, exempt name = false → world.vectors name = some vector →
    later.vectors name = some result → vector.capacity ≤ result.capacity

/-- A command does what it does to the lists. -/
def Simulates (world : World V) (exempt : Nat → Bool) (outcome : Option (World V × Option Failure))
    (expected : Lists V × Option Failure) : Prop :=
  ∃ later, outcome = some (later, expected.2) ∧ Refines element later expected.1 ∧
    KeepsCapacity exempt world later

variable {element} {world : World V} {lists : Lists V} {memory later : Memory V}
variable {name source : Nat} {vector result : Vector} {list new : List V} {exempt : Nat → Bool}
variable {method : Method V Vector}

namespace Refines

variable (refines : Refines element world lists)

theorem start : Refines element (World.empty : World V) fun _ => none :=
  ⟨fun _ => rfl, nofun, nofun, fun _ live => absurd rfl live⟩

include refines

theorem exists_list (there : world.vectors name = some vector) :
    ∃ list, lists name = some list ∧ Represents element world.memory vector list := by
  have named := refines.named name
  rw [there] at named
  rcases Option.isSome_iff_exists.mp named.symm with ⟨list, listed⟩
  exact ⟨list, listed, refines.stands name vector list there listed⟩

theorem eq_none (absent : world.vectors name = none) : lists name = none := by
  have named := refines.named name
  rw [absent] at named
  simpa using named.symm

/-- Only the allocated blocks matter. -/
theorem congr (same : ∀ block, later.cells block = world.memory.cells block) :
    Refines element { world with memory := later } lists where
  named := refines.named
  stands name vector list there listed :=
    (refines.stands name vector list there listed).congr fun block _ => same block
  apart := refines.apart
  owned block live := refines.owned block (same block ▸ live)

/-- A method leaves behind what it yields, in the place of the vector that owned its block. -/
theorem put (held : ∀ block, vector.data = some block → world.vectors name = some vector)
    (fixed : ∀ held, world.vectors name = some held → held = vector)
    (yields : Yields element world.memory vector new result later) :
    Refines element ({ world with memory := later }.put name (some result))
      (Function.update lists name (some new)) := by
  -- The other vectors keep their blocks, and none of these is the new block.
  have others : ∀ other vector' list', other ≠ name → world.vectors other = some vector' →
      Represents element world.memory vector' list' →
        Represents element later vector' list' ∧
          ∀ block, vector'.data = some block → result.data ≠ some block := by
    intro other vector' list' different there represents
    apply yields.keeps represents
    intro block own taken
    exact different
      (refines.apart other name vector' vector block there (held block taken) own taken)
  constructor
  · intro other
    rw [World.put_vectors]
    by_cases same : other = name
    · subst same
      rw [Function.update_self, Function.update_self]
      rfl
    · rw [Function.update_of_ne same, Function.update_of_ne same]
      exact refines.named other
  · intro other vector' list' there listed
    rw [World.put_vectors] at there
    by_cases same : other = name
    · subst same
      rw [Function.update_self] at there listed
      cases there
      cases listed
      exact yields.represents
    · rw [Function.update_of_ne same] at there listed
      exact (others other vector' list' same there
        (refines.stands other vector' list' there listed)).1
  · intro first second vector' other block here there own shared
    rw [World.put_vectors] at here there
    have foreign : ∀ index vector', index ≠ name → world.vectors index = some vector' →
        vector'.data = some block → result.data ≠ some block := by
      intro index vector' different there own
      rcases refines.exists_list there with ⟨list', -, represents⟩
      exact (others index vector' list' different there represents).2 block own
    by_cases same : first = name
    · by_cases same' : second = name
      · rw [same, same']
      · rw [same, Function.update_self] at here
        rw [Function.update_of_ne same'] at there
        cases here
        exact absurd own (foreign second other same' there shared)
    · rw [Function.update_of_ne same] at here
      by_cases same' : second = name
      · rw [same', Function.update_self] at there
        cases there
        exact absurd shared (foreign first vector' same here own)
      · rw [Function.update_of_ne same'] at there
        exact refines.apart first second vector' other block here there own shared
  · intro block live
    rw [World.put_vectors]
    by_cases taken : result.data = some block
    · exact ⟨name, result, Function.update_self .., taken⟩
    · have old : vector.data ≠ some block := fun own => live (yields.released block own taken)
      have before : world.memory.cells block ≠ none := yields.others block old taken ▸ live
      rcases refines.owned block before with ⟨owner, vector', there, own⟩
      refine ⟨owner, vector', ?_, own⟩
      rw [Function.update_of_ne, there]
      rintro rfl
      rw [fixed vector' there] at own
      exact old own

/-- A name gives up a vector without a block. -/
theorem drop (free : ∀ vector, world.vectors name = some vector → vector.data = none) :
    Refines element (world.put name none) (Function.update lists name none) := by
  have kept : ∀ {other vector}, (world.put name none).vectors other = some vector →
      other ≠ name ∧ world.vectors other = some vector := by
    intro other vector there
    rw [World.put_vectors] at there
    by_cases same : other = name
    · rw [same, Function.update_self] at there
      cases there
    · rw [Function.update_of_ne same] at there
      exact ⟨same, there⟩
  constructor
  · intro other
    rw [World.put_vectors]
    by_cases same : other = name
    · rw [same, Function.update_self, Function.update_self]
      rfl
    · rw [Function.update_of_ne same, Function.update_of_ne same]
      exact refines.named other
  · intro other vector list there listed
    rw [Function.update_of_ne (kept there).1] at listed
    exact refines.stands other vector list (kept there).2 listed
  · intro first second vector other block here there
    exact refines.apart first second vector other block (kept here).2 (kept there).2
  · intro block live
    rcases refines.owned block live with ⟨owner, vector, there, own⟩
    refine ⟨owner, vector, ?_, own⟩
    rw [World.put_vectors, Function.update_of_ne, there]
    rintro rfl
    rw [free vector there] at own
    cases own

/-- Two names exchange what they hold. -/
theorem exchange (first second : Nat) :
    Refines element (world.exchange first second) (lists ∘ Equiv.swap first second) where
  named name := refines.named _
  stands name vector list there listed := refines.stands _ vector list there listed
  apart name other vector vector' block here there own shared :=
    (Equiv.swap first second).injective
      (refines.apart _ _ vector vector' block here there own shared)
  owned block live := by
    rcases refines.owned block live with ⟨owner, vector, there, own⟩
    refine ⟨Equiv.swap first second owner, vector, ?_, own⟩
    rw [World.exchange_vectors, Function.comp_apply, Equiv.swap_apply_self, there]

end Refines

section Perform

variable {post : Vector → Memory V → Prop} {what : Failure → Memory V → Prop}

variable (name) in
/-- A method that ends in a value or an exception. -/
theorem exists_perform (runs : Runs method world.memory post what) :
    (∃ result later, world.perform name method =
        some (({ world with memory := later } : World V).put name (some result), none) ∧
          post result later) ∨
      ∃ failure later, world.perform name method =
        some ({ world with memory := later }, some failure) ∧ what failure later := by
  rcases runs.outcome with ⟨result, later, ran, holds⟩ | ⟨failure, later, ran, holds⟩
  · exact .inl ⟨result, later, by rw [World.perform, ran]; rfl, holds⟩
  · exact .inr ⟨failure, later, by rw [World.perform, ran]; rfl, holds⟩

theorem KeepsCapacity.refl : KeepsCapacity exempt world world := by
  intro name vector result _ here there
  cases here.symm.trans there
  exact Nat.le_refl _

/-- A vector that was replaced by one with at least its capacity. -/
theorem KeepsCapacity.put (grown : ∀ held, exempt name = false → world.vectors name = some held →
      held.capacity ≤ result.capacity) :
    KeepsCapacity exempt world
      (({ world with memory := later } : World V).put name (some result)) := by
  intro other vector result' kept here there
  rw [World.put_vectors] at there
  by_cases same : other = name
  · subst same
    rw [Function.update_self] at there
    cases there
    exact grown vector kept here
  · rw [Function.update_of_ne same] at there
    cases here.symm.trans there
    exact Nat.le_refl _

/-- A call that returns, after its argument may have been moved from. -/
theorem Simulates.returns {base : Memory V} {before : Lists V}
    (there : world.vectors name = some vector)
    (based : Refines element { world with memory := base } before)
    (returns : Returns method world.memory (Grows element base vector new)) :
    Simulates element world exempt (world.perform name method)
      (Function.update before name (some new), none) := by
  rcases exists_perform name returns with ⟨result, later, ran, grows⟩ | ⟨_, _, _, ⟨⟩⟩
  refine ⟨_, ran, ?_, .put ?_⟩
  · apply based.put (fun _ _ => there) ?_ grows.toYields
    intro held here
    exact Option.some.inj (here.symm.trans there)
  · intro held _ here
    cases here.symm.trans there
    exact grows.capacity

theorem KeepsCapacity.of_eq {next : World V} (same : ∀ other, exempt other = false →
    next.vectors other = world.vectors other) : KeepsCapacity exempt world next := by
  intro other vector result kept here there
  rw [same other kept] at there
  cases here.symm.trans there
  exact Nat.le_refl _

variable (refines : Refines element world lists)

include refines

/-- A skipped command. -/
theorem Simulates.skip : Simulates element world exempt (some (world, none)) (lists, none) :=
  ⟨world, rfl, refines, .refl⟩

theorem Simulates.throws {failure : Failure} (throws : Runs method world.memory
      (fun _ _ => False) fun thrown later =>
        thrown = failure ∧ ∀ block, later.cells block = world.memory.cells block) :
    Simulates element world exempt (world.perform name method) (lists, some failure) := by
  rcases exists_perform name throws with ⟨_, _, _, ⟨⟩⟩ | ⟨_, later, ran, rfl, same⟩
  exact ⟨_, ran, refines.congr same, .refl⟩

theorem Simulates.refuses {what : String} (refuses : Refuses method world.memory what) :
    Simulates element world exempt (world.perform name method)
      (lists, some (.lengthError what)) := by
  apply Simulates.throws refines (refuses.mono (fun _ _ => id) ?_)
  rintro _ _ ⟨rfl, rfl⟩
  exact ⟨rfl, fun _ => rfl⟩

/-- A call that leaves the list as it is. -/
theorem Simulates.keeps (there : world.vectors name = some vector) (listed : lists name = some list)
    (returns : Returns method world.memory (Grows element world.memory vector list)) :
    Simulates element world exempt (world.perform name method) (lists, none) := by
  have same : Function.update lists name (some list) = lists :=
    Function.update_eq_self_iff.mpr listed.symm
  have simulates : Simulates element world exempt (world.perform name method) _ :=
    Simulates.returns there refines returns
  rwa [same] at simulates

/-- A call that replaces the vector as a whole. -/
theorem Simulates.replaces (exempted : exempt name = true)
    (there : world.vectors name = some vector)
    (returns : Returns method world.memory (Yields element world.memory vector new)) :
    Simulates element world exempt (world.perform name method)
      (Function.update lists name (some new), none) := by
  rcases exists_perform name returns with ⟨result, later, ran, yields⟩ | ⟨_, _, _, ⟨⟩⟩
  refine ⟨_, ran, refines.put (fun _ _ => there) ?_ yields, .put ?_⟩
  · intro held here
    exact Option.some.inj (here.symm.trans there)
  · intro held kept
    rw [exempted] at kept
    cases kept

/-- A constructor. -/
theorem Simulates.creates (absent : world.vectors name = none)
    (returns : Returns method world.memory (Grows element world.memory Vector.empty new)) :
    Simulates element world exempt (world.perform name method)
      (Function.update lists name (some new), none) := by
  rcases exists_perform name returns with ⟨result, later, ran, grows⟩ | ⟨_, _, _, ⟨⟩⟩
  refine ⟨_, ran, refines.put ?_ ?_ grows.toYields, .put ?_⟩
  · nofun
  · intro held there
    cases absent.symm.trans there
  · intro held _ there
    cases absent.symm.trans there

end Perform

section Arguments

variable {argument : Argument V} {reference : Reference V} {here : V} {index capacity : Nat}

theorem set_eq_modify (stands : list[index]? = some here) (change : V → V) :
    list.set index (change here) = list.modify index change := by
  apply List.ext_getElem?
  intro position
  rw [List.getElem?_set, List.getElem?_modify]
  split
  next same =>
    subst same
    rw [stands, if_pos (List.getElem?_eq_some_iff.mp stands).1]
    rfl
  next => simp

theorem slotsOf_modify (stands : list[index]? = some here) (change : V → V) :
    (slotsOf list capacity).set index (some (change here)) =
      slotsOf (list.modify index change) capacity := by
  have bound : index < (list.map some).length := by
    rw [List.length_map]
    exact (List.getElem?_eq_some_iff.mp stands).1
  rw [slotsOf, slotsOf, List.set_append_left _ _ bound, ← List.map_set, List.length_modify,
    set_eq_modify stands]

variable (refines : Refines element world lists)

include refines

/-- An argument without a reference has no value. -/
theorem Refines.value_eq_none (absent : world.refer argument = none) :
    lists.value argument = none := by
  cases argument with
  | value here => cases absent
  | element owner index =>
      cases there : world.vectors owner with
      | none => rw [Lists.value, refines.eq_none there]; rfl
      | some vector =>
          rcases refines.exists_list there with ⟨list, listed, represents⟩
          have value : lists.value (.element owner index) = list[index]? := by
            rw [Lists.value, listed]
            rfl
          rw [value, List.getElem?_eq_none_iff, ← represents.size]
          cases data : vector.data with
          | none =>
              rw [represents.size, represents.eq_nil data]
              exact Nat.zero_le _
          | some block =>
              by_contra inside
              simp [World.refer, there, data, Nat.lt_of_not_le inside] at absent

/-- What the reference for an argument refers to. -/
theorem Refines.exists_value (found : world.refer argument = some reference) :
    (∃ here, argument = .value here ∧ reference = .outside here) ∨
      ∃ owner index vector list data here, argument = .element owner index ∧
        reference = .element data index ∧ world.vectors owner = some vector ∧
          lists owner = some list ∧ vector.data = some data ∧ list[index]? = some here := by
  cases argument with
  | value here =>
      cases found
      exact .inl ⟨here, rfl, rfl⟩
  | element owner index =>
      right
      rcases Option.bind_eq_some_iff.mp found with ⟨vector, there, found⟩
      rcases Option.bind_eq_some_iff.mp found with ⟨data, own, found⟩
      split at found
      next inside =>
        cases found
        rcases refines.exists_list there with ⟨list, listed, represents⟩
        rw [represents.size] at inside
        exact ⟨owner, index, vector, list, data, list[index], rfl, rfl, there, listed, own,
          List.getElem?_eq_getElem inside⟩
      next => cases found

/-- The reference for an argument gives its value. -/
theorem Refines.exists_reads (found : world.refer argument = some reference) :
    ∃ here, lists.value argument = some here ∧ Reads world.memory here reference := by
  rcases refines.exists_value found with ⟨here, rfl, rfl⟩ |
    ⟨owner, index, vector, list, data, here, rfl, rfl, there, listed, own, stands⟩
  · exact ⟨here, rfl, rfl⟩
  · refine ⟨here, ?_, (refines.stands owner vector list there listed).getElem? own stands⟩
    rw [Lists.value, listed]
    exact stands

/-- Moving from an element leaves its remains in the list. -/
theorem Refines.moveFrom {owner data : Nat} (there : world.vectors owner = some vector)
    (listed : lists owner = some list) (own : vector.data = some data)
    (stands : list[index]? = some here) :
    Refines element
      { world with
        memory := world.memory.put data
          ((slotsOf list vector.capacity).set index (some (element.moved here))) }
      (lists.moveFrom element (.element owner index)) := by
  have represents := refines.stands owner vector list there listed
  have bound := represents.bound
  rw [represents.size, ← List.length_modify element.moved list index] at bound
  have size : vector.size = (list.modify index element.moved).length := by
    rw [represents.size, List.length_modify]
  have grows := Grows.put represents own size bound (slotsOf_modify stands element.moved)
  have moved := refines.put (fun _ _ => there)
    (fun held here => Option.some.inj (here.symm.trans there)) grows.toYields
  have vectors : Function.update world.vectors owner (some vector) = world.vectors :=
    Function.update_eq_self_iff.mpr there.symm
  rw [World.put, vectors] at moved
  rw [Lists.moveFrom, listed]
  exact moved

end Arguments

section Push

variable {argument : Argument V} {moves : Bool} {place : List V → V → List V}
variable {method : Vector → Reference V → Method V Vector}
variable {construct : Vector → Method V V → Method V Vector}

/-- How a method adds its argument: an own element is copied first, and any other argument is
copied or moved while the new element is constructed. -/
structure Adds (element : Element V) (moves : Bool) (place : List V → V → List V)
    (construct : Vector → Method V V → Method V Vector)
    (method : Vector → Reference V → Method V Vector) : Prop where
  own : ∀ {memory vector list data index here},
    Represents element memory vector list → vector.data = some data →
      list[index]? = some here → ∀ {post raises},
        (Runs (method vector (.element data index)) memory post raises ↔
          Runs (construct vector (Reference.move element (.outside here))) memory post raises)
  foreign : ∀ {vector reference}, vector.containsAddress reference = false →
    method vector reference =
      construct vector (if moves then reference.move element else reference.read)
  returns : ∀ {memory vector list value here touch},
    Represents element memory vector list → Supplies value here touch → Ready memory touch →
      (∀ data, vector.data = some data → Apart data touch) → list.length < element.maxSize →
        Returns (construct vector value) memory
          (Grows element (touched memory touch) vector (place list here))
  refuses : ∀ {memory vector list value}, Represents element memory vector list →
    list.length = element.maxSize →
      Refuses (construct vector value) memory "Vector size exceeds max_size"

theorem adds_pushBack : Adds element false (fun list here => list ++ [here])
    (·.appendConstructed element) (·.pushBack element) where
  own := runs_pushBack_own
  foreign := pushBack_foreign
  returns := returns_appendConstructed
  refuses := refuses_appendConstructed

theorem adds_pushBackMove : Adds element true (fun list here => list ++ [here])
    (·.appendConstructed element) (·.pushBackMove element) where
  own := runs_pushBackMove_own
  foreign := pushBackMove_foreign
  returns := returns_appendConstructed
  refuses := refuses_appendConstructed

theorem adds_pushFront : Adds element false (fun list here => here :: list)
    (·.prependConstructed element) (·.pushFront element) where
  own := runs_pushFront_own
  foreign := pushFront_foreign
  returns := returns_prependConstructed
  refuses := refuses_prependConstructed

theorem adds_pushFrontMove : Adds element true (fun list here => here :: list)
    (·.prependConstructed element) (·.pushFrontMove element) where
  own := runs_pushFrontMove_own
  foreign := pushFrontMove_foreign
  returns := returns_prependConstructed
  refuses := refuses_prependConstructed

variable (refines : Refines element world lists)

include refines

/-- A call that constructs the new element from some argument. -/
theorem simulates_construct {called : Method V Vector} {value : Method V V} {here : V}
    {touch : Option (Touch V)} {before : Lists V}
    (adds : Adds element moves place construct method) (there : world.vectors name = some vector)
    (represents : Represents element world.memory vector list)
    (calls : ∀ {post raises}, Runs called world.memory post raises ↔
      Runs (construct vector value) world.memory post raises)
    (supplies : Supplies value here touch) (ready : Ready world.memory touch)
    (apart : ∀ data, vector.data = some data → Apart data touch)
    (based : Refines element { world with memory := touched world.memory touch } before) :
    Simulates element world exempt (world.perform name called)
      (if list.length = element.maxSize then
        (lists, some (.lengthError "Vector size exceeds max_size"))
      else (Function.update before name (some (place list here)), none)) := by
  have bound := Nat.le_trans represents.bound represents.limit
  rw [represents.size] at bound
  split
  next full => exact .refuses refines (calls.mpr (adds.refuses represents full))
  next room =>
    have fits := Nat.lt_of_le_of_ne bound room
    exact .returns there based (calls.mpr (adds.returns represents supplies ready apart fits))

/-- Adding an argument to a vector adds its value to the list. -/
theorem simulates_push (adds : Adds element moves place construct method) :
    Simulates element world exempt (world.callWith name argument method)
      (lists.push element name argument moves place) := by
  rw [World.callWith, Lists.push]
  cases found : world.refer argument with
  | none =>
      rw [refines.value_eq_none found]
      cases lists name <;> exact .skip refines
  | some reference =>
      dsimp only
      rw [World.call]
      cases there : world.vectors name with
      | none =>
          rw [refines.eq_none there]
          exact .skip refines
      | some vector =>
          rcases refines.exists_list there with ⟨list, listed, represents⟩
          rw [listed]
          rcases refines.exists_value found with ⟨here, rfl, rfl⟩ |
            ⟨owner, index, vector', list', data, here, rfl, rfl, there', listed', own, stands⟩
          · have before : (if moves then lists.moveFrom element (.value here) else lists) = lists :=
              ite_self lists
            have supplies : Supplies (if moves then Reference.move element (.outside here)
                else Reference.read (.outside here)) here none := by
              split
              · exact supplies_outside_move
              · exact supplies_outside_read
            rw [before]
            refine simulates_construct refines adds there represents ?_ supplies ready_none
              (fun _ _ => apart_none) refines
            rw [adds.foreign rfl]
          · have value : lists.value (.element owner index) = some here := by
              rw [Lists.value, listed']
              exact stands
            rw [value]
            by_cases same : vector.data = some data
            · cases refines.apart owner name vector' vector data there' there own same
              cases there.symm.trans there'
              cases listed.symm.trans listed'
              have before : ∀ new, Function.update (if moves then
                  lists.moveFrom element (.element name index) else lists) name new =
                    Function.update lists name new := by
                intro new
                split
                · exact Function.update_idem ..
                · rfl
              simp only [before]
              exact simulates_construct refines adds there represents
                (adds.own represents same stands) supplies_outside_move ready_none
                  (fun _ _ => apart_none) refines
            · have represents' := refines.stands owner vector' list' there' listed'
              have live := represents'.slots data own
              have stored : (slotsOf list' vector'.capacity)[index]? = some (some here) := by
                rcases represents'.getElem? own stands with ⟨slots, live', stored⟩
                cases live.symm.trans live'
                exact stored
              have outside : vector.containsAddress (.element data index : Reference V) = false :=
                containsAddress_foreign same
              have calls := adds.foreign outside
              have foreign : ∀ after, ∀ block, vector.data = some block →
                  Apart block (some ⟨data, slotsOf list' vector'.capacity, after⟩) := by
                rintro after block at_block _ ⟨⟩ rfl
                exact same at_block
              cases moves with
              | false =>
                  have ready : Ready world.memory (some ⟨data, slotsOf list' vector'.capacity,
                      slotsOf list' vector'.capacity⟩) := by
                    rintro _ ⟨⟩
                    exact live
                  refine simulates_construct refines adds there represents ?_
                    (supplies_element_read stored) ready (foreign _) ?_
                  · rw [calls]
                    rfl
                  · rw [touched_read ready]
                    exact refines
              | true =>
                  have ready : Ready world.memory (some ⟨data, slotsOf list' vector'.capacity,
                      (slotsOf list' vector'.capacity).set index (some (element.moved here))⟩) := by
                    rintro _ ⟨⟩
                    exact live
                  refine simulates_construct refines adds there represents ?_
                    (supplies_element_move stored) ready (foreign _)
                      (refines.moveFrom there' listed' own stands)
                  rw [calls]
                  rfl

end Push

end Wan.Container.Vector
