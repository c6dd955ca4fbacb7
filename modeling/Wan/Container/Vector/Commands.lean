import Wan.Container.Vector.Refinement

/-!
# Runs of commands on vectors

From one command to whole runs: a program over vectors ends, and what the vectors stand for is
what the same program makes of lists.
-/

namespace Wan.Container.Vector

open Wan.Library Wan.Library.LinkedList Wan.Library.Program

variable {V : Type} {element : Element V} {world : World V} {lists : Lists V}
variable {name : Nat} {exempt : Nat → Bool}

/-- The vectors whose capacity a command may decrease: those that it swaps, those whose content
it replaces as a whole, and the one whose storage it moves into a new vector. -/
def Command.mayShrink : Command V → Nat → Bool
  | .swap first second, name => name == first || name == second
  | .copyAssign target _, name => name == target
  | .moveAssign target source, name => name == target || name == source
  | .moveConstruct _ source, name => name == source
  | _, _ => false

/-- Swapping vectors and whole-vector assignment. -/
def Command.replaces : Command V → Nat → Bool
  | .swap first second, name => name == first || name == second
  | .copyAssign target _, name => name == target
  | .moveAssign target source, name => name == target || name == source
  | _, _ => false

/-- A position denotes an element of a vector. -/
def World.IsElement (world : World V) (name : Nat) (position : Option (Nat × Nat)) : Prop :=
  ∃ vector data index, world.vectors name = some vector ∧ vector.data = some data ∧
    world.iterator position = some (data, index) ∧ index < vector.size

section Step

variable (refines : Refines element world lists)

include refines

/-- A call without an argument. -/
theorem simulates_call {method : Vector → Method V Vector} {change : List V → List V}
    (returns : ∀ vector list, Represents element world.memory vector list →
      Returns (method vector) world.memory (Grows element world.memory vector (change list))) :
    Simulates element world exempt (world.call name method) (lists.change name change) := by
  rw [World.call, Lists.change]
  cases there : world.vectors name with
  | none =>
      rw [Option.map_eq_none_iff.mpr (refines.eq_none there),
        Function.update_eq_self_iff.mpr (refines.eq_none there).symm]
      exact .skip refines
  | some vector =>
      rcases refines.exists_list there with ⟨list, listed, represents⟩
      rw [listed]
      exact .returns there refines (returns vector list represents)

omit refines in
/-- `Erase` at a position that is no element of the vector changes nothing. -/
theorem step_erase_invalid {deletePosition : Option (Nat × Nat)}
    (invalid : ¬world.IsElement name deletePosition) :
    world.step element none (.erase name deletePosition) = some (world, none) := by
  rw [World.step, World.call]
  cases there : world.vectors name with
  | none => rfl
  | some vector =>
      have nothing : vector.erase element (world.iterator deletePosition) =
          pure (vector, vector.endIterator) := by
        apply erase_invalid
        intro data index own found
        by_contra inside
        exact invalid ⟨vector, data, index, there, own, found, Nat.lt_of_not_le inside⟩
      have same : world.put name (some vector) = world := by
        rw [World.put, Function.update_eq_self_iff.mpr there.symm]
      dsimp only
      rw [nothing]
      exact congrArg (fun world => some (world, none)) same

theorem simulates_erase (deletePosition : Option (Nat × Nat)) :
    Simulates element world exempt (world.step element none (.erase name deletePosition))
      (lists.step element (.erase name deletePosition)) := by
  cases deletePosition with
  | none =>
      rw [step_erase_invalid]
      · exact .skip refines
      · rintro ⟨_, _, _, _, _, found, _⟩
        cases found
  | some position =>
      rcases position with ⟨owner, index⟩
      by_cases same : owner = name
      · subst same
        rw [Lists.step, if_pos rfl]
        have iterator : ∀ vector data, world.vectors owner = some vector →
            vector.data = some data →
              world.iterator (some (owner, index)) = some (data, index) := by
          intro vector data there own
          rw [World.iterator, there]
          simp [own]
        by_cases valid : ∃ vector data, world.vectors owner = some vector ∧
            vector.data = some data ∧ index < vector.size
        · rcases valid with ⟨vector, data, there, own, inside⟩
          rcases refines.exists_list there with ⟨list, listed, represents⟩
          rw [represents.size] at inside
          have split : list = list.take index ++ list[index] :: list.drop (index + 1) := by
            rw [List.getElem_cons_drop, List.take_append_drop]
          have position : index = (list.take index).length := by
            rw [List.length_take, Nat.min_eq_left (Nat.le_of_lt inside)]
          rw [split] at represents
          rw [Lists.change, listed, Option.map_some, List.eraseIdx_eq_take_drop_succ, World.step,
            World.call, there, iterator vector data there own]
          apply Simulates.returns there refines
          rw [Returns, runs_bind]
          apply (returns_erase represents own position).mono ?_ fun _ _ => id
          rintro ⟨result, _⟩ later ⟨grows, -⟩
          exact grows
        · have unchanged : lists.change owner (fun list => list.eraseIdx index) =
              (lists, none) := by
            rw [Lists.change, Function.update_eq_self_iff.mpr]
            cases there : world.vectors owner with
            | none => rw [refines.eq_none there]; rfl
            | some vector =>
                rcases refines.exists_list there with ⟨list, listed, represents⟩
                rw [listed, Option.map_some, List.eraseIdx_of_length_le]
                by_contra inside
                have inside := Nat.lt_of_not_le inside
                rcases represents.exists_data (List.ne_nil_of_length_pos (Nat.zero_lt_of_lt inside))
                  with ⟨data, own⟩
                exact valid ⟨vector, data, there, own, represents.size ▸ inside⟩
          rw [unchanged, step_erase_invalid]
          · exact .skip refines
          · rintro ⟨vector, data, offset, there, own, found, inside⟩
            rw [iterator vector data there own] at found
            cases found
            exact valid ⟨vector, data, there, own, inside⟩
      · rw [Lists.step, if_neg same, step_erase_invalid]
        · exact .skip refines
        · rintro ⟨vector, data, offset, there, own, found, inside⟩
          rcases Option.bind_eq_some_iff.mp found with ⟨vector', there', found⟩
          rcases Option.bind_eq_some_iff.mp found with ⟨data', own', equal⟩
          cases equal
          exact same (refines.apart owner name vector' vector data there' there own' own)

theorem simulates_sizeAdjust (dataSize : Nat) (padding : Argument V) :
    Simulates element world exempt (world.step element none (.sizeAdjust name dataSize padding))
      (lists.step element (.sizeAdjust name dataSize padding)) := by
  rw [World.step, World.callWith, Lists.step]
  cases found : world.refer padding with
  | none =>
      rw [refines.value_eq_none found]
      cases lists name <;> exact .skip refines
  | some reference =>
      dsimp only
      rw [World.call]
      cases there : world.vectors name with
      | none =>
          rw [refines.eq_none there]
          exact .skip refines
      | some vector =>
          rcases refines.exists_list there with ⟨list, listed, represents⟩
          rcases refines.exists_reads found with ⟨here, value, reads⟩
          rw [listed, value]
          dsimp only
          split
          next exceeds => exact .refuses refines (refuses_sizeAdjust exceeds)
          next within =>
            exact .returns there refines
              (returns_sizeAdjust represents reads (Nat.le_of_not_lt within))

theorem simulates_resize (newContainerCapacity : Nat) :
    Simulates element world exempt (world.step element none (.resize name newContainerCapacity))
      (lists.step element (.resize name newContainerCapacity)) := by
  rw [World.step, World.call, Lists.step]
  cases there : world.vectors name with
  | none =>
      rw [refines.eq_none there]
      exact .skip refines
  | some vector =>
      rcases refines.exists_list there with ⟨list, listed, represents⟩
      rw [listed]
      dsimp only
      split
      next exceeds => exact .refuses refines (refuses_ensureCapacity represents exceeds)
      next within =>
        apply Simulates.keeps refines there listed
        exact (returns_ensureCapacity represents (Nat.le_of_not_lt within)).mono
          (fun _ _ => And.left) fun _ _ => id

theorem simulates_append (other : Nat) :
    Simulates element world exempt (world.step element none (.append name other))
      (lists.step element (.append name other)) := by
  rw [World.step, Lists.step]
  cases original : world.vectors other with
  | none =>
      rw [refines.eq_none original]
      cases lists name <;> exact .skip refines
  | some source =>
      dsimp only
      rw [World.call]
      cases there : world.vectors name with
      | none =>
          rw [refines.eq_none there]
          exact .skip refines
      | some vector =>
          rcases refines.exists_list there with ⟨list, listed, represents⟩
          rcases refines.exists_list original with ⟨more, listed', represents'⟩
          have bound := Nat.le_trans represents.bound represents.limit
          rw [represents.size] at bound
          rw [listed, listed']
          dsimp only
          by_cases same : name = other
          · subst same
            cases there.symm.trans original
            cases listed.symm.trans listed'
            rw [if_pos rfl]
            split
            next nil =>
              apply Simulates.keeps refines there listed
              have doubled : Returns (source.appendSelf element none) world.memory _ :=
                returns_appendSelf represents (by
                  rw [nil]
                  exact Nat.zero_le _)
              rwa [if_pos nil, List.append_nil] at doubled
            next nonempty =>
              split
              next exceeds =>
                have more : element.maxSize - list.length < (braced none list).length := by
                  rw [braced]
                  omega
                exact .throws refines (refuses_appendSelf represents nonempty more)
              next within =>
                have doubled : Returns (source.appendSelf element none) world.memory _ :=
                  returns_appendSelf represents (Nat.le_of_not_lt within)
                rw [if_neg nonempty] at doubled
                exact .returns there refines doubled
          · have apart : ∀ block, source.data = some block → vector.data ≠ some block :=
              fun block own own' =>
                same (refines.apart name other vector source block there original own' own)
            rw [if_neg same]
            split
            next nil =>
              apply Simulates.keeps refines there listed
              have appended := returns_append represents represents' apart (by
                rw [nil]
                exact bound)
              rwa [nil, List.append_nil] at appended
            next nonempty =>
              split
              next exceeds =>
                exact .refuses refines
                  (refuses_append represents represents' nonempty (by omega))
              next within =>
                exact .returns there refines
                  (returns_append represents represents' apart (Nat.le_of_not_lt within))

/-- A name gets a vector without a block. -/
theorem Refines.put_empty (absent : world.vectors name = none) :
    Refines element (world.put name (some .empty)) (Function.update lists name (some [])) := by
  have yields : Yields element world.memory Vector.empty ([] : List V) Vector.empty world.memory :=
    (Grows.refl Represents.empty).toYields
  refine refines.put ?_ ?_ yields
  · nofun
  · intro held there
    cases absent.symm.trans there

theorem simulates_construct_empty :
    Simulates element world exempt (world.step element none (.construct name))
      (lists.step element (.construct name)) := by
  rw [World.step, Lists.step]
  cases absent : world.vectors name with
  | some vector =>
      rcases refines.exists_list absent with ⟨list, listed, -⟩
      rw [listed]
      exact .skip refines
  | none =>
      rw [refines.eq_none absent]
      refine ⟨_, rfl, refines.put_empty absent, .put ?_⟩
      intro held _ there
      cases absent.symm.trans there

theorem simulates_copyConstruct (source : Nat) :
    Simulates element world exempt (world.step element none (.copyConstruct name source))
      (lists.step element (.copyConstruct name source)) := by
  rw [World.step, Lists.step]
  cases absent : world.vectors name with
  | some vector =>
      rcases refines.exists_list absent with ⟨list, listed, -⟩
      rw [listed]
      exact .skip refines
  | none =>
      rw [refines.eq_none absent]
      cases original : world.vectors source with
      | none =>
          rw [refines.eq_none original]
          exact .skip refines
      | some vector =>
          rcases refines.exists_list original with ⟨list, listed, represents⟩
          rw [listed]
          exact .creates refines absent (returns_copy represents)

theorem simulates_moveConstruct (source : Nat) :
    Simulates element world (Command.mayShrink (.moveConstruct name source : Command V))
      (world.step element none (.moveConstruct name source))
      (lists.step element (.moveConstruct name source)) := by
  rw [World.step, Lists.step]
  cases absent : world.vectors name with
  | some vector =>
      rcases refines.exists_list absent with ⟨list, listed, -⟩
      rw [listed]
      exact .skip refines
  | none =>
      rw [refines.eq_none absent]
      cases original : world.vectors source with
      | none =>
          rw [refines.eq_none original]
          exact .skip refines
      | some vector =>
          rcases refines.exists_list original with ⟨list, listed, represents⟩
          rw [listed]
          -- The new vector and the source exchange what they hold, and the source is emptied.
          have different : source ≠ name := by
            rintro rfl
            cases absent.symm.trans original
          have taken : (world.exchange name source).vectors source = none := by
            rw [World.exchange_vectors, Function.comp_apply, Equiv.swap_apply_right, absent]
          have emptied := (refines.exchange name source).put_empty taken
          rw [World.put, World.exchange_vectors, Equiv.comp_swap_eq_update,
            Equiv.comp_swap_eq_update, original, listed, Function.update_comm different,
            Function.update_idem, Function.update_comm different, Function.update_idem,
            Function.update_comm different.symm, Function.update_comm different.symm] at emptied
          refine ⟨_, rfl, emptied, ?_⟩
          intro other vector' result kept here there
          rw [Command.mayShrink, beq_eq_false_iff_ne] at kept
          rw [World.put_vectors, World.put_vectors] at there
          by_cases same : other = name
          · rw [same] at here
            cases absent.symm.trans here
          · rw [Function.update_of_ne same, Function.update_of_ne kept] at there
            cases here.symm.trans there
            exact Nat.le_refl _

theorem simulates_copyAssign (source : Nat) :
    Simulates element world (Command.mayShrink (.copyAssign name source : Command V))
      (world.step element none (.copyAssign name source))
      (lists.step element (.copyAssign name source)) := by
  rw [World.step, Lists.step]
  cases original : world.vectors source with
  | none =>
      rw [refines.eq_none original]
      cases lists name <;> exact .skip refines
  | some vector =>
      rcases refines.exists_list original with ⟨new, listed', represents'⟩
      dsimp only
      rw [World.call, listed']
      cases there : world.vectors name with
      | none =>
          rw [refines.eq_none there]
          split <;> exact .skip refines
      | some held =>
          rcases refines.exists_list there with ⟨list, listed, represents⟩
          rw [listed]
          dsimp only
          split
          next same =>
            subst same
            rw [Function.update_eq_self_iff.mpr listed'.symm]
            exact .skip refines
          next =>
            exact .replaces refines (by simp [Command.mayShrink]) there
              (returns_assign represents represents')

theorem simulates_moveAssign (source : Nat) :
    Simulates element world (Command.mayShrink (.moveAssign name source : Command V))
      (world.step element none (.moveAssign name source))
      (lists.step element (.moveAssign name source)) := by
  rw [World.step, Lists.step]
  cases original : world.vectors source with
  | none =>
      rw [refines.eq_none original]
      cases lists name <;> exact .skip refines
  | some vector =>
      rcases refines.exists_list original with ⟨new, listed', represents'⟩
      rw [listed']
      dsimp only
      split
      next same =>
        subst same
        rw [listed']
        exact .skip refines
      next different =>
        cases there : world.vectors name with
        | none =>
            rw [refines.eq_none there]
            exact .skip refines
        | some held =>
            rcases refines.exists_list there with ⟨list, listed, represents⟩
            rcases exists_perform name (yields_release represents) with
              ⟨result, later, ran, rfl, yields⟩ | ⟨_, _, _, ⟨⟩⟩
            rw [listed]
            dsimp only
            rw [ran]
            -- The target is released, and then the two exchange what they hold.
            have released := refines.put (fun _ _ => there)
              (fun held here => Option.some.inj (here.symm.trans there)) yields
            have exchanged := released.exchange name source
            have same : Function.update lists name (some []) ∘ Equiv.swap name source =
                Function.update (Function.update lists source (some [])) name (some new) := by
              rw [Equiv.comp_swap_eq_update, Function.update_self,
                Function.update_of_ne (Ne.symm different), listed', Function.update_comm different,
                Function.update_idem]
            rw [same] at exchanged
            refine ⟨_, rfl, exchanged, .of_eq ?_⟩
            intro other kept
            rw [Command.mayShrink, Bool.or_eq_false_iff, beq_eq_false_iff_ne, beq_eq_false_iff_ne]
              at kept
            rw [World.exchange_vectors, Function.comp_apply,
              Equiv.swap_apply_of_ne_of_ne kept.1 kept.2, World.put_vectors,
              Function.update_of_ne kept.1]

theorem simulates_swap (other : Nat) :
    Simulates element world (Command.mayShrink (.swap name other : Command V))
      (world.step element none (.swap name other)) (lists.step element (.swap name other)) := by
  rw [World.step, Lists.step]
  cases there : world.vectors name with
  | none =>
      rw [refines.eq_none there]
      exact .skip refines
  | some vector =>
      rcases refines.exists_list there with ⟨list, listed, -⟩
      rw [listed]
      cases there' : world.vectors other with
      | none =>
          rw [refines.eq_none there']
          exact .skip refines
      | some vector' =>
          rcases refines.exists_list there' with ⟨list', listed', -⟩
          rw [listed']
          refine ⟨_, rfl, refines.exchange name other, .of_eq ?_⟩
          intro third kept
          rw [Command.mayShrink, Bool.or_eq_false_iff, beq_eq_false_iff_ne, beq_eq_false_iff_ne]
            at kept
          rw [World.exchange_vectors, Function.comp_apply,
            Equiv.swap_apply_of_ne_of_ne kept.1 kept.2]

theorem simulates_destroy :
    Simulates element world exempt (world.step element none (.destroy name))
      (lists.step element (.destroy name)) := by
  rw [World.step, Lists.step]
  cases there : world.vectors name with
  | none =>
      rw [Function.update_eq_self_iff.mpr (refines.eq_none there).symm]
      exact .skip refines
  | some vector =>
      rcases refines.exists_list there with ⟨list, listed, represents⟩
      rcases exists_perform name (yields_release represents) with
        ⟨result, later, ran, rfl, yields⟩ | ⟨_, _, _, ⟨⟩⟩
      dsimp only
      rw [ran]
      have released := refines.put (fun _ _ => there)
        (fun held here => Option.some.inj (here.symm.trans there)) yields
      have dropped := released.drop fun vector here => (by
        rw [World.put_vectors, Function.update_self] at here
        cases here
        rfl : vector.data = none)
      rw [Function.update_idem] at dropped
      refine ⟨_, rfl, dropped, ?_⟩
      intro other vector result _ here after
      rw [World.put_vectors, World.put_vectors, Function.update_idem] at after
      by_cases same : other = name
      · rw [same, Function.update_self] at after
        cases after
      · rw [Function.update_of_ne same] at after
        cases here.symm.trans after
        exact Nat.le_refl _

/-- Where a vector does not convert to an element, every command does to the vectors what it does
to the lists. -/
theorem simulates_step (command : Command V) :
    Simulates element world command.mayShrink (world.step element none command)
      (lists.step element command) := by
  cases command with
  | construct name => exact simulates_construct_empty refines
  | copyConstruct name source => exact simulates_copyConstruct refines source
  | moveConstruct name source => exact simulates_moveConstruct refines source
  | copyAssign target source => exact simulates_copyAssign refines source
  | moveAssign target source => exact simulates_moveAssign refines source
  | swap first second => exact simulates_swap refines second
  | destroy name => exact simulates_destroy refines
  | pushBack name value => exact simulates_push refines adds_pushBack
  | pushBackMove name value => exact simulates_push refines adds_pushBackMove
  | pushFront name value => exact simulates_push refines adds_pushFront
  | pushFrontMove name value => exact simulates_push refines adds_pushFrontMove
  | popBack name =>
      exact simulates_call refines fun _ _ represents => returns_popBack represents
  | popFront name =>
      exact simulates_call refines fun _ _ represents => returns_popFront represents
  | erase name deletePosition => exact simulates_erase refines deletePosition
  | sizeAdjust name dataSize padding => exact simulates_sizeAdjust refines dataSize padding
  | resize name newContainerCapacity => exact simulates_resize refines newContainerCapacity
  | append name other => exact simulates_append refines other

end Step

/-- A program over vectors ends, throws what it throws on lists and leaves vectors that stand
for these lists. -/
theorem simulates_run (refines : Refines element world lists) (commands : List (Command V)) :
    ∃ later, world.run element none commands = some (later, (lists.run element commands).2) ∧
      Refines element later (lists.run element commands).1 := by
  induction commands generalizing world lists with
  | nil => exact ⟨world, rfl, refines⟩
  | cons command commands ih =>
      rcases simulates_step refines command with ⟨next, stepped, refines', -⟩
      rcases ih refines' with ⟨later, ran, final⟩
      refine ⟨later, ?_, final⟩
      rw [World.run, stepped]
      simp [ran, Lists.run]

/-- In no run, a command decreases a capacity, but for the exempt vectors. -/
def NeverShrinks (element : Element V) (exempt : Command V → Nat → Bool) : Prop :=
  ∀ commands world outcomes command later outcome,
    World.empty.run element none commands = some (world, outcomes) →
      world.step element none command = some (later, outcome) →
        KeepsCapacity (exempt command) world later

/-- Vectors of elements to which they do not convert refine lists in every run, and their capacity
decreases only when they are swapped, assigned or moved into a new vector. -/
theorem refines_of_run (element : Element V) :
    (∀ commands, ∃ world, World.empty.run element none commands =
        some (world, (Lists.run element (fun _ => none) commands).2) ∧
          Refines element world (Lists.run element (fun _ => none) commands).1 ∧
            ∀ name deletePosition, ¬world.IsElement name deletePosition →
              world.step element none (.erase name deletePosition) = some (world, none)) ∧
      NeverShrinks element Command.mayShrink := by
  have start : Refines element (World.empty : World V) fun _ => none := .start
  constructor
  · intro commands
    rcases simulates_run start commands with ⟨world, ran, refines⟩
    exact ⟨world, ran, refines, fun _ _ => step_erase_invalid⟩
  · intro commands world outcomes command later outcome ran stepped
    rcases simulates_run start commands with ⟨world', ran', refines⟩
    cases ran.symm.trans ran'
    rcases simulates_step refines command with ⟨later', stepped', -, kept⟩
    cases stepped.symm.trans stepped'
    exact kept

/-- Where a vector converts to an element, it adds one element when it is added to itself. -/
example : (World.empty.run (⟨id, true, 1000⟩ : Element Nat) (some List.sum)
    [.construct 0, .pushBack 0 (.value 1), .pushBack 0 (.value 2), .append 0 0]).map
      (fun last => (last.1.vectors 0).map Vector.size) = some (some 3) := by decide

/-- A vector that is moved into a new one has a capacity of 10 before and of 0 after it. -/
theorem not_neverShrinks_replaces :
    ¬NeverShrinks (⟨id, true, 1000⟩ : Element Nat) Command.replaces := by
  intro never
  have kept := never [.construct 0, .pushBack 0 (.value 7)] _ _ (.moveConstruct 1 0) _ _ rfl rfl
    0 _ _ rfl rfl rfl
  exact absurd kept (by decide)

end Wan.Container.Vector
