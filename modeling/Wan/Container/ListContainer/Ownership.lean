import Wan.Container.ListContainer.Sound

/-!
# Constructors, assignments and destructors of named lists

What it means that a command does to the lists what it does to the sequences, and the
commands that make, drop and exchange whole lists.
-/

namespace Wan.Container.ListContainer

open Wan.Library Wan.Library.LinkedList Wan.Library.Program

variable {V : Type} {environment : Environment V}

/-- The lists and iterators stand for the sequences and cursors. -/
def Models (world : World V) (sequences : Sequences V) : Prop :=
  ∃ shapes, Sound world sequences shapes

/-- The environment has refused a request for memory when there were the nodes of lists with these
sequences, and at most `more` others. -/
def Exhausted (environment : Environment V) (more : Nat) (sequences : Sequences V) : Prop :=
  ∃ nodes lists shapes, Laid nodes lists shapes ∧
    (∀ name, sequences.contents name = (shapes name).map Shape.values) ∧
    Refused environment more nodes

/-- How a command may end: as it should, or with what a `new` raises that the environment
refuses. -/
inductive Command.Ends (environment : Environment V) (command : Command V)
    (sequences : Sequences V) : Except Fault (Observation V) → Sequences V → Prop where
  | effect {outcome next} : command.effect environment sequences = some (outcome, next) →
      Command.Ends environment command sequences outcome next
  | raised {observation later next} (count : Nat) :
      command.effect environment sequences = some (.ok observation, later) →
      command.interrupted sequences count = some next →
      Exhausted environment (command.spare sequences) next →
      Command.Ends environment command sequences (.error .raised) next

/-- A command has ended in one of its ways. -/
def Conforms (environment : Environment V) (command : Command V) (sequences : Sequences V)
    (outcome : Except Fault (Observation V)) (world : World V) : Prop :=
  ∃ next, command.Ends environment sequences outcome next ∧ Models world next

/-- A command ends in one of its ways. -/
def Correct (environment : Environment V) (command : Command V) (sequences : Sequences V)
    (world : World V) : Prop :=
  Runs (command.run environment) world
    (fun observation => Conforms environment command sequences (.ok observation))
    (fun fault => Conforms environment command sequences (.error fault))

section Rules

variable {world : World V} {name : Nat} {list : ListContainer} {α : Type} {method : Method V α}
variable {post : α → World V → Prop} {raises : Fault → World V → Prop}

theorem runs_named {post : ListContainer → World V → Prop} (listed : world.lists name = some list) :
    Runs (World.named name) world post raises ↔ post list world := by
  simp [World.named, listed]

@[simp] theorem runs_rebind {list : Option ListContainer} {post : Unit → World V → Prop} :
    Runs (World.bind name list) world post raises ↔
      post () { world with lists := Function.update world.lists name list } := Iff.rfl

@[simp] theorem runs_steer {iterator : ListIterator} {post : Unit → World V → Prop} :
    Runs (World.steer name iterator) world post raises ↔
      post () { world with iterators := Function.update world.iterators name iterator } := Iff.rfl

theorem runs_call (listed : world.lists name = some list) :
    Runs (World.call name method) world post raises ↔
      Runs method ⟨world.nodes, world.requests, list⟩
        (fun value next => post value (world.after name next))
        (fun fault next => raises fault (world.after name next)) := by
  rw [World.call, runs_bind, runs_named listed, runs_onPart]

theorem runs_create (vacant : world.lists name = none) :
    Runs (World.create name method) world post raises ↔
      Runs method ⟨world.nodes, world.requests, ⟨none, 0⟩⟩
        (fun value next => post value (world.after name next))
        (fun fault next => raises fault
          { world with nodes := next.nodes, requests := next.requests }) := by
  simp only [World.create, runs_bind, runs_get, vacant, World.onMemory, runs_onPart, runs_onList,
    runs_rebind, runs_pure]
  rfl

end Rules

section Ways

variable {command : Command V} {sequences later : Sequences V} {world next : World V}
variable {observation : Observation V} {fault : Fault}

theorem Conforms.effect {outcome : Except Fault (Observation V)}
    (effect : command.effect environment sequences = some (outcome, later))
    (models : Models next later) : Conforms environment command sequences outcome next :=
  ⟨later, .effect effect, models⟩

theorem Conforms.raised (effect : command.effect environment sequences = some (.ok observation, later))
    (raised : fault = .raised) (count : Nat) {stopped : Sequences V}
    (interrupted : command.interrupted sequences count = some stopped)
    (refused : Refused environment (command.spare sequences) next.nodes)
    (models : Models next stopped) :
    Conforms environment command sequences (.error fault) next := by
  subst raised
  obtain ⟨shapes, sound⟩ := models
  have exhausted : Exhausted environment (command.spare sequences) stopped :=
    ⟨next.nodes, next.lists, shapes, sound.laid, sound.contents, refused⟩
  exact ⟨stopped, .raised count effect interrupted exhausted, shapes, sound⟩

/-- A command has been interrupted. -/
structure Stopped (environment : Environment V) (command : Command V) (sequences : Sequences V)
    (fault : Fault) (world : World V) : Prop where
  raised : fault = .raised
  interrupted : ∃ count stopped,
    command.interrupted sequences count = some stopped ∧ Models world stopped
  refused : Refused environment (command.spare sequences) world.nodes

/-- A command that yields nothing new. -/
theorem correct_of_runs {α : Type} {program : Action V α}
    (effect : command.effect environment sequences = some (.ok observation, later))
    (runs : Runs program world (fun _ next => Models next later) (Stopped environment command sequences)) :
    Runs (program >>= fun _ => pure observation) world
      (fun observation => Conforms environment command sequences (.ok observation))
      (fun fault => Conforms environment command sequences (.error fault)) := by
  rw [runs_bind]
  apply runs.mono
  · intro _ next models
    exact .effect effect models
  · rintro fault next ⟨raised, ⟨count, stopped, interrupted, models⟩, refused⟩
    exact .raised effect raised count interrupted refused models

theorem vacant_eq_some {name : Nat} {granted : Unit} :
    sequences.vacant name = some granted ↔ sequences.contents name = none := by
  rw [Sequences.vacant]
  split <;> simp_all

end Ways

section Constructors

variable {world : World V} {sequences later : Sequences V} {shapes : Shapes V} {name source : Nat}
variable {outcome : Except Fault (Observation V)} {values : List V} {command : Command V}

/-- Constructors that make a list of values. -/
theorem create_spec {constructor : Method V Unit} (sound : Sound world sequences shapes)
    (vacant : sequences.contents name = none)
    (interrupted : command.interrupted sequences 0 = some sequences)
    (built : Runs constructor ⟨world.nodes, world.requests, ⟨none, 0⟩⟩
      (fun _ next => ∃ head, Grown world.nodes next head [] values)
      (Unmade environment (command.spare sequences) world.nodes)) :
    Runs (World.create name constructor) world
      (fun _ next => Models next (sequences.create name values)) (Stopped environment command sequences) := by
  have absent := sound.absent vacant
  rw [runs_create (sound.laid.vacant absent)]
  apply built.mono
  · rintro _ next ⟨head, added, rfl, valid⟩
    exact ⟨_, sound.create next absent valid⟩
  · rintro fault next ⟨raised, same, refused⟩
    exact ⟨raised, ⟨0, sequences, interrupted, shapes, sound.congr same rfl rfl⟩, refused⟩

theorem construct_correct (sound : Sound world sequences shapes)
    (effect : (Command.construct name).effect environment sequences = some (outcome, later)) :
    Correct environment (.construct name) sequences world := by
  have unfolded := effect
  simp only [Command.effect, Option.bind_eq_bind, Option.bind_eq_some_iff, vacant_eq_some] at unfolded
  obtain ⟨_, vacant, ended⟩ := unfolded
  cases ended
  apply correct_of_runs effect
  apply create_spec sound vacant rfl
  apply construct_spec.mono
  · rintro _ next ⟨head, valid⟩
    exact ⟨head, .nil valid⟩
  · exact fun fault next interrupted => interrupted.unmade

theorem constructValues_correct (sound : Sound world sequences shapes)
    (effect : (Command.constructValues name values).effect environment sequences =
      some (outcome, later)) :
    Correct environment (.constructValues name values) sequences world := by
  have unfolded := effect
  simp only [Command.effect, Option.bind_eq_bind, Option.bind_eq_some_iff, vacant_eq_some] at unfolded
  obtain ⟨_, vacant, ended⟩ := unfolded
  cases ended
  exact correct_of_runs effect (create_spec sound vacant rfl constructValues_spec)

theorem copyConstruct_correct (sound : Sound world sequences shapes)
    (effect : (Command.copyConstruct name source).effect environment sequences =
      some (outcome, later)) :
    Correct environment (.copyConstruct name source) sequences world := by
  have unfolded := effect
  simp only [Command.effect, Option.bind_eq_bind, Option.bind_eq_some_iff, vacant_eq_some] at unfolded
  obtain ⟨_, vacant, values, stored, ended⟩ := unfolded
  cases ended
  obtain ⟨head, entries, found, rfl⟩ := sound.shaped stored
  obtain ⟨list, listed, holds⟩ := sound.laid.holds found
  have built : Runs (ListContainer.copyConstruct environment list)
      ⟨world.nodes, world.requests, ⟨none, 0⟩⟩ _ _ := copyConstruct_spec _ holds
  have spare : (Command.copyConstruct name source).spare sequences = entries.length := by
    simp [Command.spare, stored]
  rw [← spare] at built
  rw [Correct, Command.run, runs_bind, runs_named listed]
  exact correct_of_runs effect (create_spec sound vacant rfl built)

/-- What a name stands for after a move, when another list took over what it stood for. -/
theorem update_swap {lists : Nat → Option ListContainer} {left : Option ListContainer} :
    Function.update (Function.update lists name (lists source)) source left =
      Function.update (fun owner => lists (Equiv.swap name source owner)) source left := by
  funext owner
  by_cases atSource : owner = source
  · rw [atSource, Function.update_self, Function.update_self]
  · rw [Function.update_of_ne atSource, Function.update_of_ne atSource]
    by_cases atName : owner = name
    · rw [atName, Function.update_self, Equiv.swap_apply_left]
    · rw [Function.update_of_ne atName, Equiv.swap_apply_of_ne_of_ne atName atSource]

theorem moveConstruct_correct (sound : Sound world sequences shapes)
    (effect : (Command.moveConstruct name source).effect environment sequences =
      some (outcome, later)) :
    Correct environment (.moveConstruct name source) sequences world := by
  have unfolded := effect
  simp only [Command.effect, Option.bind_eq_bind, Option.bind_eq_some_iff, vacant_eq_some] at unfolded
  obtain ⟨_, vacant, values, stored, ended⟩ := unfolded
  cases ended
  obtain ⟨head, entries, found, rfl⟩ := sound.shaped stored
  obtain ⟨list, listed, -⟩ := sound.laid.holds found
  have absent := sound.absent vacant
  rw [Correct, Command.run, runs_bind, runs_named listed, runs_bind,
    runs_create (sound.laid.vacant absent)]
  apply moveConstruct_spec.mono
  · rintro left next ⟨taken, replacement, valid⟩
    rw [runs_bind, runs_rebind, runs_pure]
    have exchanged := sound.exchange world.requests name source
    have created := exchanged.create { next with self := left }
      (by rwa [Equiv.swap_apply_right]) valid
    refine .effect effect ⟨_, created.congr rfl ?_ rfl⟩
    show Function.update (Function.update world.lists name (some next.self)) source (some left) = _
    rw [taken, ← listed, update_swap]
    rfl
  · rintro fault next ⟨raised, quiet, refused⟩
    exact .raised effect raised 0 rfl refused ⟨shapes, sound.congr quiet.1 rfl rfl⟩

end Constructors

section Assignments

variable {world : World V} {sequences later : Sequences V} {shapes : Shapes V}
variable {name source other : Nat} {outcome : Except Fault (Observation V)} {values : List V}

theorem destruct_correct (sound : Sound world sequences shapes)
    (effect : (Command.destruct name).effect environment sequences = some (outcome, later)) :
    Correct environment (.destruct name) sequences world := by
  have unfolded := effect
  simp only [Command.effect, Option.bind_eq_bind, Option.bind_eq_some_iff] at unfolded
  obtain ⟨values, stored, ended⟩ := unfolded
  cases ended
  obtain ⟨head, entries, found, rfl⟩ := sound.shaped stored
  obtain ⟨list, listed, valid⟩ := sound.listed found
  rw [Correct, Command.run, runs_bind, runs_call listed]
  apply (destruct_spec valid).mono
  · intro _ next gone
    rw [runs_bind, runs_rebind, runs_pure]
    have dropped := sound.drop world.requests found
    refine .effect effect ⟨_, dropped.congr gone ?_ rfl⟩
    exact Function.update_idem ..
  · exact fun _ _ => id

theorem copyAssign_correct (sound : Sound world sequences shapes)
    (effect : (Command.copyAssign name source).effect environment sequences =
      some (outcome, later)) :
    Correct environment (.copyAssign name source) sequences world := by
  have unfolded := effect
  simp only [Command.effect, Option.bind_eq_bind, Option.bind_eq_some_iff] at unfolded
  obtain ⟨old, present, values, stored, ended⟩ := unfolded
  obtain ⟨head, entries, found, rfl⟩ := sound.shaped present
  obtain ⟨otherHead, others, sourceFound, rfl⟩ := sound.shaped stored
  obtain ⟨list, listed, valid⟩ := sound.listed found
  obtain ⟨sourceList, sourceListed, -⟩ := sound.laid.holds sourceFound
  rw [Correct, Command.run, runs_bind, runs_named listed, runs_bind, runs_named sourceListed]
  by_cases same : name = source
  · rw [if_pos same] at ended ⊢
    cases ended
    exact .effect effect ⟨shapes, sound⟩
  · rw [if_neg same] at ended ⊢
    cases ended
    have dropped := sound.drop world.requests found
    obtain ⟨kept, keptListed, holds⟩ := (sound.laid.drop found).holds
      (update_none_eq_some.mpr ⟨Ne.symm same, sourceFound⟩)
    rw [Function.update_of_ne (Ne.symm same), sourceListed] at keptListed
    cases keptListed
    apply correct_of_runs effect
    rw [runs_call listed]
    apply (copyAssign_spec valid holds).mono
    · rintro _ next ⟨copyHead, copies, sameValues, validCopy⟩
      have created := dropped.create next (Function.update_self ..) validCopy
      rw [List.nil_append, sameValues] at created
      refine ⟨_, created.congr rfl ?_ rfl⟩
      exact (Function.update_idem ..).symm
    · rintro fault next ⟨raised, quiet, refused⟩
      refine ⟨raised, ⟨0, sequences, if_neg same, shapes, sound.quiet listed quiet⟩, ?_⟩
      have spare : (Command.copyAssign name source).spare sequences = others.length := by
        simp [Command.spare, stored]
      rwa [spare]

theorem moveAssign_correct (sound : Sound world sequences shapes)
    (effect : (Command.moveAssign name source).effect environment sequences =
      some (outcome, later)) :
    Correct environment (.moveAssign name source) sequences world := by
  have unfolded := effect
  simp only [Command.effect, Option.bind_eq_bind, Option.bind_eq_some_iff] at unfolded
  obtain ⟨old, present, values, stored, ended⟩ := unfolded
  obtain ⟨head, entries, found, rfl⟩ := sound.shaped present
  obtain ⟨otherHead, others, sourceFound, rfl⟩ := sound.shaped stored
  obtain ⟨list, listed, valid⟩ := sound.listed found
  obtain ⟨sourceList, sourceListed, -⟩ := sound.laid.holds sourceFound
  rw [Correct, Command.run, runs_bind, runs_named listed, runs_bind, runs_named sourceListed]
  by_cases same : name = source
  · rw [if_pos same] at ended ⊢
    cases ended
    exact .effect effect ⟨shapes, sound⟩
  · rw [if_neg same] at ended ⊢
    cases ended
    rw [runs_bind, runs_call listed]
    apply (moveAssign_spec valid).mono
    · rintro left next ⟨taken, replacement, validLeft⟩
      rw [runs_bind, runs_rebind, runs_pure]
      have dropped := sound.drop world.requests found
      have exchanged := dropped.exchange world.requests name source
      have vacant : Function.update shapes name none (Equiv.swap name source source) = none := by
        rw [Equiv.swap_apply_right, Function.update_self]
      have created := exchanged.create { next with self := left } vacant validLeft
      refine .effect effect ⟨_, created.congr rfl ?_ rfl⟩
      have moved : Function.update world.lists name none source = some next.self := by
        rw [Function.update_of_ne (Ne.symm same), sourceListed, taken]
      show Function.update (Function.update world.lists name (some next.self)) source (some left) = _
      have again : Function.update (Function.update world.lists name none) name (some next.self) =
          Function.update world.lists name (some next.self) := Function.update_idem ..
      rw [← again, ← moved, update_swap]
      rfl
    · rintro fault next ⟨raised, quiet, refused⟩
      exact .raised effect raised 0 (if_neg same) refused ⟨shapes, sound.quiet listed quiet⟩

theorem swap_correct (sound : Sound world sequences shapes)
    (effect : (Command.swap name other).effect environment sequences = some (outcome, later)) :
    Correct environment (.swap name other) sequences world := by
  have unfolded := effect
  simp only [Command.effect, Option.bind_eq_bind, Option.bind_eq_some_iff] at unfolded
  obtain ⟨values, stored, others, otherStored, ended⟩ := unfolded
  cases ended
  obtain ⟨head, entries, found, rfl⟩ := sound.shaped stored
  obtain ⟨otherHead, otherEntries, otherFound, rfl⟩ := sound.shaped otherStored
  obtain ⟨list, listed, -⟩ := sound.laid.holds found
  obtain ⟨target, targeted, -⟩ := sound.laid.holds otherFound
  rw [Correct, Command.run, runs_bind, runs_named listed, runs_bind, runs_named targeted, runs_bind,
    runs_rebind, runs_bind, runs_rebind, runs_pure]
  have exchanged := sound.exchange world.requests name other
  refine .effect effect ⟨_, exchanged.congr rfl ?_ rfl⟩
  show Function.update (Function.update world.lists name (some target)) other (some list) =
    fun owner => world.lists (Equiv.swap name other owner)
  have back : some list = (fun owner => world.lists (Equiv.swap name other owner)) other := by
    simp only [Equiv.swap_apply_right, listed]
  rw [← targeted, update_swap, back, Function.update_eq_self]

end Assignments

end Wan.Container.ListContainer
