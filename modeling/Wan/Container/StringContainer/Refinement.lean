import Wan.Container.String.Compare
import Wan.Container.StringContainer.World

/-!
# Strings refine lists of characters

Every command on strings does to what they stand for what it does to lists, unless an allocation
fails, which leaves everything as it was, or a character is read after its buffer was given back.
What a program leaves are strings such as the comparison operators take them for.
-/

namespace Wan.Container.StringContainer

open Wan.Library Wan.Library.LinkedList Wan.Library.Program

/-- Every string stands for its list, no two of them share a buffer, and no other buffer is
allocated. -/
structure Refines (world : World) (lists : Lists) : Prop where
  named : ∀ name, (world.strings name).isSome = (lists name).isSome
  stands : ∀ name str list, world.strings name = some str → lists name = some list →
    Represents world.memory str list
  apart : ∀ first second str other block, world.strings first = some str →
    world.strings second = some other → str.memberData = some block →
      other.memberData = some block → first = second
  owned : ∀ block, world.memory.cells block ≠ none →
    ∃ name str, world.strings name = some str ∧ str.memberData = some block

/-- A command does what it does to the lists, or an allocation fails and nothing happens. -/
def Simulates (lists : Lists) (budget : Option Nat) (outcome : Option (World × Option Failure))
    (expected : Lists × Option Failure) : Prop :=
  ∃ later result, outcome = some (later, result) ∧
    (result = expected.2 ∧ Refines later expected.1 ∨
      result = some .badAlloc ∧ budget ≠ none ∧ Refines later lists)

variable {world : World} {lists : Lists} {memory later : Memory Character} {budget : Option Nat}
variable {name source first second : Nat} {str other result : Str}
variable {list new : List Character}

/-- The buffer of the string that a name holds. -/
def World.buffer (world : World) (name : Nat) : Option Addr :=
  (world.strings name).bind Str.memberData

namespace Refines

theorem start : Refines World.empty fun _ => none :=
  ⟨fun _ => rfl, nofun, nofun, fun _ live => absurd rfl live⟩

variable (refines : Refines world lists)

include refines

theorem exists_list (there : world.strings name = some str) :
    ∃ list, lists name = some list ∧ Represents world.memory str list := by
  have named := refines.named name
  rw [there] at named
  rcases Option.isSome_iff_exists.mp named.symm with ⟨list, listed⟩
  exact ⟨list, listed, refines.stands name str list there listed⟩

theorem eq_none_iff : world.strings name = none ↔ lists name = none := by
  rw [← Option.isNone_iff_eq_none, ← Option.isNone_iff_eq_none, ← Option.not_isSome,
    ← Option.not_isSome, refines.named name]

/-- Only the allocated buffers matter. -/
theorem congr (same : later.cells = world.memory.cells) :
    Refines { world with memory := later } lists where
  named := refines.named
  stands name str list there listed :=
    (refines.stands name str list there listed).congr fun block _ => congrFun same block
  apart := refines.apart
  owned block live := refines.owned block (same ▸ live)

/-- A name gets another string or none, in whose place its old buffer is kept or given back. -/
theorem replace {entry : Option Str} {list' : Option (List Character)}
    (named : entry.isSome = list'.isSome)
    (stands : ∀ str list, entry = some str → list' = some list → Represents later str list)
    (others : ∀ block, entry.bind Str.memberData ≠ some block →
      later.cells block = if world.buffer name = some block then none else
        world.memory.cells block)
    (taken : ∀ block, entry.bind Str.memberData = some block →
      world.buffer name = some block ∨ world.memory.cells block = none) :
    Refines ({ world with memory := later }.put name entry) (Function.update lists name list') := by
  -- The buffers of the other strings are neither the old nor the new one.
  have foreign : ∀ index str' block, index ≠ name → world.strings index = some str' →
      str'.memberData = some block →
        world.buffer name ≠ some block ∧ entry.bind Str.memberData ≠ some block := by
    intro index str' block different there own
    have old : world.buffer name ≠ some block := by
      intro shared
      obtain ⟨held, there', own'⟩ := Option.bind_eq_some_iff.mp shared
      exact different (refines.apart index name str' held block there there' own own')
    refine ⟨old, fun shared => ?_⟩
    obtain ⟨list, -, represents⟩ := refines.exists_list there
    obtain ⟨rest, live, -⟩ := represents.stored block own
    rw [(taken block shared).resolve_left old] at live
    cases live
  constructor
  · intro index
    rw [World.put_strings]
    by_cases same : index = name
    · rw [same, Function.update_self, Function.update_self, named]
    · rw [Function.update_of_ne same, Function.update_of_ne same]
      exact refines.named index
  · intro index str' list there listed
    rw [World.put_strings] at there
    by_cases same : index = name
    · rw [same, Function.update_self] at there listed
      exact stands str' list there listed
    · rw [Function.update_of_ne same] at there listed
      refine (refines.stands index str' list there listed).congr fun block own => ?_
      obtain ⟨old, new⟩ := foreign index str' block same there own
      exact (others block new).trans (if_neg old)
  · intro one two str' other block here there own shared
    rw [World.put_strings] at here there
    by_cases same : one = name
    · by_cases same' : two = name
      · rw [same, same']
      · rw [same, Function.update_self] at here
        rw [Function.update_of_ne same'] at there
        refine absurd ?_ (foreign two other block same' there shared).2
        rw [here]
        exact own
    · rw [Function.update_of_ne same] at here
      by_cases same' : two = name
      · rw [same', Function.update_self] at there
        refine absurd ?_ (foreign one str' block same here own).2
        rw [there]
        exact shared
      · rw [Function.update_of_ne same'] at there
        exact refines.apart one two str' other block here there own shared
  · intro block live
    rw [World.put_strings]
    by_cases new : entry.bind Str.memberData = some block
    · obtain ⟨held, there, own⟩ := Option.bind_eq_some_iff.mp new
      exact ⟨name, held, by rw [Function.update_self, there], own⟩
    · have kept : later.cells block ≠ none := live
      rw [others block new] at kept
      split at kept
      next => exact absurd rfl kept
      next old =>
        obtain ⟨index, held, there, own⟩ := refines.owned block kept
        refine ⟨index, held, ?_, own⟩
        rw [Function.update_of_ne, there]
        rintro rfl
        exact old (by rw [World.buffer, there]; exact own)

/-- A name gets what a method makes. -/
theorem put (yields : Yields world.memory (world.buffer name) new result later) :
    Refines ({ world with memory := later }.put name (some result))
      (Function.update lists name (some new)) :=
  refines.replace rfl
    (by
      rintro _ _ ⟨⟩ ⟨⟩
      exact yields.represents)
    yields.others yields.taken

/-- The string of a name is destroyed. -/
theorem remove (freed : ∀ block, later.cells block =
      if world.buffer name = some block then none else world.memory.cells block) :
    Refines ({ world with memory := later }.put name none) (lists.put name none) :=
  refines.replace rfl nofun (fun block _ => freed block) nofun

/-- Two names exchange what they hold. -/
theorem exchange : Refines (world.exchange first second) (lists.exchange first second) where
  named name := refines.named _
  stands name := refines.stands _
  apart one two str other block here there own shared :=
    (Equiv.swap first second).injective
      (refines.apart _ _ str other block here there own shared)
  owned block live := by
    obtain ⟨name, str, there, own⟩ := refines.owned block live
    refine ⟨Equiv.swap first second name, str, ?_, own⟩
    rw [World.exchange_strings, Function.comp_apply, Equiv.swap_apply_self, there]

end Refines

/-- A name holds a string and stands for its list. -/
structure Stands (world : World) (lists : Lists) (name : Nat) (str : Str)
    (list : List Character) : Prop where
  held : world.strings name = some str
  listed : lists name = some list
  represents : Represents world.memory str list

section Calls

variable {method : Method Str} {expected : Option Failure × List Character}
variable (refines : Refines world lists)

include refines

theorem Simulates.skip : Simulates lists budget (some (world, none)) (lists, none) :=
  ⟨world, none, rfl, .inl ⟨rfl, refines⟩⟩

/-- A method does what is expected of it, or it changes nothing. -/
theorem simulates_perform (ends : Ends method ⟨world.memory, budget⟩ expected.1
      (Yields world.memory (world.buffer name) expected.2)) :
    Simulates lists budget (world.perform budget name method) (lists.set name expected) := by
  rcases ends.outcome with
    ⟨result, after, ended, passed, -, yields⟩ | ⟨failure, after, ended, why, cells⟩
  · refine ⟨{ world with memory := after.memory }.put name (some result), none, ?_, .inl ?_⟩
    · rw [World.perform, ended]
      rfl
    · obtain ⟨refused, list⟩ := expected
      cases show refused = none from passed
      exact ⟨rfl, refines.put yields⟩
  · refine ⟨{ world with memory := after.memory }, some failure, ?_, ?_⟩
    · rw [World.perform, ended]
      rfl
    · have kept : Refines { world with memory := after.memory } lists := refines.congr cells
      rcases why with refused | ⟨rfl, limited⟩
      · obtain ⟨refusal, list⟩ := expected
        cases show refusal = some failure from refused
        exact .inl ⟨rfl, kept⟩
      · exact .inr ⟨rfl, limited, kept⟩

variable {α β : Type} {argument : Option α} {argument' : Option β}

/-- A method that makes a new string. -/
theorem simulates_create {means : α → β → Prop} {method : α → Method Str}
    {make : β → Option Failure × List Character} (given : Option.Rel means argument argument')
    (ends : ∀ here there, means here there →
      Ends (method here) ⟨world.memory, budget⟩ (make there).1
        (Yields world.memory none (make there).2)) :
    Simulates lists budget (world.create budget name argument method)
      (lists.create name argument' make) := by
  unfold World.create Lists.create
  cases named : world.strings name with
  | some str =>
      obtain ⟨list, listed, -⟩ := refines.exists_list named
      rw [listed]
      exact .skip refines
  | none =>
      rw [refines.eq_none_iff.mp named]
      cases given with
      | none => exact .skip refines
      | some meant =>
          have empty : world.buffer name = none := by
            rw [World.buffer, named]
            rfl
          refine simulates_perform refines ?_
          rw [empty]
          exact ends _ _ meant

/-- A method that changes a string. -/
theorem simulates_change {means : α → β → Prop} {method : Str → α → Method Str}
    {make : List Character → β → Option Failure × List Character}
    (given : Option.Rel means argument argument')
    (ends : ∀ str list here there, Stands world lists name str list → means here there →
        Ends (method str here) ⟨world.memory, budget⟩ (make list there).1
          (Yields world.memory str.memberData (make list there).2)) :
    Simulates lists budget (world.change budget name argument method)
      (lists.change name argument' make) := by
  unfold World.change Lists.change
  cases named : world.strings name with
  | none =>
      rw [refines.eq_none_iff.mp named]
      exact .skip refines
  | some str =>
      obtain ⟨list, listed, represents⟩ := refines.exists_list named
      rw [listed]
      cases given with
      | none => exact .skip refines
      | some meant =>
          have buffer : world.buffer name = str.memberData := by
            rw [World.buffer, named]
            rfl
          refine simulates_perform refines ?_
          rw [buffer]
          exact ends str list _ _ ⟨named, listed, represents⟩ meant

/-- A method that changes a string by itself. -/
theorem simulates_apply {method : Str → Unit → Method Str}
    {make : List Character → Unit → Option Failure × List Character}
    (ends : ∀ str list, Represents world.memory str list →
      Ends (method str ()) ⟨world.memory, budget⟩ (make list ()).1
        (Yields world.memory str.memberData (make list ()).2)) :
    Simulates lists budget (world.change budget name (some ()) method)
      (lists.change name (some ()) make) := by
  have given : Option.Rel Eq (some ()) (some ()) := .some rfl
  exact simulates_change refines given fun str list _ _ stands _ =>
    ends str list stands.represents

/-- Destroying the string of a name. -/
theorem exists_destroy : ∃ later, world.destroy budget name = some (later, none) ∧
    Refines later (lists.put name none) ∧
      later.strings = Function.update world.strings name none := by
  rw [World.destroy]
  cases there : world.strings name with
  | none =>
      refine ⟨world, rfl, ?_, (Function.update_eq_self_iff.mpr there.symm).symm⟩
      rwa [Lists.put, Function.update_eq_self_iff.mpr (refines.eq_none_iff.mp there).symm]
  | some str =>
      obtain ⟨list, listed, represents⟩ := refines.exists_list there
      have buffer : world.buffer name = str.memberData := by
        rw [World.buffer, there]
        rfl
      have runs : Runs str.destroy ⟨world.memory, budget⟩
          (fun _ after => ∀ block, after.memory.cells block =
            if world.buffer name = some block then none else world.memory.cells block)
          fun _ _ => False := by
        rw [buffer]
        exact runs_destroy represents fun later freed => freed
      rcases runs.outcome with ⟨⟨⟩, after, ended, freed⟩ | ⟨failure, after, ended, never⟩
      · refine ⟨{ world with memory := after.memory }.put name none, ?_, refines.remove freed, rfl⟩
        simp [ended]
      · exact never.elim

end Calls

section Arguments

variable (refines : Refines world lists)

include refines

theorem Refines.rel (name : Nat) :
    Option.Rel (Stands world lists name) (world.strings name) (lists name) := by
  cases there : world.strings name with
  | none =>
      rw [refines.eq_none_iff.mp there]
      exact .none
  | some str =>
      obtain ⟨list, listed, represents⟩ := refines.exists_list there
      rw [listed]
      exact .some ⟨there, listed, represents⟩

/-- What a pointer argument means: null has no characters. -/
def Text.Means (memory : Memory Character) (text : Text) (characters : List Character) : Prop :=
  text = .null ∧ characters = [] ∨ text.Denotes memory characters

theorem Refines.point (argument : TextArgument) :
    Option.Rel (Text.Means world.memory) (world.point argument) (lists.text argument) := by
  cases argument with
  | null => exact .some (.inl ⟨rfl, rfl⟩)
  | literal outside => exact .some (.inr rfl)
  | inside owner offset =>
      rw [World.point, Lists.text]
      cases there : world.strings owner with
      | none =>
          rw [refines.eq_none_iff.mp there]
          exact .none
      | some str =>
          obtain ⟨list, listed, represents⟩ := refines.exists_list there
          rw [listed]
          simp only [Option.bind_eq_bind, Option.bind_some, represents.size]
          split
          next within =>
            split
            next data own => exact .some (.inr (represents.denotes own within))
            next moved =>
              rw [represents.eq_nil moved, List.drop_nil, List.takeWhile_nil]
              exact .some (.inr rfl)
          next => exact .none

/-- Where the reference for an argument leads. -/
def Reference.Leads (world : World) (argument : Argument) (reference : Reference)
    (value : Character) : Prop :=
  reference.Reads world.memory value ∧ ∀ block index, reference = .element block index →
    ∃ owner str, argument = .element owner index ∧ world.strings owner = some str ∧
      str.memberData = some block ∧ index < str.memberSize

theorem Refines.refer (argument : Argument) :
    Option.Rel (Reference.Leads world argument) (world.refer argument) (lists.value argument) := by
  cases argument with
  | value here => exact .some ⟨rfl, nofun⟩
  | element owner index =>
      rw [World.refer, Lists.value]
      cases there : world.strings owner with
      | none =>
          rw [refines.eq_none_iff.mp there]
          exact .none
      | some str =>
          obtain ⟨list, listed, represents⟩ := refines.exists_list there
          rw [listed]
          simp only [Option.bind_eq_bind, Option.bind_some]
          cases own : str.memberData with
          | none =>
              rw [represents.eq_nil own]
              exact .none
          | some data =>
              obtain ⟨rest, live, -⟩ := represents.stored data own
              simp only [Option.bind_some, represents.size]
              split
              next within =>
                rw [List.getElem?_eq_getElem within]
                refine .some ⟨⟨_, live, ?_⟩, ?_⟩
                · rw [List.getElem?_append_left (by rwa [List.length_map]), List.getElem?_map,
                    List.getElem?_eq_getElem within]
                  rfl
                · rintro _ _ ⟨⟩
                  exact ⟨owner, str, rfl, there, own, represents.size.symm ▸ within⟩
              next outside =>
                rw [List.getElem?_eq_none (Nat.le_of_not_lt outside)]
                exact .none

end Arguments

section Texts

variable {buffers : Buffers Character} {text : Text} {characters : List Character}

theorem ends_constructMeans (means : text.Means buffers.memory characters) :
    Ends (Str.ofText text) buffers (lengthRefusal characters.length)
      (Yields buffers.memory none characters) := by
  rcases means with ⟨rfl, rfl⟩ | denotes
  · exact ends_ofNull
  · exact ends_ofText denotes

theorem ends_assignMeans (represents : Represents buffers.memory str list)
    (means : text.Means buffers.memory characters) :
    Ends (str.assignText text) buffers (lengthRefusal characters.length)
      (Yields buffers.memory str.memberData characters) := by
  rcases means with ⟨rfl, rfl⟩ | denotes
  · refine ends_assignText represents ?_
    rw [if_pos rfl]
    rfl
  · refine ends_assignText represents ?_
    rwa [if_neg denotes.ne_null]

/-- Null is no text to add. -/
theorem ends_nothing (represents : Represents buffers.memory str list) :
    Ends (pure str) buffers (lengthRefusal (list.length + ([] : List Character).length))
      (Yields buffers.memory str.memberData list) := by
  rw [List.length_nil, Nat.add_zero, lengthRefusal_of_le represents.length_le]
  exact ends_pure (.refl represents)

theorem ends_prependMeans (represents : Represents buffers.memory str list)
    (means : text.Means buffers.memory characters) :
    Ends (str.prepend text) buffers (lengthRefusal (list.length + characters.length))
      (Yields buffers.memory str.memberData (characters ++ list)) := by
  rcases means with ⟨rfl, rfl⟩ | denotes
  · exact ends_nothing represents
  · exact ends_prepend represents denotes

theorem ends_pushBackMeans (represents : Represents buffers.memory str list)
    (means : text.Means buffers.memory characters) :
    Ends (str.pushBackText text) buffers (lengthRefusal (list.length + characters.length))
      (Yields buffers.memory str.memberData (list ++ characters)) := by
  rcases means with ⟨rfl, rfl⟩ | denotes
  · rw [List.append_nil]
    exact ends_nothing represents
  · exact ends_pushBackText represents denotes

theorem ends_insertMeans {position : Nat} (represents : Represents buffers.memory str list)
    (means : text.Means buffers.memory characters) :
    Ends (str.insertSubString text position) buffers
      (insertRefusal list.length position characters.length)
      (Yields buffers.memory str.memberData
        (list.take position ++ characters ++ list.drop position)) := by
  rcases means with ⟨rfl, rfl⟩ | denotes
  · rw [Str.insertSubString, represents.size, List.append_nil, List.take_append_drop]
    refine ends_refuse (fun outside => if_pos outside) fun inside => ?_
    rw [insertRefusal, if_neg inside]
    exact ends_nothing represents
  · exact ends_insertSubString represents denotes

/-- A buffer of the program becomes the buffer of a string up to the first zero. -/
theorem runs_ofPointer {memory : Memory Character} {values : List Character}
    {spare : Slots Character} (fits : values.length ≤ maximumSize) :
    Runs (Str.ofPointer memory.next)
      ⟨memory.alloc (values.map some ++ some 0 :: spare), budget⟩
      (fun result after =>
        Yields memory none (values.takeWhile fun value => value ≠ 0) result after.memory)
      fun _ _ => False := by
  have live : (memory.alloc (values.map some ++ some 0 :: spare)).cells memory.next =
      some (([] ++ values).map some ++ some 0 :: spare) := Function.update_self ..
  have shorter : (values.takeWhile fun value => value ≠ 0).length ≤ values.length :=
    (List.takeWhile_prefix _).length_le
  have within := Nat.le_trans shorter fits
  obtain ⟨rest, slots⟩ := exists_terminated 0 values spare
  rw [Str.ofPointer, runs_bind, Buffer.runs_text live List.length_nil.symm, runs_bind, runs_refuse]
  refine ⟨fun above => absurd above (Nat.not_lt.mpr within), fun _ => ?_⟩
  exact .alloc rfl slots within (Nat.le_refl _) (Nat.le_add_right ..)

end Texts

section Step

variable {command : Command} (refines : Refines world lists)

include refines

omit refines in
theorem World.perform_eq_none {method : Method Str}
    (stuck : ¬Runs method ⟨world.memory, budget⟩ (fun _ _ => True) fun _ _ => True) :
    world.perform budget name method = none := by
  have nothing : method.run.run ⟨world.memory, budget⟩ = none :=
    not_not.mp fun some => stuck (run_ne_none.mp some)
  rw [World.perform, nothing]
  rfl

/-- The reference to a character of a string leads into its buffer. -/
theorem Refines.refer_own {index : Nat} (there : world.strings name = some str)
    (inside : index < str.memberSize) : ∃ data list, str.memberData = some data ∧
      Represents world.memory str list ∧
        world.refer (.element name index) = some (.element data index) := by
  obtain ⟨list, -, represents⟩ := refines.exists_list there
  have nonempty : list ≠ [] := by
    rintro rfl
    rw [represents.size] at inside
    cases inside
  obtain ⟨data, own⟩ := represents.exists_data nonempty
  refine ⟨data, list, own, represents, ?_⟩
  simp [World.refer, there, own, inside]

/-- A command that gives a character of a string to the string itself has no behaviour when the
buffer is replaced before. -/
theorem step_eq_none (dangles : world.Dangles budget command) :
    world.step budget command = none := by
  cases command with
  | pushBack name value =>
      cases value with
      | value here => exact dangles.elim
      | element owner index =>
          obtain ⟨rfl, granted, str, there, inside, full, fits⟩ := dangles
          obtain ⟨data, list, own, represents, refers⟩ := refines.refer_own there inside
          have fits : list.length + 1 ≤ maximumSize := represents.size ▸ fits
          rw [World.step]
          unfold World.change
          rw [there, refers]
          exact World.perform_eq_none (not_runs_pushBack represents own fits full granted)
  | resize name inaugurateSize value =>
      cases value with
      | value here => exact dangles.elim
      | element owner index =>
          obtain ⟨rfl, granted, str, there, inside, short, fits⟩ := dangles
          obtain ⟨data, list, own, represents, refers⟩ := refines.refer_own there inside
          rw [World.step]
          unfold World.change
          rw [there, refers]
          exact World.perform_eq_none (not_runs_resize represents own fits short granted)
  | _ => exact dangles.elim

/-- A reference that leads into the buffer of a string comes from the string itself. -/
theorem Refines.exists_own {argument : Argument} {reference : Reference} {value : Character}
    (there : world.strings name = some str) (leads : reference.Leads world argument value)
    (shared : ¬reference.Apart str) :
    ∃ index, argument = .element name index ∧ index < str.memberSize := by
  cases reference with
  | outside here => exact absurd trivial shared
  | element block index =>
      have own : str.memberData = some block := not_not.mp shared
      obtain ⟨owner, other, rfl, there', own', inside⟩ := leads.2 block index rfl
      cases refines.apart name owner str other block there there' own own'
      cases there.symm.trans there'
      exact ⟨index, rfl, inside⟩

omit refines in
/-- Two things that may be missing. -/
theorem rel_pair {α β γ δ : Type} {means : α → β → Prop} {means' : γ → δ → Prop}
    {one : Option α} {one' : Option β} {two : Option γ} {two' : Option δ}
    (first : Option.Rel means one one') (second : Option.Rel means' two two') :
    Option.Rel (fun pair pair' => means pair.1 pair'.1 ∧ means' pair.2 pair'.2)
      (do return (← one, ← two)) (do return (← one', ← two')) := by
  cases first with
  | none => exact .none
  | some meant =>
      cases second with
      | none => exact .none
      | some meant' => exact .some ⟨meant, meant'⟩

omit refines in
theorem yields_moved : Yields memory none [] .moved memory :=
  ⟨represents_moved, fun block _ => (if_neg (Option.some_ne_none block).symm).symm, nofun⟩

/-- A name without a string gets a moved-from one. -/
theorem Refines.putMoved (absent : world.strings name = none) :
    Refines (world.put name (some .moved)) (lists.put name (some [])) := by
  have empty : world.buffer name = none := by
    rw [World.buffer, absent]
    rfl
  have yields : Yields world.memory (world.buffer name) [] .moved world.memory := by
    rw [empty]
    exact yields_moved
  exact refines.put yields

theorem simulates_adopt {outside : Literal} {spare : Nat} :
    Simulates lists budget
      (match world.strings name with
      | none =>
          let buffer := outside.characters.map some ++ some 0 :: List.replicate spare none
          World.perform { world with memory := world.memory.alloc buffer } budget name
            (Str.ofPointer world.memory.next)
      | some _ => some (world, none))
      (lists.create name (lists.text (.literal outside)) fun characters => (none, characters)) := by
  unfold Lists.create
  cases named : world.strings name with
  | some str =>
      obtain ⟨list, listed, -⟩ := refines.exists_list named
      rw [listed]
      exact .skip refines
  | none =>
      rw [refines.eq_none_iff.mp named]
      have empty : world.buffer name = none := by
        rw [World.buffer, named]
        rfl
      rcases (runs_ofPointer outside.fits).outcome with
        ⟨result, after, ended, yields⟩ | ⟨failure, after, ended, never⟩
      · refine ⟨{ world with memory := after.memory }.put name (some result), none, ?_, .inl ?_⟩
        · dsimp only
          rw [World.perform, ended]
          rfl
        · exact ⟨rfl, refines.put (empty.symm ▸ yields)⟩
      · exact never.elim

theorem simulates_moveConstruct : Simulates lists budget
      (match world.strings name, world.strings source with
      | none, some _ => some ((world.exchange name source).put source (some .moved), none)
      | _, _ => some (world, none))
      (match lists name, lists source with
      | none, some _ => ((lists.exchange name source).put source (some []), none)
      | _, _ => (lists, none)) := by
  cases absent : world.strings name with
  | some str =>
      obtain ⟨list, listed, -⟩ := refines.exists_list absent
      rw [listed]
      exact .skip refines
  | none =>
      rw [refines.eq_none_iff.mp absent]
      cases there : world.strings source with
      | none =>
          rw [refines.eq_none_iff.mp there]
          exact .skip refines
      | some str =>
          obtain ⟨list, listed, -⟩ := refines.exists_list there
          rw [listed]
          have moved : (world.exchange name source).strings source = none := by
            rw [World.exchange_strings, Function.comp_apply, Equiv.swap_apply_right, absent]
          exact ⟨_, _, rfl, .inl ⟨rfl, refines.exchange.putMoved moved⟩⟩

theorem simulates_moveAssign : Simulates lists budget
      (match world.strings name, world.strings source with
      | some _, some _ =>
          if name = source then some (world, none)
          else do
            let (destroyed, failure) ← world.destroy budget name
            return ((destroyed.exchange name source).put source (some .moved), failure)
      | _, _ => some (world, none))
      (match lists name, lists source with
      | some _, some _ =>
          if name = source then (lists, none)
          else (((lists.put name none).exchange name source).put source (some []), none)
      | _, _ => (lists, none)) := by
  cases here : world.strings name with
  | none =>
      rw [refines.eq_none_iff.mp here]
      exact .skip refines
  | some str =>
      obtain ⟨list, listed, -⟩ := refines.exists_list here
      rw [listed]
      cases there : world.strings source with
      | none =>
          rw [refines.eq_none_iff.mp there]
          exact .skip refines
      | some other =>
          obtain ⟨more, listed', -⟩ := refines.exists_list there
          rw [listed']
          dsimp only
          split
          next => exact .skip refines
          next =>
            obtain ⟨later, destroyed, refines', strings⟩ :
                ∃ later, world.destroy budget name = some (later, none) ∧
                  Refines later (lists.put name none) ∧
                    later.strings = Function.update world.strings name none :=
              exists_destroy refines
            have moved : (later.exchange name source).strings source = none := by
              rw [World.exchange_strings, Function.comp_apply, Equiv.swap_apply_right, strings,
                Function.update_self]
            refine ⟨(later.exchange name source).put source (some .moved), none, ?_, .inl ?_⟩
            · rw [destroyed]
              rfl
            · exact ⟨rfl, refines'.exchange.putMoved moved⟩

theorem simulates_swap : Simulates lists budget
      (match world.strings first, world.strings second with
      | some _, some _ => some (world.exchange first second, none)
      | _, _ => some (world, none))
      (match lists first, lists second with
      | some _, some _ => (lists.exchange first second, none)
      | _, _ => (lists, none)) := by
  cases here : world.strings first with
  | none =>
      rw [refines.eq_none_iff.mp here]
      exact .skip refines
  | some str =>
      obtain ⟨list, listed, -⟩ := refines.exists_list here
      rw [listed]
      cases there : world.strings second with
      | none =>
          rw [refines.eq_none_iff.mp there]
          exact .skip refines
      | some other =>
          obtain ⟨more, listed', -⟩ := refines.exists_list there
          rw [listed']
          exact ⟨_, _, rfl, .inl ⟨rfl, refines.exchange⟩⟩

/-- Every other command does what it does to the lists. -/
theorem step_simulates (fine : ¬world.Dangles budget command) :
    Simulates lists budget (world.step budget command) (lists.step command) := by
  cases command with
  | construct name text =>
      exact simulates_create refines (refines.point text) fun _ _ means => ends_constructMeans means
  | adopt name outside spare =>
      rw [World.step, Lists.step]
      exact simulates_adopt refines
  | constructList name outside =>
      have given : Option.Rel Eq (some outside) (some outside) := .some rfl
      refine simulates_create refines given ?_
      rintro outside _ rfl
      exact ends_ofCharacters outside.fits
  | copyConstruct name source =>
      exact simulates_create refines (refines.rel source)
        fun _ _ stands => ends_copy stands.represents
  | moveConstruct name source =>
      rw [World.step, Lists.step]
      exact simulates_moveConstruct refines
  | destroy name =>
      obtain ⟨later, destroyed, refines', -⟩ := exists_destroy refines
      exact ⟨later, none, destroyed, .inl ⟨rfl, refines'⟩⟩
  | copyAssign target source =>
      rw [World.step, Lists.step]
      split
      next => exact .skip refines
      next =>
        exact simulates_change refines (refines.rel source) fun _ _ _ _ stands stands' =>
          ends_assign stands.represents stands'.represents
  | assignText name text =>
      exact simulates_change refines (refines.point text)
        fun _ _ _ _ stands means => ends_assignMeans stands.represents means
  | moveAssign target source =>
      rw [World.step, Lists.step]
      exact simulates_moveAssign refines
  | swap first second =>
      rw [World.step, Lists.step]
      exact simulates_swap refines
  | uppercase name =>
      exact simulates_apply refines fun _ _ represents => ends_convertAll represents
  | lowercase name =>
      exact simulates_apply refines fun _ _ represents => ends_convertAll represents
  | prepend name text =>
      exact simulates_change refines (refines.point text)
        fun _ _ _ _ stands means => ends_prependMeans stands.represents means
  | insertSubString name text startPosition =>
      exact simulates_change refines (refines.point text)
        fun _ _ _ _ stands means => ends_insertMeans stands.represents means
  | pushBack name value =>
      refine simulates_change refines (refines.refer value)
        fun str list reference here stands leads => ?_
      have represents := stands.represents
      refine ends_pushBack represents leads.1 fun fits full granted => not_not.mp fun shared => ?_
      obtain ⟨index, rfl, inside⟩ := refines.exists_own stands.held leads shared
      exact fine ⟨rfl, granted, str, stands.held, inside, full, represents.size.symm ▸ fits⟩
  | pushBackString name other =>
      refine simulates_change refines (refines.rel other)
        fun str list source more stands stands' => ?_
      split
      next same =>
        subst same
        cases stands.held.symm.trans stands'.held
        cases stands.listed.symm.trans stands'.listed
        exact ends_pushBackSelf stands.represents
      next different =>
        refine ends_pushBackOther stands.represents stands'.represents fun block own own' => ?_
        exact different
          (refines.apart name other str source block stands.held stands'.held own own')
  | pushBackText name text =>
      exact simulates_change refines (refines.point text)
        fun _ _ _ _ stands means => ends_pushBackMeans stands.represents means
  | resize name inaugurateSize value =>
      refine simulates_change refines (refines.refer value)
        fun str list reference here stands leads => ?_
      have represents := stands.represents
      refine ends_resize represents (fun _ => leads.1) fun fits short granted =>
        not_not.mp fun shared => ?_
      obtain ⟨index, rfl, inside⟩ := refines.exists_own stands.held leads shared
      exact fine ⟨rfl, granted, str, stands.held, inside, short, fits⟩
  | reserve name newContainerCapacity =>
      exact simulates_apply refines fun _ _ represents =>
        (ends_allocateResources represents newContainerCapacity).mono fun _ _ => Grows.toYields
  | writeAt name accessLocation value =>
      exact simulates_apply refines fun _ _ represents => ends_writeAt represents
  | subString name source startPosition =>
      exact simulates_create refines (refines.rel source)
        fun _ _ stands => ends_subString stands.represents
  | subStringFrom name source startPosition =>
      exact simulates_create refines (refines.rel source)
        fun _ _ stands => ends_subStringFrom stands.represents
  | subStringTo name source startPosition terminatePosition =>
      exact simulates_create refines (refines.rel source)
        fun _ _ stands => ends_subStringTo stands.represents
  | reverse name source =>
      exact simulates_create refines (refines.rel source)
        fun _ _ stands => ends_reverse stands.represents
  | reverseSubString name source startPosition terminatePosition =>
      exact simulates_create refines (refines.rel source)
        fun _ _ stands => ends_reverseSubString stands.represents
  | plus name source other =>
      have given := rel_pair (refines.rel source) (refines.rel other)
      exact simulates_create refines given fun _ _ stands =>
        ends_plus stands.1.represents stands.2.represents

end Step

section Run

/-- What commands do to lists, when an allocation of some of them may fail. -/
inductive Lists.Run : Lists → List (Option Nat × Command) → List (Option Failure) → Lists → Prop
  | finish {lists : Lists} : Lists.Run lists [] [] lists
  | does {lists last : Lists} {budget : Option Nat} {command : Command}
      {commands : List (Option Nat × Command)} {outcomes : List (Option Failure)}
      (rest : Lists.Run (lists.step command).1 commands outcomes last) :
      Lists.Run lists ((budget, command) :: commands) ((lists.step command).2 :: outcomes) last
  | fails {lists last : Lists} {granted : Nat} {command : Command}
      {commands : List (Option Nat × Command)} {outcomes : List (Option Failure)}
      (rest : Lists.Run lists commands outcomes last) :
      Lists.Run lists ((some granted, command) :: commands) (some .badAlloc :: outcomes) last

/-- A program comes to a command that dangles. -/
def World.Misuses (world : World) (program : List (Option Nat × Command)) : Prop :=
  ∃ before budget command after reached outcomes, program = before ++ (budget, command) :: after ∧
    world.run before = some (reached, outcomes) ∧ reached.Dangles budget command

theorem World.run_cons {later : World} {outcome : Option Failure} {command : Command}
    (steps : world.step budget command = some (later, outcome))
    (commands : List (Option Nat × Command)) : world.run ((budget, command) :: commands) =
      (later.run commands).map fun ended => (ended.1, outcome :: ended.2) := by
  rw [World.run, steps]
  simp only [Option.bind_eq_bind, Option.bind_some]
  cases later.run commands <;> rfl

/-- A first command that does not dangle changes nothing about whether a later one does. -/
theorem World.misuses_cons {later : World} {outcome : Option Failure} {command : Command}
    (steps : world.step budget command = some (later, outcome))
    (fine : ¬world.Dangles budget command) (commands : List (Option Nat × Command)) :
    world.Misuses ((budget, command) :: commands) ↔ later.Misuses commands := by
  constructor
  · rintro ⟨before, granted, dangling, after, reached, outcomes, split, ran, dangles⟩
    cases before with
    | nil =>
        cases ran
        cases split
        exact absurd dangles fine
    | cons first before =>
        cases split
        rw [World.run_cons steps] at ran
        obtain ⟨⟨_, _⟩, found, same⟩ := Option.map_eq_some_iff.mp ran
        cases same
        exact ⟨before, granted, dangling, after, _, _, rfl, found, dangles⟩
  · rintro ⟨before, granted, dangling, after, reached, outcomes, rfl, ran, dangles⟩
    refine ⟨(budget, command) :: before, granted, dangling, after, reached, outcome :: outcomes,
      rfl, ?_, dangles⟩
    rw [World.run_cons steps, ran]
    rfl

theorem run_refines (program : List (Option Nat × Command)) :
    ∀ {world : World} {lists : Lists}, Refines world lists →
      (world.run program = none ↔ world.Misuses program) ∧
        ∀ last outcomes, world.run program = some (last, outcomes) →
          ∃ lists', Lists.Run lists program outcomes lists' ∧ Refines last lists' := by
  induction program with
  | nil =>
      intro world lists refines
      refine ⟨⟨nofun, ?_⟩, ?_⟩
      · rintro ⟨before, _, _, _, _, _, split, -⟩
        cases before <;> cases split
      · rintro _ _ ⟨⟩
        exact ⟨lists, .finish, refines⟩
  | cons call program ih =>
      intro world lists refines
      obtain ⟨budget, command⟩ := call
      by_cases dangles : world.Dangles budget command
      · have stuck : world.run ((budget, command) :: program) = none := by
          rw [World.run, step_eq_none refines dangles]
          rfl
        refine ⟨⟨fun _ => ?_, fun _ => stuck⟩, fun last outcomes ran => ?_⟩
        · exact ⟨[], budget, command, program, world, [], rfl, rfl, dangles⟩
        · cases stuck.symm.trans ran
      · obtain ⟨later, outcome, steps, simulates⟩ := step_simulates refines dangles
        obtain ⟨lists', refines', runs⟩ : ∃ lists', Refines later lists' ∧
            ∀ outcomes last, Lists.Run lists' program outcomes last →
              Lists.Run lists ((budget, command) :: program) (outcome :: outcomes) last := by
          rcases simulates with ⟨rfl, refines'⟩ | ⟨rfl, limited, refines'⟩
          · exact ⟨_, refines', fun _ _ => .does⟩
          · obtain ⟨granted, rfl⟩ := Option.ne_none_iff_exists'.mp limited
            exact ⟨lists, refines', fun _ _ => .fails⟩
        obtain ⟨stuck, follows⟩ := ih refines'
        rw [World.run_cons steps, Option.map_eq_none_iff, World.misuses_cons steps dangles]
        refine ⟨stuck, fun last outcomes ran => ?_⟩
        obtain ⟨⟨ended, outcomes'⟩, found, same⟩ := Option.map_eq_some_iff.mp ran
        cases same
        obtain ⟨lists'', runs', refines''⟩ := follows _ _ found
        exact ⟨lists'', runs _ _ runs', refines''⟩

/-- Whatever a program does with strings, they stand for the lists that the same commands make,
with a terminating zero behind the characters, a buffer of its own for each of them and no buffer
besides; a command that throws leaves the lists as they were.  The only programs without behaviour
are those that hand a character of a full string to the string itself. -/
theorem strings_refine_characters (program : List (Option Nat × Command)) :
    (World.empty.run program = none ↔ World.empty.Misuses program) ∧
      ∀ last outcomes, World.empty.run program = some (last, outcomes) →
        ∃ lists, Lists.Run (fun _ => none) program outcomes lists ∧ Refines last lists :=
  run_refines program .start

/-- "ab" is pushed back to itself after a failed allocation, gets a part of itself, is cut out of
range and moved; the moved-from string gets a character. -/
def editingProgram : List (Option Nat × Command) :=
  [(none, .construct 0 (.literal ⟨[97, 98], by decide⟩)), (some 0, .pushBackString 0 0),
    (none, .pushBackString 0 0), (none, .insertSubString 0 (.inside 0 2) 1),
    (none, .subString 1 0 9), (none, .moveConstruct 2 0), (some 1, .pushBack 0 (.element 2 3))]

theorem strings_refine_characters_editing : ∃ last lists,
    World.empty.run editingProgram = some (last, [none, some .badAlloc, none, none,
      some (.fault "传入参数位置越界" "sub_string"), none, none]) ∧ Refines last lists := by
  obtain ⟨lists, -, refines⟩ := (strings_refine_characters editingProgram).2 _ _ rfl
  exact ⟨_, lists, rfl, refines⟩

end Run

section Comparisons

/-- A string as the comparison operators read it: up to its terminating zero. -/
def Represents.compared (represents : Represents memory str list) : String.Str Character where
  memberData := str.memberData.map fun _ => list ++ [0]
  memberSize := str.memberSize
  terminated buffer member := by
    obtain ⟨data, -, rfl⟩ := Option.map_eq_some_iff.mp member
    rw [List.length_append, represents.size]
    exact Nat.lt_succ_self _
  moved absent := by
    have empty := represents.moved (Option.map_eq_none_iff.mp absent)
    exact Nat.le_zero.mp (empty ▸ represents.bound)

theorem Represents.characters_compared (represents : Represents memory str list) :
    represents.compared.characters = list := by
  change ((str.memberData.map fun _ => list ++ [0]).getD []).take str.memberSize = list
  cases data : str.memberData with
  | none =>
      have empty : list.length ≤ 0 :=
        represents.size ▸ represents.moved data ▸ represents.bound
      rw [List.length_eq_zero_iff.mp (Nat.le_zero.mp empty)]
      exact List.take_nil
  | some data => simp [represents.size]

/-- They read what is in the buffer. -/
theorem Represents.read_compared (represents : Represents memory str list) {data : Addr}
    (held : str.memberData = some data) {index : Nat} (inside : index ≤ str.memberSize) :
    (memory.cells data).bind (·[index]?) = some (represents.compared.read index) := by
  obtain ⟨rest, stored, -⟩ := represents.stored data held
  have split : list.map some ++ some 0 :: rest = (list ++ [0]).map some ++ rest := by simp
  have within : index < (list ++ [0]).length := by
    rw [List.length_append, ← represents.size]
    exact Nat.lt_succ_of_le inside
  have read : represents.compared.read index =
      (str.memberData.map fun _ => list ++ [0]).bind (·[index]?) := rfl
  rw [read, held, Option.map_some, Option.bind_some, stored, Option.bind_some, split,
    List.getElem?_append_left (by rwa [List.length_map]), List.getElem?_map,
    List.getElem?_eq_getElem within]
  rfl

/-- The strings that a program leaves are compared by the characters that they stand for. -/
theorem compared_of_run {program : List (Option Nat × Command)} {last : World}
    {outcomes : List (Option Failure)} (ran : World.empty.run program = some (last, outcomes)) :
    ∃ lists, Lists.Run (fun _ => none) program outcomes lists ∧
      ∀ name str, last.strings name = some str → ∃ string : String.Str Character,
        string.memberSize = str.memberSize ∧ lists name = some string.characters ∧
          ∀ data, str.memberData = some data → ∀ index ≤ str.memberSize,
            (last.memory.cells data).bind (·[index]?) = some (string.read index) := by
  obtain ⟨lists, runs, refines⟩ := (run_refines program .start).2 last outcomes ran
  refine ⟨lists, runs, ?_⟩
  intro name str there
  obtain ⟨list, listed, represents⟩ := refines.exists_list there
  refine ⟨represents.compared, rfl, ?_, fun data held index => represents.read_compared held⟩
  rw [represents.characters_compared, listed]

end Comparisons

end Wan.Container.StringContainer
