import Wan.Container.StringContainer.Model

/-!
# What the methods of a string do

One specification for each member function: from a string that stands for a list of characters
it makes one that stands for the list it should, and touches no other buffer.  When it throws,
all buffers are as they were.
-/

namespace Wan.Container.StringContainer

open Wan.Library Wan.Library.LinkedList Wan.Library.Program

/-- A string stands for its characters: they come first in its buffer, then the terminating zero,
and there is room for as many characters as the capacity says. -/
structure Represents (memory : Memory Character) (str : Str) (list : List Character) : Prop where
  size : str.memberSize = list.length
  bound : str.memberSize ≤ str.memberCapacity
  limit : str.memberCapacity ≤ maximumSize
  moved : str.memberData = none → str.memberCapacity = 0
  stored : ∀ data, str.memberData = some data → ∃ rest,
    memory.cells data = some (list.map some ++ some 0 :: rest) ∧
      str.memberCapacity ≤ list.length + rest.length

/-- What a method that makes a string leaves behind, when it began with the buffer `old`. -/
structure Yields (memory : Memory Character) (old : Option Addr) (list : List Character)
    (result : Str) (later : Memory Character) : Prop where
  represents : Represents later result list
  others : ∀ block, result.memberData ≠ some block →
    later.cells block = if old = some block then none else memory.cells block
  taken : ∀ block, result.memberData = some block → old = some block ∨ memory.cells block = none

/-- A method throws `refused`, or it returns what satisfies `post`; an allocation may fail
before.  When the method throws, all buffers are as they were. -/
def Ends {α : Type} (method : Method α) (buffers : Buffers Character) (refused : Option Failure)
    (post : α → Memory Character → Prop) : Prop :=
  Runs method buffers
    (fun value after => refused = none ∧ (after.budget = none ↔ buffers.budget = none) ∧
      post value after.memory)
    (fun failure after => (refused = some failure ∨
      failure = .badAlloc ∧ buffers.budget ≠ none) ∧ after.memory.cells = buffers.memory.cells)

/-- A method that allocates once fails only when the allocation does. -/
def EndsOnce {α : Type} (method : Method α) (buffers : Buffers Character)
    (post : α → Memory Character → Prop) : Prop :=
  Runs method buffers
    (fun value after => (after.budget = none ↔ buffers.budget = none) ∧ post value after.memory)
    (fun failure after => failure = .badAlloc ∧ buffers.budget = some 0 ∧
      after.memory.cells = buffers.memory.cells)

variable {α β : Type} {buffers : Buffers Character} {memory middle later : Memory Character}
variable {str other grown result : Str} {list new : List Character} {refused : Option Failure}
variable {old : Option Addr} {data : Addr}

section Rules

variable {method : Method α} {next : α → Method β} {post : β → Memory Character → Prop}

theorem ends_pure {value : α} {post : α → Memory Character → Prop}
    (holds : post value buffers.memory) : Ends (pure value) buffers none post :=
  ⟨rfl, Iff.rfl, holds⟩

theorem ends_throw {failure : Failure} {post : α → Memory Character → Prop} :
    Ends (throw failure) buffers (some failure) post :=
  ⟨.inl rfl, rfl⟩

theorem Ends.mono {post otherPost : α → Memory Character → Prop}
    (ends : Ends method buffers refused post)
    (weaker : ∀ value later, post value later → otherPost value later) :
    Ends method buffers refused otherPost :=
  Runs.mono ends (fun _ _ ended => ⟨ended.1, ended.2.1, weaker _ _ ended.2.2⟩) fun _ _ => id

theorem ends_refuse {condition : Prop} [Decidable condition] {failure : Failure}
    {next : Unit → Method β} (refuses : condition → refused = some failure)
    (passes : ¬condition → Ends (next ()) buffers refused post) :
    Ends (Program.refuse condition failure >>= next) buffers refused post := by
  rw [Ends, runs_bind, runs_refuse]
  exact ⟨fun holds => ⟨.inl (refuses holds), rfl⟩, passes⟩

/-- What follows a method must not throw, unless it cleans up. -/
theorem Ends.bind {between : α → Memory Character → Prop}
    (ends : Ends method buffers none between)
    (rest : ∀ value after, (after.budget = none ↔ buffers.budget = none) →
      between value after.memory → Runs (next value) after
        (fun result last => refused = none ∧ (last.budget = none ↔ after.budget = none) ∧
          post result last.memory)
        fun failure last => (refused = some failure ∨
          failure = .badAlloc ∧ after.budget ≠ none) ∧
            last.memory.cells = buffers.memory.cells) :
    Ends (method >>= next) buffers refused post := by
  rw [Ends, runs_bind]
  refine Runs.mono ends ?_ ?_
  · rintro value after ⟨-, budget, holds⟩
    refine Runs.mono (rest value after budget holds) ?_ ?_
    · rintro result last ⟨passed, budget', holds⟩
      exact ⟨passed, budget'.trans budget, holds⟩
    · rintro failure last ⟨why, cells⟩
      refine ⟨why.imp_right fun failed => ⟨failed.1, ?_⟩, cells⟩
      exact fun unlimited => failed.2 (budget.mpr unlimited)
  · rintro failure last ⟨why, cells⟩
    exact ⟨.inr (why.resolve_left nofun), cells⟩

theorem EndsOnce.ends {post : α → Memory Character → Prop} (once : EndsOnce method buffers post) :
    Ends method buffers none post := by
  refine Runs.mono once ?_ ?_
  · rintro value after ⟨same, holds⟩
    exact ⟨rfl, same, holds⟩
  · rintro failure after ⟨rfl, used, cells⟩
    refine ⟨.inr ⟨rfl, ?_⟩, cells⟩
    rw [used]
    exact Option.some_ne_none 0

/-- When the allocation does not fail, what follows the method is reached. -/
theorem EndsOnce.exists_runs {between : α → Memory Character → Prop}
    {post : β → Buffers Character → Prop} {raises : Failure → Buffers Character → Prop}
    (once : EndsOnce method buffers between) (granted : buffers.budget ≠ some 0)
    (runs : Runs (method >>= next) buffers post raises) :
    ∃ value after, between value after.memory ∧ Runs (next value) after post raises := by
  rw [runs_bind] at runs
  rcases once.outcome with ⟨value, after, ended, -, holds⟩ | ⟨failure, after, ended, -, used, -⟩
  · exact ⟨value, after, holds, runs.ended ended⟩
  · exact absurd used granted

/-- Counting an allocation fails or leaves everything but the budget as it is. -/
theorem runs_spend_of {post : Unit → Buffers Character → Prop}
    {raises : Failure → Buffers Character → Prop}
    (failing : buffers.budget = some 0 → raises .badAlloc buffers)
    (passing : ∀ budget, (budget = none ↔ buffers.budget = none) →
      post () ⟨buffers.memory, budget⟩) : Runs (Buffer.spend .badAlloc) buffers post raises := by
  rw [Buffer.runs_spend]
  refine ⟨failing, fun all => ?_, fun left some => ?_⟩
  · have kept := passing none (by simp [all])
    rwa [← all] at kept
  · exact passing _ (by simp [some])

/-- An allocation and what is done with the new block. -/
theorem once_allocate {content : Slots Character} {next : Addr → Method β}
    (rest : ∀ budget, Runs (next buffers.memory.next) ⟨buffers.memory.alloc content, budget⟩
      (fun result last => last.budget = budget ∧ post result last.memory) fun _ _ => False) :
    EndsOnce (Buffer.allocate .badAlloc content >>= next) buffers post := by
  rw [EndsOnce, runs_bind, Buffer.runs_allocate]
  refine runs_spend_of (fun used => ⟨rfl, used, rfl⟩) fun budget same => ?_
  refine Runs.mono (rest budget) ?_ fun _ _ => False.elim
  rintro result last ⟨rfl, holds⟩
  exact ⟨same, holds⟩

/-- A program that ends has an outcome, and only such a program has one. -/
theorem run_ne_none {method : Method α} : (method.run.run buffers) ≠ none ↔
    Runs method buffers (fun _ _ => True) fun _ _ => True := by
  unfold Runs
  rcases method.run.run buffers with _ | ⟨_ | _, _⟩ <;> simp

end Rules

section Texts

/-- The characters that a pointer denotes. -/
def Text.Denotes (memory : Memory Character) (characters : List Character) : Text → Prop
  | .null => False
  | .literal outside => characters = outside.characters.takeWhile fun value => value ≠ 0
  | .inside block offset => ∃ (before after : List Character) (rest : Slots Character),
      memory.cells block = some ((before ++ after).map some ++ some 0 :: rest) ∧
        offset = before.length ∧ characters = after.takeWhile fun value => value ≠ 0

variable {text : Text} {characters : List Character}

theorem Text.Denotes.ne_null (denotes : text.Denotes memory characters) : text ≠ .null := by
  rintro rfl
  exact denotes

theorem runs_readText {post : List Character → Buffers Character → Prop}
    {raises : Failure → Buffers Character → Prop}
    (denotes : text.Denotes buffers.memory characters) :
    Runs text.read buffers post raises ↔ post characters buffers := by
  cases text with
  | null => exact denotes.elim
  | literal outside =>
      rw [show characters = _ from denotes]
      exact runs_pure
  | inside block offset =>
      obtain ⟨before, after, rest, live, position, rfl⟩ := denotes
      exact Buffer.runs_text live position

variable {next : List Character → Method β} {post : β → Memory Character → Prop}

theorem ends_read (denotes : text.Denotes buffers.memory characters)
    (rest : Ends (next characters) buffers refused post) :
    Ends (text.read >>= next) buffers refused post := by
  rw [Ends, runs_bind, runs_readText denotes]
  exact rest

/-- Staging a C string makes the rest of the method independent of the buffer it is in. -/
theorem ends_stage (denotes : text.Denotes buffers.memory characters)
    (rest : ∀ budget, Ends (next characters) ⟨buffers.memory, budget⟩ refused post) :
    Ends (text.stage >>= next) buffers refused post := by
  rw [Ends, Text.stage, runs_bind, runs_bind, runs_readText denotes, runs_bind]
  refine runs_spend_of (fun used => ⟨.inr ⟨rfl, ?_⟩, rfl⟩) fun budget same => ?_
  · rw [used]
    exact Option.some_ne_none 0
  rw [runs_pure]
  refine Runs.mono (rest budget) ?_ ?_
  · rintro result last ⟨none, same', holds⟩
    exact ⟨none, same'.trans same, holds⟩
  · rintro failure last ⟨why, cells⟩
    refine ⟨why.imp_right fun out => ⟨out.1, ?_⟩, cells⟩
    exact fun unlimited => out.2 (same.mpr unlimited)

end Texts

section Strings

namespace Represents

variable (represents : Represents memory str list)

include represents

theorem length_le : list.length ≤ maximumSize :=
  represents.size ▸ Nat.le_trans represents.bound represents.limit

theorem eq_nil (moved : str.memberData = none) : list = [] := by
  have bound := represents.bound
  rw [represents.moved moved, represents.size] at bound
  exact List.eq_nil_of_length_eq_zero (Nat.le_zero.mp bound)

theorem exists_data (nonempty : list ≠ []) : ∃ data, str.memberData = some data :=
  Option.ne_none_iff_exists'.mp fun moved => nonempty (represents.eq_nil moved)

/-- Only the own buffer matters. -/
theorem congr (same : ∀ block, str.memberData = some block →
    later.cells block = memory.cells block) : Represents later str list :=
  { represents with stored :=
    fun data own => by rw [same data own]; exact represents.stored data own }

/-- A pointer to a character or to the terminating zero denotes the characters behind it. -/
theorem denotes (own : str.memberData = some data) {offset : Nat} (within : offset ≤ list.length) :
    (Text.inside data offset).Denotes memory
      ((list.drop offset).takeWhile fun value => value ≠ 0) := by
  obtain ⟨rest, live, -⟩ := represents.stored data own
  refine ⟨list.take offset, list.drop offset, rest, ?_, ?_, rfl⟩
  · rw [List.take_append_drop, live]
  · rw [List.length_take, Nat.min_eq_left within]

end Represents

theorem represents_moved : Represents memory .moved [] :=
  ⟨rfl, Nat.le_refl _, Nat.zero_le _, fun _ => rfl, nofun⟩

namespace Yields

/-- A method may use another one for its first part. -/
theorem trans (first : Yields memory old list grown middle)
    (second : Yields middle grown.memberData new result later) :
    Yields memory old new result later where
  represents := second.represents
  others block apart := by
    rw [second.others block apart]
    split
    next shared =>
      rcases first.taken block shared with begun | free
      · rw [if_pos begun]
      · rw [free, ite_self]
    next fresh => exact first.others block fresh
  taken block own := by
    rcases second.taken block own with shared | free
    · exact first.taken block shared
    · by_cases shared : grown.memberData = some block
      · exact first.taken block shared
      · rw [first.others block shared] at free
        split at free
        next begun => exact .inl begun
        next => exact .inr free

/-- Nothing was done. -/
theorem refl (represents : Represents memory str list) :
    Yields memory str.memberData list str memory where
  represents := represents
  others _ apart := (if_neg apart).symm
  taken _ := .inl

/-- New slots in the buffer of a string. -/
theorem put {slots rest : Slots Character} (represents : Represents memory str list)
    (own : str.memberData = some data) (slots_eq : slots = new.map some ++ some 0 :: rest)
    (bound : new.length ≤ str.memberCapacity)
    (room : str.memberCapacity ≤ new.length + rest.length) :
    Yields memory str.memberData new { str with memberSize := new.length }
      (memory.put data slots) := by
  obtain ⟨rest', live, -⟩ := represents.stored data own
  refine ⟨⟨rfl, bound, represents.limit, represents.moved, ?_⟩, ?_, fun _ => .inl⟩
  · intro data' own'
    cases own.symm.trans own'
    exact ⟨rest, by rw [Heap.put_cells_self live, slots_eq], room⟩
  · intro block apart
    rw [if_neg apart, Heap.put_cells_ne]
    rintro rfl
    exact apart own

/-- A new buffer, while nothing is done with the old one. -/
theorem alloc {slots rest : Slots Character} {capacity : Nat}
    (cells : later.cells = Function.update memory.cells memory.next (some slots))
    (slots_eq : slots = new.map some ++ some 0 :: rest) (limit : capacity ≤ maximumSize)
    (bound : new.length ≤ capacity) (room : capacity ≤ new.length + rest.length) :
    Yields memory none new ⟨some memory.next, new.length, capacity⟩ later := by
  refine ⟨⟨rfl, bound, limit, nofun, ?_⟩, ?_, ?_⟩
  · rintro _ ⟨⟩
    exact ⟨rest, by rw [cells, Function.update_self, slots_eq], room⟩
  · intro block apart
    rw [if_neg nofun, cells, Function.update_of_ne]
    rintro rfl
    exact apart rfl
  · rintro _ ⟨⟩
    exact .inr (memory.fresh _ (Nat.le_refl _))

/-- A new string was made, and the old one is destroyed. -/
theorem destroy (made : Yields memory none new result middle)
    (live : old = none ∨ ∃ data slots, old = some data ∧ memory.cells data = some slots)
    (cells : ∀ block, later.cells block = if old = some block then none else middle.cells block) :
    Yields memory old new result later := by
  have fresh : ∀ block, result.memberData = some block → old ≠ some block := by
    rintro block own rfl
    obtain _ | ⟨data, slots, ⟨⟩, live⟩ := live
    · contradiction
    · obtain _ | free := made.taken block own
      · contradiction
      · rw [live] at free
        cases free
  refine ⟨made.represents.congr fun block own => ?_, ?_, ?_⟩
  · rw [cells, if_neg (fresh block own)]
  · intro block apart
    rw [cells, made.others block apart, if_neg (Option.some_ne_none block).symm]
  · intro block own
    exact .inr ((made.taken block own).resolve_left nofun)

end Yields

end Strings

end Wan.Container.StringContainer
