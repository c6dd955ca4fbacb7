import Wan.Container.StringContainer.Edits

/-!
# Strings that are made from others

Constructors, assignments and the methods that return a new string.  A string that was begun is
destroyed when making it fails.
-/

namespace Wan.Container.StringContainer

open Wan.Library Wan.Library.LinkedList Wan.Library.Program

variable {buffers : Buffers Character} {memory middle later : Memory Character}
variable {str other result : Str} {list more new characters : List Character} {text : Text}
variable {data : Addr} {budget : Option Nat} {first count : Nat}

theorem ends_ofCharacters (fits : characters.length ≤ maximumSize) :
    Ends (Str.ofCharacters characters) buffers none (Yields buffers.memory none characters) := by
  refine (once_allocate fun budget => ?_).ends
  have fresh : (buffers.memory.alloc (List.replicate (characters.length + 1) none)).cells
      buffers.memory.next = some ([] ++ List.replicate characters.length none ++ [none]) := by
    rw [Heap.alloc_cells, Function.update_self, List.replicate_succ']
    rfl
  have stored : (buffers.memory.alloc ([] ++ characters.map some ++ [none])).cells
      buffers.memory.next = some (characters.map some ++ none :: []) :=
    Function.update_self ..
  rw [runs_bind, Buffer.runs_store fresh List.length_nil.symm List.length_replicate.symm,
    Heap.alloc_put, runs_bind, Buffer.runs_write stored (List.length_map _).symm,
    Heap.alloc_put]
  exact ⟨rfl, .alloc rfl rfl fits (Nat.le_refl _) (Nat.le_refl _)⟩

theorem ends_ofNull : Ends (Str.ofText .null) buffers none (Yields buffers.memory none []) := by
  refine (once_allocate fun budget => ?_).ends
  have fresh : (buffers.memory.alloc [none]).cells buffers.memory.next = some ([] ++ none :: []) :=
    Function.update_self ..
  rw [runs_bind, Buffer.runs_write fresh List.length_nil.symm, Heap.alloc_put]
  exact ⟨rfl, .alloc rfl rfl (Nat.zero_le _) (Nat.le_refl _) (Nat.le_refl _)⟩

theorem ends_ofText (denotes : text.Denotes buffers.memory characters) :
    Ends (Str.ofText text) buffers (lengthRefusal characters.length)
      (Yields buffers.memory none characters) := by
  have unfolded : Str.ofText text = text.read >>= fun characters =>
      Program.refuse (characters.length > maximumSize)
        (.lengthError "String length exceeds max_size") >>= fun _ =>
          Str.ofCharacters characters := by
    cases text with
    | null => exact denotes.elim
    | literal => rfl
    | inside => rfl
  rw [unfolded]
  refine ends_read denotes (ends_refuse (fun above => if_pos above) fun fits => ?_)
  have fits := Nat.le_of_not_lt fits
  rw [lengthRefusal_of_le fits]
  exact ends_ofCharacters fits

/-- The default constructor. -/
theorem ends_ofEmpty : Ends (Str.ofText (.literal ⟨[], Nat.zero_le _⟩)) buffers none
    (Yields buffers.memory none []) :=
  ends_ofText (show Text.Denotes buffers.memory [] (.literal ⟨[], Nat.zero_le _⟩) from rfl)

/-- The copy keeps the capacity. -/
theorem ends_copy (represents : Represents buffers.memory other more) :
    Ends other.copy buffers none (Yields buffers.memory none more) := by
  refine (once_allocate fun budget => ?_).ends
  cases own : other.memberData with
  | none =>
      have empty := represents.eq_nil own
      subst empty
      have fresh : (buffers.memory.alloc (List.replicate (other.memberCapacity + 1) none)).cells
          buffers.memory.next = some ([] ++ none :: List.replicate other.memberCapacity none) :=
        Function.update_self ..
      rw [runs_bind, Buffer.runs_write fresh List.length_nil.symm, Heap.alloc_put, runs_pure,
        represents.size]
      exact ⟨rfl, .alloc rfl rfl represents.limit (Nat.zero_le _) (by simp)⟩
  | some data =>
      obtain ⟨rest, live, -⟩ := represents.stored data own
      have bound := represents.bound
      have apart : data ≠ buffers.memory.next := Nat.ne_of_lt (Heap.lt_next live)
      have source : (buffers.memory.alloc
          (List.replicate (other.memberCapacity + 1) none)).cells data =
            some ([] ++ (more.map some ++ [some 0]) ++ rest) := by
        rw [Heap.alloc_cells, Function.update_of_ne apart, live]
        simp
      have target : (buffers.memory.alloc
          (List.replicate (other.memberCapacity + 1) none)).cells buffers.memory.next =
            some ([] ++ List.replicate (other.memberSize + 1) none ++
              List.replicate (other.memberCapacity - other.memberSize) none) := by
        rw [← replicate_slots]
        have split : other.memberSize + 1 + (other.memberCapacity - other.memberSize) =
          other.memberCapacity + 1 := by omega
        rw [split]
        exact Function.update_self ..
      have amount : other.memberSize + 1 =
          (more.map some ++ [some (0 : Character)]).length := by
        simp [represents.size]
      rw [runs_bind, Buffer.copy_of_ne (Ne.symm apart),
        Buffer.runs_move source List.length_nil.symm amount target List.length_nil.symm
          (by rw [← amount, List.length_replicate]), Heap.alloc_put, runs_pure, represents.size]
      rw [represents.size] at bound
      have slots : [] ++ (more.map some ++ [some 0]) ++
          List.replicate (other.memberCapacity - more.length) none =
            more.map some ++ some 0 ::
              List.replicate (other.memberCapacity - more.length) none := by
        rw [List.nil_append, List.append_assoc]
        rfl
      refine ⟨rfl, .alloc rfl slots represents.limit bound ?_⟩
      rw [List.length_replicate]
      omega

/-- The destructor gives the buffer back. -/
theorem runs_destroy {post : Unit → Buffers Character → Prop}
    {raises : Failure → Buffers Character → Prop} (represents : Represents memory str list)
    (holds : ∀ later, (∀ block, later.cells block =
      if str.memberData = some block then none else memory.cells block) →
        post () ⟨later, budget⟩) : Runs str.destroy ⟨memory, budget⟩ post raises := by
  rw [Str.destroy]
  split
  next data own =>
    obtain ⟨rest, live, -⟩ := represents.stored data own
    rw [Buffer.runs_deallocate live]
    refine holds _ fun block => ?_
    rw [own, Heap.free_cells]
    by_cases same : block = data
    · rw [same, Function.update_self, if_pos rfl]
    · rw [Function.update_of_ne same, if_neg fun both => same (Option.some.inj both).symm]
  next moved =>
    refine holds _ fun block => ?_
    rw [moved, if_neg (Option.some_ne_none block).symm]

/-- A new string and the destruction of the old one. -/
theorem runs_replace {post : Str → Buffers Character → Prop}
    {raises : Failure → Buffers Character → Prop} (represents : Represents memory str list)
    (made : Yields memory none new result middle)
    (holds : ∀ later, Yields memory str.memberData new result later →
      post result ⟨later, budget⟩) :
    Runs (do str.destroy; return result) ⟨middle, budget⟩ post raises := by
  have live : str.memberData = none ∨
      ∃ data slots, str.memberData = some data ∧ memory.cells data = some slots := by
    cases own : str.memberData with
    | none => exact .inl rfl
    | some data =>
        obtain ⟨rest, live, -⟩ := represents.stored data own
        exact .inr ⟨data, _, rfl, live⟩
  have kept : Represents middle str list := by
    refine represents.congr fun block own => ?_
    have apart : result.memberData ≠ some block := by
      intro taken
      obtain ⟨rest, live, -⟩ := represents.stored block own
      rw [(made.taken block taken).resolve_left (Option.some_ne_none block).symm] at live
      cases live
    rw [made.others block apart, if_neg (Option.some_ne_none block).symm]
  rw [runs_bind]
  exact runs_destroy kept fun later cells => holds later (made.destroy live cells)

theorem ends_assign (represents : Represents buffers.memory str list)
    (represents' : Represents buffers.memory other more) :
    Ends (str.assign other) buffers none (Yields buffers.memory str.memberData more) := by
  refine Ends.bind (ends_copy represents') ?_
  rintro copied ⟨middle, budget⟩ - made
  exact runs_replace represents made fun later yields => ⟨rfl, Iff.rfl, yields⟩

/-- A C string is staged, so it may be a part of the old content. -/
theorem ends_assignText (represents : Represents buffers.memory str list)
    (denotes : (if text = .null then .literal ⟨[], Nat.zero_le _⟩ else text).Denotes
      buffers.memory characters) :
    Ends (str.assignText text) buffers (lengthRefusal characters.length)
      (Yields buffers.memory str.memberData characters) := by
  refine ends_stage denotes fun budget => ends_refuse (fun above => if_pos above) fun fits => ?_
  have fits := Nat.le_of_not_lt fits
  rw [lengthRefusal_of_le fits]
  refine Ends.bind (ends_ofCharacters fits) ?_
  rintro assigned ⟨middle, budget⟩ - made
  exact runs_replace represents made fun later yields => ⟨rfl, Iff.rfl, yields⟩

section Parts

variable {refused : Option Failure}

/-- A fresh string is destroyed when a method on it fails, and then nothing is left of it. -/
theorem runs_guarded_fresh {method : Method Str} {post : Str → Memory Character → Prop}
    (made : Yields memory none list result middle)
    (ends : Ends method ⟨middle, budget⟩ refused post) :
    Runs (Program.guarded method result.destroy) ⟨middle, budget⟩
      (fun value after => refused = none ∧ (after.budget = none ↔ budget = none) ∧
        post value after.memory)
      fun failure last => (refused = some failure ∨ failure = .badAlloc ∧ budget ≠ none) ∧
        last.memory.cells = memory.cells := by
  rw [runs_guarded]
  refine Runs.mono ends (fun _ _ => id) ?_
  rintro failure ⟨after, left⟩ ⟨why, cells⟩
  have cells : after.cells = middle.cells := cells
  refine runs_destroy (made.represents.congr fun block _ => congrFun cells block)
    fun last freed => ⟨why, ?_⟩
  funext block
  rw [freed, cells]
  split
  next own =>
    rcases made.taken block own with begun | free
    · cases begun
    · exact free.symm
  next apart => rw [made.others block apart, if_neg (Option.some_ne_none block).symm]

/-- The buffers of other strings are not touched while a string is made. -/
theorem Represents.survives (represents : Represents memory other more)
    (made : Yields memory none list result middle) :
    Represents middle other more ∧ ∀ block, result.memberData = some block →
      other.memberData ≠ some block := by
  have foreign : ∀ block, result.memberData = some block → other.memberData ≠ some block := by
    intro block own shared
    obtain ⟨rest, live, -⟩ := represents.stored block shared
    rw [(made.taken block own).resolve_left (Option.some_ne_none block).symm] at live
    cases live
  refine ⟨represents.congr fun block own => ?_, foreign⟩
  rw [made.others block fun shared => foreign block shared own,
    if_neg (Option.some_ne_none block).symm]

theorem ends_part (represents : Represents buffers.memory str list)
    (within : first + count ≤ list.length) :
    Ends (str.part first count) buffers none
      (Yields buffers.memory none ((list.drop first).take count)) := by
  have fits : count ≤ maximumSize := by
    have := represents.length_le
    omega
  refine Ends.bind ends_ofEmpty ?_
  rintro result ⟨middle, budget⟩ - made
  rw [runs_bind]
  refine Runs.mono (runs_guarded_fresh made (ends_grow made.represents fits)) ?_ fun _ _ => id
  rintro grown ⟨later, left⟩ ⟨-, same, grows⟩
  obtain ⟨data, own⟩ := grows.has
  have yields := made.trans grows.toYields
  obtain ⟨kept, foreign⟩ := represents.survives yields
  split
  next some =>
    have nonempty : list ≠ [] := by
      rintro rfl
      rw [List.length_nil] at within
      omega
    obtain ⟨source, own'⟩ := kept.exists_data nonempty
    have different : data ≠ source := by
      rintro rfl
      exact foreign data own own'
    obtain ⟨behind, given, start, length⟩ := kept.exists_range own' within
    have room : ([] : List Character).length + count ≤ grown.memberCapacity := by
      rw [List.length_nil, Nat.zero_add]
      exact grows.room
    obtain ⟨gap, slot, rest, live, gap_length, long⟩ := grows.represents.exists_gap own room
    rw [List.length_nil, Nat.zero_add] at room long
    rw [runs_bind, runs_pointer own, runs_bind, runs_pointer own', runs_bind,
      Buffer.copy_of_ne different, Buffer.runs_move given
        (by rw [List.length_map, start]) (by rw [List.length_map, length]) live
        List.length_nil.symm (by rw [List.length_map, length, gap_length]), List.map_nil,
      List.nil_append]
    refine runs_terminate grows.represents own length.symm ?_ ?_
      fun last yields' => ⟨rfl, same, yields.trans yields'⟩
    · rwa [length]
    · rwa [length]
  next nothing =>
    cases Nat.eq_zero_of_not_pos nothing
    obtain ⟨rest, live, long⟩ := grows.represents.stored data own
    rw [List.take_zero]
    exact runs_terminate_live grows.represents own live rfl (Nat.zero_le _) long
      fun last yields' => ⟨rfl, same, yields.trans yields'⟩

/-- What a method throws when a position is out of range. -/
def rangeRefusal (outside : Prop) [Decidable outside] (message functionName : String) :
    Option Failure :=
  if outside then some (.fault message functionName) else none

/-- The check of the methods that take a part of a string. -/
theorem ends_checked {outside : Prop} [Decidable outside] {message functionName : String}
    {method : Method Str} {post : Str → Memory Character → Prop}
    (ends : ¬outside → Ends method buffers none post) :
    Ends (Program.refuse outside (.fault message functionName) >>= fun _ => method) buffers
      (rangeRefusal outside message functionName) post := by
  refine ends_refuse (fun out => if_pos out) fun inside => ?_
  rw [rangeRefusal, if_neg inside]
  exact ends inside

/-- The part from a position to the end. -/
theorem ends_partFrom (represents : Represents buffers.memory str list)
    (inside : ¬first > list.length) :
    Ends (str.part first (list.length - first)) buffers none
      (Yields buffers.memory none (list.drop first)) := by
  have within : first + (list.length - first) ≤ list.length := by omega
  have ends := ends_part represents within
  rwa [List.take_of_length_le (Nat.le_of_eq (List.length_drop ..))] at ends

theorem ends_subString (represents : Represents buffers.memory str list) :
    Ends (str.subString first) buffers
      (rangeRefusal (first > list.length) "传入参数位置越界" "sub_string")
      (Yields buffers.memory none (list.drop first)) := by
  rw [Str.subString, represents.size]
  exact ends_checked fun inside => ends_partFrom represents inside

theorem ends_subStringFrom (represents : Represents buffers.memory str list) :
    Ends (str.subStringFrom first) buffers
      (rangeRefusal (first > list.length) "传入参数位置越界" "sub_string_from")
      (Yields buffers.memory none (list.drop first)) := by
  rw [Str.subStringFrom, represents.size]
  exact ends_checked fun inside => ends_partFrom represents inside

variable {last : Nat}

theorem ends_subStringTo (represents : Represents buffers.memory str list) :
    Ends (str.subStringTo first last) buffers
      (rangeRefusal (first > list.length ∨ last > list.length ∨ first > last)
        "传入参数位置越界" "sub_string")
      (Yields buffers.memory none ((list.drop first).take (last - first))) := by
  rw [Str.subStringTo, represents.size]
  exact ends_checked fun inside => ends_part represents (by omega)

/-- The loop that appends the characters of a range in reverse. -/
theorem runs_pushReversed {front back : Slots Character} {chunk : List Character}
    (source : memory.cells data = some (front ++ chunk.map some ++ back))
    (start : first = front.length) :
    ∀ {appended : List Character} {result : Str} {middle : Memory Character}
      {budget : Option Nat}, Yields memory none appended result middle →
        appended.length + chunk.length ≤ maximumSize →
          Runs (result.pushReversed data first chunk.length) ⟨middle, budget⟩
            (fun value after => (after.budget = none ↔ budget = none) ∧
              Yields memory none (appended ++ chunk.reverse) value after.memory)
            fun failure after => (failure = .badAlloc ∧ budget ≠ none) ∧
              after.memory.cells = memory.cells := by
  induction chunk using List.reverseRecOn generalizing back with
  | nil =>
      intro appended result middle budget made _
      rw [List.reverse_nil, List.append_nil]
      exact ⟨Iff.rfl, made⟩
  | append_singleton chunk character ih =>
      intro appended result middle budget made fits
      rw [List.length_append, List.length_singleton] at fits
      have foreign : result.memberData ≠ some data := by
        intro own
        rw [(made.taken data own).resolve_left (Option.some_ne_none data).symm] at source
        cases source
      have split : memory.cells data =
          some (front ++ chunk.map some ++ (some character :: back)) := by
        rw [source]
        simp
      have reads : (Reference.element data (first + chunk.length)).Reads middle character := by
        refine ⟨front ++ chunk.map some ++ (some character :: back), ?_, getElem?_at ?_⟩
        · rw [made.others data foreign, if_neg (Option.some_ne_none data).symm, split]
        · rw [start, List.length_append, List.length_map]
      have ends : Ends (result.pushBack (.element data (first + chunk.length))) ⟨middle, budget⟩
          (lengthRefusal (appended.length + 1))
          (Yields middle result.memberData (appended ++ [character])) :=
        ends_pushBack made.represents reads fun _ _ _ => foreign
      rw [lengthRefusal_of_le (by omega)] at ends
      rw [List.length_append, List.length_singleton, Str.pushReversed, runs_bind]
      refine Runs.mono (runs_guarded_fresh made ends) ?_ ?_
      · rintro pushed ⟨later, left⟩ ⟨-, same, yields⟩
        have longer : (appended ++ [character]).length + chunk.length ≤ maximumSize := by
          rw [List.length_append, List.length_singleton]
          omega
        refine Runs.mono (ih split (made.trans yields) longer) ?_ ?_
        · rintro value after ⟨same', yields⟩
          refine ⟨same'.trans same, ?_⟩
          rwa [List.reverse_append, List.reverse_singleton, ← List.append_assoc]
        · rintro failure after ⟨⟨rfl, limited⟩, cells⟩
          exact ⟨⟨rfl, fun unlimited => limited (same.mpr unlimited)⟩, cells⟩
      · rintro failure after ⟨why, cells⟩
        exact ⟨why.resolve_left nofun, cells⟩

theorem ends_reversedPart (represents : Represents buffers.memory str list)
    (nonempty : list ≠ []) (within : first + count ≤ list.length) :
    Ends (str.reversedPart first count) buffers none
      (Yields buffers.memory none ((list.drop first).take count).reverse) := by
  refine Ends.bind ends_ofEmpty ?_
  rintro result ⟨middle, budget⟩ - made
  obtain ⟨data, own⟩ := represents.exists_data nonempty
  obtain ⟨behind, source, start, length⟩ := represents.exists_range own within
  have fits : ([] : List Character).length + ((list.drop first).take count).length ≤
      maximumSize := by
    have := represents.length_le
    rw [length, List.length_nil]
    omega
  generalize (list.drop first).take count = chunk at source length fits ⊢
  subst length
  rw [runs_bind, runs_pointer own]
  refine Runs.mono (runs_pushReversed source (by rw [List.length_map, start]) made fits) ?_ ?_
  · rintro value after ⟨same, yields⟩
    exact ⟨rfl, same, yields⟩
  · rintro failure after ⟨why, cells⟩
    exact ⟨.inr why, cells⟩

theorem ends_reverse (represents : Represents buffers.memory str list) :
    Ends str.reverse buffers (rangeRefusal (list.length = 0) "当前string为空" "reserve")
      (Yields buffers.memory none list.reverse) := by
  rw [Str.reverse, represents.size]
  refine ends_checked fun some => ?_
  have nonempty : list ≠ [] := fun empty => some (by rw [empty]; rfl)
  have within : 0 + list.length ≤ list.length := Nat.le_of_eq (Nat.zero_add _)
  have ends := ends_reversedPart represents nonempty within
  rwa [List.drop_zero, List.take_length] at ends

theorem ends_reverseSubString (represents : Represents buffers.memory str list) :
    Ends (str.reverseSubString first last) buffers
      (rangeRefusal (first > list.length ∨ last > list.length ∨ first > last ∨ list.length = 0)
        "string回滚位置异常" "reverse_sub_string")
      (Yields buffers.memory none ((list.drop first).take (last - first)).reverse) := by
  rw [Str.reverseSubString, represents.size]
  refine ends_checked fun inside => ?_
  have nonempty : list ≠ [] := by
    rintro rfl
    exact inside (.inr (.inr (.inr rfl)))
  exact ends_reversedPart represents nonempty (by omega)

theorem ends_plus (represents : Represents buffers.memory str list)
    (represents' : Represents buffers.memory other more) :
    Ends (str.plus other) buffers (lengthRefusal (list.length + more.length))
      (Yields buffers.memory none (list ++ more)) := by
  refine Ends.bind (ends_copy represents) ?_
  rintro result ⟨middle, budget⟩ - made
  obtain ⟨kept, foreign⟩ := represents'.survives made
  refine Runs.mono (runs_guarded_fresh made (ends_pushBackOther made.represents kept foreign))
    ?_ fun _ _ => id
  rintro value after ⟨passed, same, yields⟩
  exact ⟨passed, same, made.trans yields⟩

end Parts

end Wan.Container.StringContainer
