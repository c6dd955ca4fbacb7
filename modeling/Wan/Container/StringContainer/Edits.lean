import Wan.Container.StringContainer.Methods

/-!
# Growth and edits of a string

The methods that change the characters of one string.  Each of them first makes room and then
writes in its buffer, behind which nothing can fail.
-/

namespace Wan.Container.StringContainer

open Wan.Library Wan.Library.LinkedList Wan.Library.Program

variable {α : Type} {buffers : Buffers Character} {memory later : Memory Character}
variable {str other grown result : Str} {list more new : List Character}
variable {data : Addr} {raises : Failure → Buffers Character → Prop}

/-- What `AllocateResources` throws. -/
def capacityRefusal (capacity : Nat) : Option Failure :=
  if capacity > maximumSize then some (.lengthError "String capacity exceeds max_size") else none

/-- A string with room for `capacity` characters that still stands for its list. -/
structure Grows (memory : Memory Character) (str : Str) (list : List Character) (capacity : Nat)
    (grown : Str) (later : Memory Character) : Prop
    extends Yields memory str.memberData list grown later where
  size : grown.memberSize = str.memberSize
  room : capacity ≤ grown.memberCapacity
  has : ∃ data, grown.memberData = some data
  steady : capacity ≤ str.memberCapacity → str.memberData ≠ none → later = memory
  fresh : str.memberCapacity < capacity → grown.memberData ≠ str.memberData

theorem replicate_slots (size room : Nat) (slot : Option Character) :
    List.replicate (size + room) slot =
      [] ++ List.replicate size slot ++ List.replicate room slot := by
  rw [List.nil_append, List.replicate_append_replicate]

/-- The end of a reallocation, when the old buffer has been copied. -/
theorem grows_replace {capacity : Nat} {rest slots : Slots Character}
    (represents : Represents memory str list) (own : str.memberData = some data)
    (slots_eq : slots = list.map some ++ some 0 :: rest) (limit : capacity ≤ maximumSize)
    (short : str.memberCapacity < capacity) (room : capacity ≤ list.length + rest.length) :
    Grows memory str list capacity ⟨some memory.next, str.memberSize, capacity⟩
      ((memory.alloc slots).free data) := by
  obtain ⟨rest', live, -⟩ := represents.stored data own
  have bound := Nat.le_trans represents.bound (Nat.le_of_lt short)
  rw [represents.size] at bound ⊢
  have made : Yields memory none list ⟨some memory.next, list.length, capacity⟩
      (memory.alloc slots) := .alloc rfl slots_eq limit bound room
  refine ⟨made.destroy (.inr ⟨data, _, own, live⟩) fun block => ?_, represents.size.symm,
    Nat.le_refl _, ⟨_, rfl⟩, fun enough => absurd short (Nat.not_lt.mpr enough), fun _ => ?_⟩
  swap
  · rw [own]
    exact fun same => Nat.ne_of_lt (Heap.lt_next live) (Option.some.inj same).symm
  rw [own]
  by_cases same : data = block
  · rw [same, if_pos rfl, Heap.free_cells, Function.update_self]
  · rw [if_neg fun both => same (Option.some.inj both), Heap.free_cells,
      Function.update_of_ne (Ne.symm same)]

theorem once_grow (represents : Represents buffers.memory str list) {capacity : Nat}
    (limit : capacity ≤ maximumSize) : EndsOnce (str.allocateResources capacity) buffers
      (Grows buffers.memory str list capacity) := by
  rw [Str.allocateResources, EndsOnce, runs_bind, runs_refuse]
  refine ⟨fun above => absurd above (Nat.not_lt.mpr limit), fun _ => ?_⟩
  split
  next enough =>
    exact ⟨Iff.rfl, .refl represents, rfl, enough.1, Option.ne_none_iff_exists'.mp enough.2,
      fun _ _ => rfl, fun short => absurd short (Nat.not_lt.mpr enough.1)⟩
  next short =>
    refine once_allocate fun budget => ?_
    cases own : str.memberData with
    | none =>
        have empty := represents.eq_nil own
        have zero : str.memberSize = 0 := by rw [represents.size, empty, List.length_nil]
        have live : (buffers.memory.alloc (List.replicate (capacity + 1) (some 0))).cells
            buffers.memory.next = some ([] ++ some 0 :: List.replicate capacity (some 0)) :=
          Function.update_self ..
        have again : (buffers.memory.alloc ([] ++ some 0 :: List.replicate capacity (some 0))).cells
            buffers.memory.next = some ([] ++ some 0 :: List.replicate capacity (some 0)) :=
          Function.update_self ..
        rw [runs_bind, Buffer.runs_write live List.length_nil.symm, Heap.alloc_put, runs_bind,
          Buffer.runs_write again zero, Heap.alloc_put]
        refine ⟨rfl, ?_, rfl, Nat.le_refl _, ⟨_, rfl⟩, fun _ held => absurd own held, fun _ => ?_⟩
        swap
        · rw [own]
          exact Option.some_ne_none _
        rw [zero, empty]
        exact own ▸ .alloc rfl rfl limit (Nat.zero_le _) (by simp)
    | some data =>
        have more : str.memberCapacity < capacity := by
          refine Nat.lt_of_not_le fun enough => short ⟨enough, ?_⟩
          rw [own]
          exact Option.some_ne_none data
        have bound := represents.bound
        obtain ⟨rest, live, -⟩ := represents.stored data own
        have apart : data ≠ buffers.memory.next := Nat.ne_of_lt (Heap.lt_next live)
        have source : (buffers.memory.alloc (List.replicate (capacity + 1) (some 0))).cells data =
            some ([] ++ (list.map some ++ [some 0]) ++ rest) := by
          rw [Heap.alloc_cells, Function.update_of_ne apart, live]
          simp
        have target : (buffers.memory.alloc (List.replicate (capacity + 1) (some 0))).cells
            buffers.memory.next = some ([] ++ List.replicate (str.memberSize + 1) (some 0) ++
              List.replicate (capacity - str.memberSize) (some 0)) := by
          rw [← replicate_slots]
          have split : str.memberSize + 1 + (capacity - str.memberSize) = capacity + 1 := by omega
          rw [split]
          exact Function.update_self ..
        have amount : str.memberSize + 1 = (list.map some ++ [some (0 : Character)]).length := by
          simp [represents.size]
        have copied : (buffers.memory.alloc ([] ++ (list.map some ++ [some 0]) ++
            List.replicate (capacity - str.memberSize) (some 0))).cells buffers.memory.next =
              some (list.map some ++ some 0 ::
                List.replicate (capacity - str.memberSize) (some 0)) := by
          rw [List.nil_append, List.append_assoc]
          exact Function.update_self ..
        have still : (buffers.memory.alloc (list.map some ++ some 0 ::
            List.replicate (capacity - str.memberSize) (some 0))).cells data =
              some (list.map some ++ some 0 :: rest) := by
          rw [Heap.alloc_cells, Function.update_of_ne apart, live]
        rw [runs_bind, Buffer.copy_of_ne (Ne.symm apart),
          Buffer.runs_move source List.length_nil.symm amount target List.length_nil.symm
            (by rw [← amount, List.length_replicate]),
          Heap.alloc_put, runs_bind,
          Buffer.runs_write copied (by rw [List.length_map, represents.size]), Heap.alloc_put,
          runs_bind, Buffer.runs_deallocate still]
        refine ⟨rfl, ?_⟩
        refine grows_replace represents own rfl limit more ?_
        rw [List.length_replicate, represents.size]
        omega

theorem ends_grow (represents : Represents buffers.memory str list) {capacity : Nat}
    (fits : capacity ≤ maximumSize) :
    Ends (str.allocateResources capacity) buffers none
      (Grows buffers.memory str list capacity) :=
  (once_grow represents fits).ends

theorem ends_allocateResources (represents : Represents buffers.memory str list)
    (capacity : Nat) : Ends (str.allocateResources capacity) buffers (capacityRefusal capacity)
      (Grows buffers.memory str list capacity) := by
  by_cases above : capacity > maximumSize
  · rw [Str.allocateResources]
    exact ends_refuse (fun _ => if_pos above) fun fits => absurd above fits
  · rw [capacityRefusal, if_neg above]
    exact ends_grow represents (Nat.le_of_not_lt above)

/-- When the allocation fails, nothing of what follows is reached. -/
theorem ends_exhausted {next : Str → Method Str} {capacity : Nat}
    {post : Str → Memory Character → Prop} (used : buffers.budget = some 0)
    (fits : capacity ≤ maximumSize) (short : str.memberCapacity < capacity) :
    Ends (str.allocateResources capacity >>= next) buffers none post := by
  have growing : ¬(capacity ≤ str.memberCapacity ∧ str.memberData ≠ none) :=
    fun enough => Nat.not_le.mpr short enough.1
  obtain ⟨memory, budget⟩ := buffers
  cases used
  rw [Ends, runs_bind, Str.allocateResources, runs_bind, runs_refuse]
  refine ⟨fun above => absurd above (Nat.not_lt.mpr fits), fun _ => ?_⟩
  rw [if_neg growing, runs_bind, Buffer.runs_allocate, Buffer.runs_spend]
  refine ⟨fun _ => ⟨.inr ⟨rfl, Option.some_ne_none 0⟩, rfl⟩, ?_, ?_⟩
  · intro unlimited
    cases unlimited
  · intro left more
    cases more

/-- What `CheckedLengthAdd` throws. -/
def lengthRefusal (size : Nat) : Option Failure :=
  if size > maximumSize then some (.lengthError "String length exceeds max_size") else none

theorem ends_checkedLengthAdd {next : Nat → Method α} {left right : Nat}
    {post : α → Memory Character → Prop} (bound : left ≤ maximumSize)
    (rest : left + right ≤ maximumSize → Ends (next (left + right)) buffers none post) :
    Ends (checkedLengthAdd left right >>= next) buffers (lengthRefusal (left + right)) post := by
  have room : (maximumSize + 2 ^ 64 - left) % 2 ^ 64 = maximumSize - left := by
    rw [maximumSize] at bound ⊢
    omega
  rw [checkedLengthAdd, bind_assoc, room]
  refine ends_refuse (fun above => if_pos (by omega)) fun fits => ?_
  have within : left + right ≤ maximumSize := by omega
  rw [lengthRefusal, if_neg (Nat.not_lt.mpr within), pure_bind]
  exact rest within

theorem runs_checkedLengthAdd {next : Nat → Method α} {left right : Nat}
    {post : α → Buffers Character → Prop} (bound : left ≤ maximumSize)
    (fits : left + right ≤ maximumSize) :
    Runs (checkedLengthAdd left right >>= next) buffers post raises ↔
      Runs (next (left + right)) buffers post raises := by
  have room : ¬right > (maximumSize + 2 ^ 64 - left) % 2 ^ 64 := by
    rw [maximumSize] at bound fits ⊢
    omega
  rw [checkedLengthAdd, bind_assoc, runs_bind, runs_refuse, pure_bind]
  exact ⟨fun runs => runs.2 room, fun runs => ⟨fun above => absurd above room, fun _ => runs⟩⟩

section Tails

variable {budget : Option Nat} {post : Str → Buffers Character → Prop}
variable {count newSize offset : Nat}
variable {slot : Option Character} {rest : Slots Character}

theorem runs_pointer {post : Addr → Buffers Character → Prop} (own : str.memberData = some data) :
    Runs str.pointer buffers post raises ↔ post data buffers := by
  rw [Str.pointer, own, runs_pure]

/-- The slots behind the characters. -/
theorem Represents.exists_gap (represents : Represents memory str list)
    (own : str.memberData = some data) (room : list.length + count ≤ str.memberCapacity) :
    ∃ gap slot rest, memory.cells data = some (list.map some ++ gap ++ slot :: rest) ∧
      gap.length = count ∧ str.memberCapacity ≤ list.length + count + rest.length := by
  obtain ⟨behind, live, long⟩ := represents.stored data own
  have inside : count < (some (0 : Character) :: behind).length := by
    rw [List.length_cons]
    omega
  refine ⟨(some 0 :: behind).take count, (some (0 : Character) :: behind)[count],
    (some 0 :: behind).drop (count + 1), ?_, ?_, ?_⟩
  · rw [List.append_assoc, List.getElem_cons_drop, List.take_append_drop, live]
  · rw [List.length_take, Nat.min_eq_left (Nat.le_of_lt inside)]
  · rw [List.length_drop, List.length_cons]
    omega

/-- The end of an edit: the characters are in place and the terminating zero is set. -/
theorem runs_terminate (represents : Represents memory str list)
    (own : str.memberData = some data) (size : newSize = new.length)
    (bound : new.length ≤ str.memberCapacity)
    (room : str.memberCapacity ≤ new.length + rest.length)
    (holds : ∀ later, Yields memory str.memberData new { str with memberSize := new.length } later →
      post { str with memberSize := new.length } ⟨later, budget⟩) :
    Runs (str.terminate newSize)
      ⟨memory.put data (new.map some ++ slot :: rest), budget⟩ post raises := by
  obtain ⟨rest', live, -⟩ := represents.stored data own
  rw [Str.terminate, runs_bind, runs_pointer own, runs_bind, Buffer.runs_write
    (Heap.put_cells_self live) (by rw [size, List.length_map]), runs_pure, Heap.put_put, size]
  exact holds _ (.put represents own rfl bound room)

/-- The same when nothing has been written since the string was whole. -/
theorem runs_terminate_live (represents : Represents memory str list)
    (own : str.memberData = some data)
    (live : memory.cells data = some (new.map some ++ slot :: rest)) (size : newSize = new.length)
    (bound : new.length ≤ str.memberCapacity)
    (room : str.memberCapacity ≤ new.length + rest.length)
    (holds : ∀ later, Yields memory str.memberData new { str with memberSize := new.length } later →
      post { str with memberSize := new.length } ⟨later, budget⟩) :
    Runs (str.terminate newSize) ⟨memory, budget⟩ post raises := by
  have runs : Runs (str.terminate newSize)
      ⟨memory.put data (new.map some ++ slot :: rest), budget⟩ post raises :=
    runs_terminate represents own size bound room holds
  rwa [Heap.put_self live] at runs

/-- Characters are written behind those of the string. -/
theorem runs_store_terminate (represents : Represents memory str list)
    (own : str.memberData = some data)
    (start : offset = list.length) (room : list.length + more.length ≤ str.memberCapacity)
    (size : newSize = list.length + more.length)
    (holds : ∀ result later, Yields memory str.memberData (list ++ more) result later →
      post result ⟨later, budget⟩) :
    Runs (Buffer.store data offset more) ⟨memory, budget⟩
      (fun _ buffers => Runs (str.terminate newSize) buffers post raises) raises := by
  obtain ⟨gap, slot, rest, live, length, long⟩ := represents.exists_gap own room
  rw [Buffer.runs_store live (by rw [start, List.length_map]) length.symm, ← List.map_append]
  refine runs_terminate represents own (by rw [List.length_append, size]) ?_ ?_
    fun later => holds _ _
  · rwa [List.length_append]
  · rwa [List.length_append]

end Tails

section Pushes

theorem lengthRefusal_of_le {size : Nat} (fits : size ≤ maximumSize) :
    lengthRefusal size = none := if_neg (Nat.not_lt.mpr fits)

/-- Making room comes first, and what follows it cannot fail. -/
theorem ends_grow_then {next : Str → Method Str} {capacity : Nat}
    (represents : Represents buffers.memory str list) (fits : capacity ≤ maximumSize)
    (rest : ∀ grown data later budget, Grows buffers.memory str list capacity grown later →
      grown.memberData = some data → ∀ post raises,
        (∀ result last, Yields later grown.memberData new result last →
          post result ⟨last, budget⟩) → Runs (next grown) ⟨later, budget⟩ post raises) :
    Ends (str.allocateResources capacity >>= next) buffers none
      (Yields buffers.memory str.memberData new) := by
  refine Ends.bind (ends_grow represents fits) ?_
  rintro grown ⟨later, budget⟩ - grows
  obtain ⟨data, own⟩ := grows.has
  refine rest grown data later budget grows own _ _ fun result last yields => ?_
  exact ⟨rfl, Iff.rfl, grows.toYields.trans yields⟩

/-- A part of the characters in the buffer. -/
theorem Represents.exists_range {first count : Nat} (represents : Represents memory str list)
    (own : str.memberData = some data) (within : first + count ≤ list.length) :
    ∃ behind, memory.cells data = some ((list.take first).map some ++
      ((list.drop first).take count).map some ++ behind) ∧ (list.take first).length = first ∧
        ((list.drop first).take count).length = count := by
  obtain ⟨rest, live, -⟩ := represents.stored data own
  refine ⟨((list.drop first).drop count).map some ++ some 0 :: rest, ?_, ?_, ?_⟩
  · rw [live, ← List.append_assoc, List.append_assoc (List.map some _), ← List.map_append,
      List.take_append_drop, ← List.map_append, List.take_append_drop]
  · rw [List.length_take]
    omega
  · rw [List.length_take, List.length_drop]
    omega

/-- The buffer of another string is neither replaced nor touched. -/
theorem Represents.keeps {capacity : Nat} (represents : Represents memory other more)
    (grows : Grows memory str list capacity grown later)
    (apart : ∀ block, str.memberData = some block → other.memberData ≠ some block) :
    Represents later other more ∧ ∀ block, grown.memberData = some block →
      other.memberData ≠ some block := by
  have foreign : ∀ block, grown.memberData = some block → other.memberData ≠ some block := by
    intro block own shared
    rcases grows.taken block own with begun | free
    · exact apart block begun shared
    · obtain ⟨rest, live, -⟩ := represents.stored block shared
      rw [free] at live
      cases live
  refine ⟨represents.congr fun block own => ?_, foreign⟩
  rw [grows.others block fun shared => foreign block shared own,
    if_neg fun shared => apart block shared own]

theorem ends_pushBackOther (represents : Represents buffers.memory str list)
    (represents' : Represents buffers.memory other more)
    (apart : ∀ block, str.memberData = some block → other.memberData ≠ some block) :
    Ends (str.pushBackOther other) buffers (lengthRefusal (list.length + more.length))
      (Yields buffers.memory str.memberData (list ++ more)) := by
  rw [Str.pushBackOther]
  split
  next nothing =>
    have empty : more = [] := List.eq_nil_of_length_eq_zero (represents'.size.symm.trans nothing)
    rw [empty, List.length_nil, Nat.add_zero, lengthRefusal_of_le represents.length_le,
      List.append_nil]
    exact ends_pure (.refl represents)
  next something =>
    rw [represents.size, represents'.size]
    refine ends_checkedLengthAdd represents.length_le fun fits => ?_
    refine ends_grow_then represents fits
      fun grown data later budget grows own post raises holds => ?_
    have nonempty : more ≠ [] := by
      rintro rfl
      exact something represents'.size
    obtain ⟨source, own'⟩ := represents'.exists_data nonempty
    obtain ⟨kept, foreign⟩ := represents'.keeps grows apart
    obtain ⟨rest, stored, -⟩ := kept.stored source own'
    have given : later.cells source = some ([] ++ more.map some ++ some 0 :: rest) := stored
    have different : data ≠ source := by
      rintro rfl
      exact foreign data own own'
    obtain ⟨gap, slot, rest', live, length, long⟩ :=
      grows.represents.exists_gap own grows.room
    have size : grown.memberSize = (list.map (some : Character → Option Character)).length := by
      rw [grows.represents.size, List.length_map]
    rw [runs_bind, runs_pointer own, runs_bind, runs_pointer own', runs_bind,
      Buffer.copy_of_ne different, Buffer.runs_move given List.length_nil.symm
        (List.length_map _).symm live size (by rw [List.length_map, length]), ← List.map_append]
    refine runs_terminate grows.represents own (List.length_append ..).symm ?_ ?_
      fun last => holds _ _
    · rw [List.length_append]
      exact grows.room
    · rwa [List.length_append]

theorem ends_pushBackSelf (represents : Represents buffers.memory str list) :
    Ends str.pushBackSelf buffers (lengthRefusal (list.length + list.length))
      (Yields buffers.memory str.memberData (list ++ list)) := by
  rw [Str.pushBackSelf]
  split
  next nothing =>
    have empty : list = [] := List.eq_nil_of_length_eq_zero (represents.size.symm.trans nothing)
    subst empty
    exact ends_pure (.refl represents)
  next =>
    rw [represents.size]
    refine ends_checkedLengthAdd represents.length_le fun fits => ?_
    refine ends_grow_then represents fits
      fun grown data later budget grows own post raises holds => ?_
    obtain ⟨gap, slot, rest, live, length, long⟩ := grows.represents.exists_gap own grows.room
    have given : later.cells data = some ([] ++ list.map some ++ (gap ++ slot :: rest)) := by
      rw [live, List.nil_append, List.append_assoc]
    have size : grown.memberSize = (list.map (some : Character → Option Character)).length := by
      rw [grows.represents.size, List.length_map]
    rw [runs_bind, runs_pointer own, runs_bind, Buffer.runs_move given List.length_nil.symm size
      live size (by rw [List.length_map, length]), ← List.map_append]
    refine runs_terminate grows.represents own (List.length_append ..).symm ?_ ?_
      fun last => holds _ _
    · rw [List.length_append]
      exact grows.room
    · rwa [List.length_append]

variable {text : Text} {characters : List Character}

/-- A C string is staged, so it may be a part of the string. -/
theorem ends_pushBackText (represents : Represents buffers.memory str list)
    (denotes : text.Denotes buffers.memory characters) :
    Ends (str.pushBackText text) buffers (lengthRefusal (list.length + characters.length))
      (Yields buffers.memory str.memberData (list ++ characters)) := by
  rw [Str.pushBackText, if_neg denotes.ne_null]
  refine ends_read denotes ?_
  split
  next nothing =>
    subst nothing
    rw [List.length_nil, Nat.add_zero, lengthRefusal_of_le represents.length_le, List.append_nil]
    exact ends_pure (.refl represents)
  next =>
    refine ends_stage denotes fun budget => ?_
    rw [represents.size]
    refine ends_checkedLengthAdd represents.length_le fun fits => ?_
    refine ends_grow_then represents fits
      fun grown data later budget grows own post raises holds => ?_
    rw [runs_bind, runs_pointer own, runs_bind]
    exact runs_store_terminate grows.represents own grows.represents.size grows.room rfl holds

/-- `openAt` puts characters in the middle of those of the string. -/
theorem ends_openAt {position newSize : Nat} (represents : Represents buffers.memory str list)
    (within : position ≤ list.length) (size : newSize = list.length + more.length)
    (fits : newSize ≤ maximumSize) :
    Ends (str.openAt position more newSize) buffers none
      (Yields buffers.memory str.memberData
        (list.take position ++ more ++ list.drop position)) := by
  refine ends_grow_then represents fits
    fun grown data later budget grows own post raises holds => ?_
  have room := grows.room
  rw [size] at room
  obtain ⟨behind, stored, long⟩ := grows.represents.stored data own
  have roomy : more.length ≤ behind.length := by omega
  -- The characters behind the position are moved over the first slots behind the string.
  obtain ⟨gap, old, split, gap_length, old_length⟩ : ∃ gap old : Slots Character,
      (list.drop position).map some ++ [some 0] ++ behind.take more.length = gap ++ old ∧
        gap.length = more.length ∧
          old.length = ((list.drop position).map some ++ [some (0 : Character)]).length := by
    refine ⟨_, _, (List.take_append_drop more.length _).symm, ?_, ?_⟩
    · simp only [List.length_take, List.length_append, List.length_map]
      omega
    · simp only [List.length_drop, List.length_take, List.length_append, List.length_map]
      omega
  have given : later.cells data = some ((list.take position).map some ++
      ((list.drop position).map some ++ [some 0]) ++ behind) := by
    rw [stored, List.append_assoc, List.append_assoc, ← List.append_assoc, ← List.map_append,
      List.take_append_drop]
    rfl
  have target : later.cells data = some (((list.take position).map some ++ gap) ++ old ++
      behind.drop more.length) := by
    rw [List.append_assoc _ gap, ← split, List.append_assoc, List.append_assoc _ (behind.take _),
      List.take_append_drop, ← List.append_assoc, given]
  have start : position = ((list.take position).map (some : Character → _)).length := by
    rw [List.length_map, List.length_take, Nat.min_eq_left within]
  have amount : grown.memberSize - position + 1 =
      ((list.drop position).map some ++ [some (0 : Character)]).length := by
    rw [grows.represents.size]
    simp
  have offset : position + more.length =
      ((list.take position).map (some : Character → _) ++ gap).length := by
    rw [List.length_append, gap_length, ← start]
  have moved : (later.put data ((list.take position).map some ++ gap ++
      ((list.drop position).map some ++ [some 0]) ++ behind.drop more.length)).cells data =
        some ((list.take position).map some ++ gap ++
          ((list.drop position).map some ++ some 0 :: behind.drop more.length)) := by
    rw [Heap.put_cells_self target]
    simp
  have placed : (list.take position).map some ++ more.map some ++
      ((list.drop position).map some ++ some 0 :: behind.drop more.length) =
        (list.take position ++ more ++ list.drop position).map some ++
          some 0 :: behind.drop more.length := by
    simp
  have length : (list.take position ++ more ++ list.drop position).length =
      list.length + more.length := by
    simp only [List.length_append, List.length_take, List.length_drop]
    omega
  rw [runs_bind, runs_pointer own, runs_bind, Buffer.runs_move given start amount target offset
    old_length.symm, runs_bind, Buffer.runs_store moved start gap_length.symm, Heap.put_put, placed]
  refine runs_terminate grows.represents own (size.trans length.symm) ?_ ?_ fun last => holds _ _
  · rw [length]
    exact room
  · rw [length, List.length_drop]
    omega

theorem ends_prepend (represents : Represents buffers.memory str list)
    (denotes : text.Denotes buffers.memory characters) :
    Ends (str.prepend text) buffers (lengthRefusal (list.length + characters.length))
      (Yields buffers.memory str.memberData (characters ++ list)) := by
  rw [Str.prepend, if_neg denotes.ne_null]
  refine ends_read denotes ?_
  split
  next nothing =>
    subst nothing
    rw [List.length_nil, Nat.add_zero, lengthRefusal_of_le represents.length_le]
    exact ends_pure (.refl represents)
  next =>
    refine ends_stage denotes fun budget => ?_
    rw [represents.size]
    refine ends_checkedLengthAdd represents.length_le fun fits => ?_
    exact ends_openAt represents (Nat.zero_le _) rfl fits

/-- What `InsertSubString` throws. -/
def insertRefusal (size position count : Nat) : Option Failure :=
  if position > size then some (.fault "传入参数位置越界" "insert_sub_string")
  else lengthRefusal (size + count)

theorem ends_insertSubString {position : Nat} (represents : Represents buffers.memory str list)
    (denotes : text.Denotes buffers.memory characters) :
    Ends (str.insertSubString text position) buffers
      (insertRefusal list.length position characters.length)
      (Yields buffers.memory str.memberData
        (list.take position ++ characters ++ list.drop position)) := by
  rw [Str.insertSubString, represents.size]
  refine ends_refuse (fun outside => if_pos outside) fun inside => ?_
  rw [insertRefusal, if_neg inside, if_neg denotes.ne_null]
  refine ends_stage denotes fun budget => ?_
  refine ends_checkedLengthAdd represents.length_le fun fits => ?_
  exact ends_openAt represents (Nat.le_of_not_lt inside) rfl fits

end Pushes

section Characters

variable {value : Character} {reference : Reference}

/-- A reference leads to a character. -/
def Reference.Reads (memory : Memory Character) (value : Character) : Reference → Prop
  | .outside here => here = value
  | .element block index => ∃ slots, memory.cells block = some slots ∧
      slots[index]? = some (some value)

/-- A reference does not lead into the buffer of a string. -/
def Reference.Apart (str : Str) : Reference → Prop
  | .outside _ => True
  | .element block _ => str.memberData ≠ some block

theorem runs_readReference {budget : Option Nat} {post : Character → Buffers Character → Prop}
    (reads : reference.Reads memory value) :
    Runs reference.read ⟨memory, budget⟩ post raises ↔ post value ⟨memory, budget⟩ := by
  cases reference with
  | outside here =>
      cases reads
      exact runs_pure
  | element block index =>
      obtain ⟨slots, live, stands⟩ := reads
      exact Buffer.runs_read live stands

/-- While a string grows, a reference that leads elsewhere keeps its character. -/
theorem Reference.Reads.keeps {capacity : Nat} (reads : reference.Reads memory value)
    (apart : reference.Apart str) (grows : Grows memory str list capacity grown later) :
    reference.Reads later value := by
  cases reference with
  | outside here => exact reads
  | element block index =>
      obtain ⟨slots, live, stands⟩ := reads
      refine ⟨slots, ?_, stands⟩
      rw [grows.others block ?_, if_neg apart, live]
      intro own
      rcases grows.taken block own with begun | free
      · exact apart begun
      · rw [free] at live
        cases live

theorem doubledCapacity_le {capacity newSize : Nat} (limit : capacity ≤ maximumSize)
    (fits : newSize ≤ maximumSize) : Str.doubledCapacity capacity newSize ≤ maximumSize := by
  rw [Str.doubledCapacity, maximumSize] at *
  split
  · omega
  · split <;> omega

theorem le_doubledCapacity {capacity newSize : Nat} :
    newSize ≤ Str.doubledCapacity capacity newSize := Nat.le_max_left ..

/-- `PushBack` of a character: when the buffer is replaced, the reference must lead elsewhere. -/
theorem ends_pushBack (represents : Represents buffers.memory str list)
    (reads : reference.Reads buffers.memory value)
    (safe : list.length + 1 ≤ maximumSize → str.memberSize = str.memberCapacity →
      buffers.budget ≠ some 0 → reference.Apart str) :
    Ends (str.pushBack reference) buffers (lengthRefusal (list.length + 1))
      (Yields buffers.memory str.memberData (list ++ [value])) := by
  rw [Str.pushBack, represents.size]
  refine ends_checkedLengthAdd represents.length_le fun fits => ?_
  have bound := represents.size ▸ represents.bound
  split
  next full =>
    have limit := doubledCapacity_le represents.limit fits
    by_cases used : buffers.budget = some 0
    · exact ends_exhausted used limit (Nat.lt_of_lt_of_le full le_doubledCapacity)
    have apart := safe fits (by rw [represents.size]; omega) used
    refine ends_grow_then represents limit
      fun grown data later budget grows own post raises holds => ?_
    have room : list.length + [value].length ≤ grown.memberCapacity :=
      Nat.le_trans le_doubledCapacity grows.room
    rw [runs_bind, runs_pointer own, runs_bind, runs_readReference (reads.keeps apart grows),
      runs_bind]
    exact runs_store_terminate grows.represents own grows.represents.size room rfl holds
  next space =>
    rw [pure_bind]
    have room : list.length + [value].length ≤ str.memberCapacity := Nat.le_of_not_lt space
    obtain ⟨data, own⟩ : ∃ data, str.memberData = some data := by
      refine Option.ne_none_iff_exists'.mp fun moved => ?_
      rw [represents.moved moved] at room
      cases room
    rw [Ends, runs_bind, runs_pointer own, runs_bind, runs_readReference reads, runs_bind]
    exact runs_store_terminate represents own represents.size room rfl fun result later yields =>
      ⟨rfl, Iff.rfl, yields⟩

/-- What `Resize` throws. -/
def resizeRefusal (size : Nat) : Option Failure :=
  if size > maximumSize then some (.lengthError "String size exceeds max_size") else none

/-- A list that is cut off or filled up to a length. -/
def resized (list : List Character) (size : Nat) (value : Character) : List Character :=
  list.take size ++ List.replicate (size - list.length) value

@[simp] theorem length_resized (list : List Character) (size : Nat) (value : Character) :
    (resized list size value).length = size := by
  rw [resized, List.length_append, List.length_take, List.length_replicate]
  omega

/-- `Resize`: when the buffer is replaced, the reference must lead elsewhere. -/
theorem ends_resize {size : Nat} (represents : Represents buffers.memory str list)
    (reads : size > list.length → reference.Reads buffers.memory value)
    (safe : size ≤ maximumSize → str.memberCapacity < size → buffers.budget ≠ some 0 →
      reference.Apart str) :
    Ends (str.resize size reference) buffers (resizeRefusal size)
      (Yields buffers.memory str.memberData (resized list size value)) := by
  rw [Str.resize, represents.size]
  refine ends_refuse (fun above => if_pos above) fun fits => ?_
  rw [resizeRefusal, if_neg fits]
  have fits := Nat.le_of_not_lt fits
  split
  next longer =>
    have whole : resized list size value =
        list ++ List.replicate (size - list.length) value := by
      rw [resized, List.take_of_length_le (Nat.le_of_lt longer)]
    have length : list.length + (List.replicate (size - list.length) value).length = size := by
      rw [List.length_replicate]
      omega
    rw [whole]
    by_cases used : str.memberCapacity < size ∧ buffers.budget = some 0
    · exact ends_exhausted used.2 fits used.1
    refine ends_grow_then represents fits
      fun grown data later budget grows own post raises holds => ?_
    have reads' : reference.Reads later value := by
      by_cases enough : size ≤ str.memberCapacity
      · rw [grows.steady enough]
        · exact reads longer
        · intro moved
          rw [represents.moved moved] at enough
          omega
      · have short := Nat.lt_of_not_le enough
        exact (reads longer).keeps (safe fits short fun none => used ⟨short, none⟩) grows
    have room := length ▸ grows.room
    have held : grown.memberData ≠ none := by simp [own]
    rw [runs_bind, runs_readReference reads', runs_bind, runs_pointer own, runs_bind]
    simp only [pure_bind, if_neg held]
    exact runs_store_terminate grows.represents own rfl room length.symm holds
  next shorter =>
    have shorter := Nat.le_of_not_lt shorter
    have cut : resized list size value = list.take size := by
      rw [resized, Nat.sub_eq_zero_of_le shorter, List.replicate_zero, List.append_nil]
    have length : (list.take size).length = size := by
      rw [List.length_take, Nat.min_eq_left shorter]
    have bound := Nat.le_trans (Nat.le_trans shorter (Nat.le_of_eq represents.size.symm))
      represents.bound
    rw [cut]
    simp only [pure_bind]
    split
    next moved =>
      have empty := represents.eq_nil moved
      subst empty
      refine ends_grow_then represents fits
        fun grown data later budget grows own post raises holds => ?_
      obtain ⟨rest, live, long⟩ := grows.represents.stored data own
      rw [List.take_nil] at length holds
      exact runs_terminate_live grows.represents own live length.symm (Nat.zero_le _) long
        fun last => holds _ _
    next held =>
      obtain ⟨data, own⟩ := Option.ne_none_iff_exists'.mp held
      obtain ⟨rest, live, long⟩ := represents.stored data own
      obtain ⟨slot, rest', split⟩ : ∃ slot rest',
          (list.drop size).map some ++ some 0 :: rest = slot :: rest' :=
        List.exists_cons_of_ne_nil (by simp)
      have lengths := congrArg List.length split
      simp only [List.length_append, List.length_map, List.length_drop, List.length_cons] at lengths
      have live' : buffers.memory.cells data =
          some ((list.take size).map some ++ slot :: rest') := by
        rw [live, ← split, ← List.append_assoc, ← List.map_append, List.take_append_drop]
      refine runs_terminate_live represents own live' length.symm
        (Nat.le_trans (Nat.le_of_eq length) bound) ?_
        fun last yields => ⟨rfl, Iff.rfl, yields⟩
      omega

/-- A reference into a buffer that was given back has no behaviour. -/
theorem not_runs_dangling {index : Nat} {budget : Option Nat} {next : Character → Method Str}
    {post : Str → Buffers Character → Prop} (dead : memory.cells data = none) :
    ¬Runs ((Reference.element data index).read >>= next) ⟨memory, budget⟩ post raises := by
  rw [runs_bind, Reference.read, Buffer.runs_read_dangling dead]
  exact id

/-- What follows a reallocation has no behaviour when it has none without the old buffer. -/
theorem not_runs_replaced {capacity : Nat} {next : Str → Method Str}
    {post : Str → Buffers Character → Prop} (represents : Represents buffers.memory str list)
    (own : str.memberData = some data) (fits : capacity ≤ maximumSize)
    (short : str.memberCapacity < capacity) (granted : buffers.budget ≠ some 0)
    (stuck : ∀ grown block later budget, grown.memberData = some block →
      later.cells data = none → ¬Runs (next grown) ⟨later, budget⟩ post raises) :
    ¬Runs (str.allocateResources capacity >>= next) buffers post raises := by
  intro runs
  obtain ⟨grown, ⟨later, budget⟩, grows, runs⟩ :=
    (once_grow represents fits).exists_runs granted runs
  obtain ⟨block, held⟩ := grows.has
  refine stuck grown block later budget held ?_ runs
  rw [grows.others data (own ▸ grows.fresh short), if_pos own]

/-- `PushBack` of a character of the own buffer reads it after the buffer was given back, unless
there is room. -/
theorem not_runs_pushBack {index : Nat} {post : Str → Buffers Character → Prop}
    (represents : Represents buffers.memory str list) (own : str.memberData = some data)
    (fits : list.length + 1 ≤ maximumSize) (full : str.memberSize = str.memberCapacity)
    (granted : buffers.budget ≠ some 0) :
    ¬Runs (str.pushBack (.element data index)) buffers post raises := by
  rw [Str.pushBack, represents.size, runs_checkedLengthAdd represents.length_le fits]
  have growing : list.length + 1 > str.memberCapacity := by
    rw [← full, represents.size]
    exact Nat.lt_succ_self _
  rw [if_pos growing]
  refine not_runs_replaced represents own (doubledCapacity_le represents.limit fits)
    (Nat.lt_of_lt_of_le growing le_doubledCapacity) granted
      fun grown block later left held dead => ?_
  rw [runs_bind, runs_pointer held]
  exact not_runs_dangling dead

/-- `Resize` by a character of the own buffer reads it after the buffer was given back, unless
there is room. -/
theorem not_runs_resize {size index : Nat} {post : Str → Buffers Character → Prop}
    (represents : Represents buffers.memory str list) (own : str.memberData = some data)
    (fits : size ≤ maximumSize) (short : str.memberCapacity < size)
    (granted : buffers.budget ≠ some 0) :
    ¬Runs (str.resize size (.element data index)) buffers post raises := by
  have longer : size > str.memberSize := Nat.lt_of_le_of_lt represents.bound short
  rw [Str.resize, runs_bind, runs_refuse, if_pos longer]
  rintro ⟨-, runs⟩
  exact not_runs_replaced represents own fits short granted
    (fun _ _ _ _ _ dead => not_runs_dangling dead) (runs (Nat.not_lt.mpr fits))

/-- What `operator[]` throws. -/
def writeRefusal (size index : Nat) : Option Failure :=
  if index < size then none else some (.fault "越界访问" "string::operator[]")

theorem ends_writeAt {index : Nat} (represents : Represents buffers.memory str list) :
    Ends (str.writeAt index value) buffers (writeRefusal list.length index)
      (Yields buffers.memory str.memberData (list.set index value)) := by
  rw [Str.writeAt, represents.size, writeRefusal]
  split
  next inside =>
    have nonempty : list ≠ [] := List.ne_nil_of_length_pos (Nat.zero_lt_of_lt inside)
    obtain ⟨data, own⟩ := represents.exists_data nonempty
    obtain ⟨rest, live, long⟩ := represents.stored data own
    have live' : buffers.memory.cells data = some ((list.take index).map some ++
        some list[index] :: ((list.drop (index + 1)).map some ++ some 0 :: rest)) := by
      rw [live, ← List.cons_append, ← List.map_cons, List.getElem_cons_drop, ← List.append_assoc,
        ← List.map_append, List.take_append_drop]
    have start : index = ((list.take index).map (some : Character → _)).length := by
      rw [List.length_map, List.length_take, Nat.min_eq_left (Nat.le_of_lt inside)]
    have whole : (list.take index).map some ++
        some value :: ((list.drop (index + 1)).map some ++ some 0 :: rest) =
          (list.set index value).map some ++ some 0 :: rest := by
      rw [List.set_eq_take_append_cons_drop, if_pos inside]
      simp
    have yields := Yields.put represents own whole
      (by rw [List.length_set, ← represents.size]; exact represents.bound)
      (by rw [List.length_set]; exact long)
    rw [List.length_set, ← represents.size] at yields
    rw [Ends, runs_bind, runs_pointer own, runs_bind, Buffer.runs_write live' start]
    exact ⟨rfl, Iff.rfl, yields⟩
  next outside => exact ends_throw

/-- The loop of `Uppercase` and `Lowercase` changes every character from the first one on. -/
theorem runs_convert {change : Character → Character} {behind : Slots Character}
    {budget : Option Nat} {post : Unit → Buffers Character → Prop} {todo : List Character} :
    ∀ {converted : List Character} {first : Nat} {memory : Memory Character},
      memory.cells data = some (converted.map some ++ (todo.map some ++ behind)) →
        first = converted.length →
          (Runs (Str.convert change data first todo.length) ⟨memory, budget⟩ post raises ↔
            post () ⟨memory.put data ((converted ++ todo.map change).map some ++ behind),
              budget⟩) := by
  induction todo with
  | nil =>
      intro converted first memory live start
      rw [List.length_nil, Str.convert, runs_pure, List.map_nil, List.append_nil]
      rw [List.map_nil, List.nil_append] at live
      rw [Heap.put_self live]
  | cons character todo ih =>
      intro converted first memory live start
      have start' : first = (converted.map (some : Character → Option Character)).length := by
        rw [List.length_map, start]
      have here : memory.cells data = some (converted.map some ++
          some character :: (todo.map some ++ behind)) := live
      have next : first + 1 = (converted ++ [change character]).length := by
        rw [start, List.length_append]
        rfl
      have written : (memory.put data (converted.map some ++ some (change character) ::
          (todo.map some ++ behind))).cells data =
            some ((converted ++ [change character]).map some ++ (todo.map some ++ behind)) := by
        rw [Heap.put_cells_self live]
        simp
      rw [List.length_cons, Str.convert, runs_bind, Buffer.runs_read here (getElem?_at start'),
        runs_bind, Buffer.runs_write here start', ih written next, Heap.put_put,
        List.append_assoc]
      rfl

/-- `Uppercase` and `Lowercase`. -/
theorem ends_convertAll {change : Character → Character}
    (represents : Represents buffers.memory str list) :
    Ends (str.convertAll change) buffers none
      (Yields buffers.memory str.memberData (list.map change)) := by
  rw [Str.convertAll]
  split
  next moved =>
    have empty := represents.eq_nil moved
    subst empty
    exact ends_pure (.refl represents)
  next data own =>
    obtain ⟨rest, live, long⟩ := represents.stored data own
    have start : buffers.memory.cells data =
        some (([] : List Character).map some ++ (list.map some ++ some 0 :: rest)) := live
    have yields := Yields.put represents own
      (show ([] ++ list.map change).map some ++ some 0 :: rest =
        (list.map change).map some ++ some 0 :: rest from rfl)
      (by rw [List.length_map, ← represents.size]; exact represents.bound)
      (by rw [List.length_map]; exact long)
    rw [List.length_map, ← represents.size] at yields
    rw [Ends, runs_bind, represents.size, runs_convert start List.length_nil.symm]
    exact ⟨rfl, Iff.rfl, yields⟩

end Characters

end Wan.Container.StringContainer
