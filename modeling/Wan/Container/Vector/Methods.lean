import Wan.Container.Vector.Push

/-!
# The other methods of `Vector`

Removing elements, adjusting the size, copies and `operator+=`.
-/

namespace Wan.Container.Vector

open Wan.Library Wan.Library.LinkedList Wan.Library.Program

variable {V : Type} {element : Element V} {memory later : Memory V} {vector result : Vector}
variable {list new : List V} {here : V} {data : Addr}

section Remove

/-- A vector with an element has a block. -/
theorem Represents.exists_data (represents : Represents element memory vector list)
    (nonempty : list ≠ []) : ∃ data, vector.data = some data := by
  cases there : vector.data with
  | none => exact absurd (represents.eq_nil there) nonempty
  | some data => exact ⟨data, rfl⟩

section Gap

variable {before after : List V} {first last : Nat} {raw : Slots V}
variable (represents : Represents element memory vector (before ++ here :: after))
variable (there : vector.data = some data)

include represents there

/-- The block around one of the elements. -/
theorem Represents.live_around : memory.cells data = some (before.map some ++ some here ::
    after.map some ++ List.replicate (vector.capacity - vector.size) none) := by
  rw [represents.slots data there, slotsOf, ← represents.size, List.map_append, List.map_cons]

/-- A vector without one of its elements. -/
theorem Grows.erased (behind : raw = none :: List.replicate (vector.capacity - vector.size) none) :
    Grows element memory vector (before ++ after) { vector with size := vector.size - 1 }
      (memory.put data (before.map some ++ after.map some ++ raw)) := by
  have size : vector.size = (before ++ after).length + 1 := by
    rw [represents.size]
    simp [Nat.add_assoc]
  have bound := represents.bound
  rw [size] at bound
  apply Grows.put represents there
  · rw [size, Nat.add_sub_cancel]
  · exact Nat.le_of_succ_le bound
  · rw [behind, slotsOf, List.map_append, ← List.replicate_succ, size, ← Nat.sub_sub,
      Nat.sub_add_cancel (Nat.sub_pos_of_lt bound)]

/-- Closing the gap at an element erases it. -/
theorem grows_closeGap (position : first = before.length) (ending : last = vector.size - 1) :
    Runs (do
        forUp first (fun current => moveAssign element data current (current + 1)) after.length
        Block.destroy data last) memory (fun _ later =>
          Grows element memory vector (before ++ after) { vector with size := vector.size - 1 }
            later)
      fun (_ : Failure) _ => False := by
  have live := represents.live_around there
  have count : last = first + after.length := by
    rw [ending, represents.size, position]
    simp
  rw [runs_bind,
    runs_closeGap (before.map some) here live (by rw [position, List.length_map]) count]
  exact Grows.erased represents there rfl

end Gap

theorem returns_popBack (represents : Represents element memory vector list) :
    Returns vector.popBack memory (Grows element memory vector list.dropLast) := by
  rw [popBack, Returns, represents.size]
  cases list using List.reverseRecOn with
  | nil =>
      rw [if_neg (by simp), runs_pure]
      exact Grows.refl represents
  | append_singleton before last =>
      rcases represents.exists_data (by simp) with ⟨data, there⟩
      have live := represents.live_around there
      have erased := Grows.erased represents there rfl
      rw [List.append_assoc] at live
      rw [if_pos (by simp), runs_bind, pointer_eq there, runs_pure, runs_bind,
        Block.runs_destroy live (by simp), runs_pure, List.dropLast_concat]
      simpa [represents.size] using erased

theorem forUp_succ {σ ε : Type} {body : Nat → Program σ ε Unit} {first count : Nat} :
    forUp (first + 1) body count = forUp first (fun index => body (index + 1)) count := by
  induction count generalizing first with
  | zero => rfl
  | succ count ih => rw [forUp, forUp, ih]

theorem returns_popFront (represents : Represents element memory vector list) :
    Returns (vector.popFront element) memory (Grows element memory vector list.tail) := by
  rw [popFront, Returns]
  cases list with
  | nil =>
      rw [represents.size, List.length_nil, if_neg (Nat.lt_irrefl 0), runs_pure]
      exact Grows.refl represents
  | cons here after =>
      rcases represents.exists_data (by simp) with ⟨data, there⟩
      have size : vector.size - 1 = after.length := by
        rw [represents.size, List.length_cons, Nat.add_sub_cancel]
      rw [if_pos (by simp [represents.size]), runs_bind, pointer_eq there, runs_pure, size,
        show 1 = 0 + 1 from rfl, forUp_succ]
      have whole : Represents element memory vector ([] ++ here :: after) := represents
      have start : 0 = ([] : List V).length := rfl
      have closing := grows_closeGap whole there start size.symm
      simp only [Nat.add_sub_cancel, runs_bind, runs_pure, size] at closing ⊢
      exact closing

/-- `Erase` of an element, with the iterator that it is given. -/
theorem returns_erase {before after : List V} {index : Nat}
    (represents : Represents element memory vector (before ++ here :: after))
    (there : vector.data = some data) (position : index = before.length) :
    Returns (vector.erase element (some (data, index))) memory fun result later =>
      Grows element memory vector (before ++ after) result.1 later ∧
        result.2 = some (data, index) := by
  have size : vector.size = before.length + (after.length + 1) := by
    rw [represents.size, List.length_append, List.length_cons]
  have valid : data = data ∧ index < vector.size := ⟨rfl, by omega⟩
  have count : vector.size - 1 - index = after.length := by omega
  have closing := grows_closeGap represents there position (Eq.refl (vector.size - 1))
  unfold erase
  split
  next data' block index' there' given =>
    cases there.symm.trans there'
    cases given
    rw [if_pos valid, count]
    simp only [Returns, runs_bind, runs_pure, and_true] at closing ⊢
    exact closing
  next absent => exact absurd rfl (absent data data index there)

/-- An invalid position erases nothing. -/
theorem erase_invalid {position : Iterator}
    (invalid : ∀ data index, vector.data = some data → position = some (data, index) →
      vector.size ≤ index) :
    vector.erase element position = pure (vector, vector.endIterator) := by
  unfold erase
  split
  next _ _ data block index there =>
    rw [if_neg]
    rintro ⟨rfl, below⟩
    exact absurd below (Nat.not_lt_of_le (invalid data index there rfl))
  next => rfl

end Remove

section Padding

variable {reference : Reference V} {block : Addr} {slots : Slots V}

/-- What a reference parameter refers to. -/
def Reads (memory : Memory V) (here : V) : Reference V → Prop
  | .outside value => value = here
  | .element block index => ∃ slots, memory.cells block = some slots ∧
      slots[index]? = some (some here)

theorem runs_read (reads : Reads memory here reference) {post : V → Memory V → Prop}
    {raises : Failure → Memory V → Prop} :
    Runs reference.read memory post raises ↔ post here memory := by
  cases reference with
  | outside value =>
      cases reads
      exact Iff.rfl
  | element block index =>
      rcases reads with ⟨slots, live, stands⟩
      exact Block.runs_read_of_getElem? live stands

theorem Reads.congr (reads : Reads memory here reference)
    (same : ∀ block, memory.cells block ≠ none → later.cells block = memory.cells block) :
    Reads later here reference := by
  cases reference with
  | outside value => exact reads
  | element block index =>
      rcases reads with ⟨slots, live, stands⟩
      exact ⟨slots, (same block (by simp [live])).trans live, stands⟩

/-- Slots that are constructed behind the elements do not change an argument. -/
theorem Reads.put (reads : Reads memory here reference)
    (live : memory.cells block = some (list.map some ++ slots)) (raw : ∀ slot ∈ slots, slot = none)
    (more : Slots V) : Reads (memory.put block (list.map some ++ more)) here reference := by
  cases reference with
  | outside value => exact reads
  | element other index =>
      rcases reads with ⟨slots', live', stands⟩
      by_cases same : other = block
      · subst same
        cases live.symm.trans live'
        refine ⟨_, Heap.put_cells_self live, ?_⟩
        by_cases inside : index < (list.map some).length
        · rwa [List.getElem?_append_left inside] at stands ⊢
        · rw [List.getElem?_append_right (Nat.le_of_not_lt inside)] at stands
          exact absurd (raw _ (List.mem_of_getElem? stands)) (by simp)
      · exact ⟨slots', (Heap.put_cells_ne same).trans live', stands⟩

/-- A list whose length is adjusted. -/
def adjusted (list : List V) (size : Nat) (padding : V) : List V :=
  list.take size ++ List.replicate (size - list.length) padding

theorem refuses_sizeAdjust {dataSize : Nat} (exceeds : element.maxSize < dataSize) :
    Refuses (vector.sizeAdjust element dataSize reference) memory
      "Vector size exceeds max_size" := by
  rw [sizeAdjust, Refuses, runs_bind, runs_refuse]
  exact ⟨fun _ => ⟨rfl, rfl⟩, fun within => absurd exceeds within⟩

variable (represents : Represents element memory vector list)

include represents

/-- The elements behind the new size are destroyed. -/
theorem returns_sizeAdjust_less {dataSize : Nat} (less : dataSize < list.length) :
    Returns (vector.sizeAdjust element dataSize reference) memory
      (Grows element memory vector (list.take dataSize)) := by
  have bound := represents.bound
  have limit := represents.limit
  have size := represents.size
  rcases represents.exists_data (List.ne_nil_of_length_pos (Nat.zero_lt_of_lt less)) with
    ⟨data, there⟩
  have live : memory.cells data = some ((list.take dataSize).map some ++
      (list.drop dataSize).map some ++
        List.replicate (vector.capacity - list.length) none) := by
    rw [represents.slots data there, slotsOf, ← List.map_append, List.take_append_drop]
  have position : dataSize = ((list.take dataSize).map some).length := by
    rw [List.length_map, List.length_take, Nat.min_eq_left (Nat.le_of_lt less)]
  have count : vector.size - dataSize = (list.drop dataSize).length := by
    rw [List.length_drop, size]
  rw [sizeAdjust, Returns, runs_bind, runs_refuse]
  refine ⟨fun exceeds => by omega, fun _ => ?_⟩
  rw [if_pos (by rwa [size]), runs_bind, pointer_eq there, runs_pure, runs_bind, destroyRange,
    Block.runs_destroyRange live position count, runs_pure]
  apply Grows.put represents there
  · rw [List.length_take, Nat.min_eq_left (Nat.le_of_lt less)]
  · rw [List.length_take]
    omega
  · rw [slotsOf, List.append_assoc, List.replicate_append_replicate, List.length_take]
    congr 2
    omega

/-- The new elements are copies of the argument, which may be one of the old ones. -/
theorem returns_sizeAdjust_more {dataSize : Nat} (reads : Reads memory here reference)
    (fits : dataSize ≤ element.maxSize) (more : list.length < dataSize) :
    Returns (vector.sizeAdjust element dataSize reference) memory
      (Grows element memory vector (list ++ List.replicate (dataSize - list.length) here)) := by
  have bound := represents.bound
  have size := represents.size
  have padding : ∀ index other,
      (List.replicate (dataSize - list.length) here)[index]? = some other → other = here :=
    fun index other found => List.eq_of_mem_replicate (List.mem_of_getElem? found)
  rw [sizeAdjust, Returns, runs_bind, runs_refuse, size]
  refine ⟨fun exceeds => absurd fits (Nat.not_le_of_lt exceeds), fun _ => ?_⟩
  rw [if_neg (Nat.not_lt_of_lt more), if_neg (Nat.ne_of_gt more)]
  by_cases exceeds : vector.capacity < dataSize
  · rw [if_pos exceeds]
    refine returns_reallocateWithTail represents ready_none (fun _ _ => apart_none) ?_ fits
      (Nat.le_of_lt exceeds) ?_
    · rw [List.length_replicate, Nat.add_sub_cancel' (Nat.le_of_lt more)]
    · intro capacity enough
      have built : (memory.alloc (List.replicate capacity none)).cells memory.next =
          some (List.replicate list.length none ++
            List.replicate (List.replicate (dataSize - list.length) here).length none ++
              List.replicate (capacity - dataSize) none) := by
        rw [Heap.alloc_cells, Function.update_self, List.length_replicate,
          List.replicate_append_replicate, Nat.add_sub_cancel' (Nat.le_of_lt more),
          ← replicate_split enough]
      have kept : ∀ block, memory.cells block ≠ none → block ≠ memory.next := by
        rintro block live rfl
        exact live (memory.fresh _ (Nat.le_refl _))
      refine (runs_constructs (List.replicate list.length none) (fun middle =>
        ∀ block, memory.cells block ≠ none → middle.cells block = memory.cells block)
        ?_ ?_ ?_ built ?_ List.length_replicate.symm).mpr rfl
      · intro middle slots same block live
        rw [Heap.put_cells_ne (kept block live), same block live]
      · intro index other found middle same post raises
        rw [padding index other found]
        exact runs_read (reads.congr same)
      · intro block live
        rw [Heap.alloc_cells, Function.update_of_ne (kept block live)]
      · intro index
        rw [List.length_replicate]
  · rw [if_neg exceeds]
    rcases represents.exists_room (by omega) with ⟨data, there, -⟩
    have live : memory.cells data = some (list.map some ++
        List.replicate (List.replicate (dataSize - list.length) here).length none ++
          List.replicate (vector.capacity - dataSize) none) := by
      rw [represents.slots data there, slotsOf, List.append_assoc, List.length_replicate,
        List.replicate_append_replicate]
      congr 3
      omega
    rw [runs_bind, pointer_eq there, runs_pure, runs_bind]
    rw [runs_constructs (list.map some)
      (fun middle => ∃ more, middle = memory.put data (list.map some ++ more))
      ?_ ?_ ?_ live ?_ List.length_replicate.symm, runs_pure]
    · apply Grows.put represents there
      · rw [List.length_append, List.length_replicate, Nat.add_sub_cancel' (Nat.le_of_lt more)]
      · rw [List.length_append, List.length_replicate]
        omega
      · rw [slotsOf, List.length_append, List.length_replicate,
          Nat.add_sub_cancel' (Nat.le_of_lt more), List.map_append]
    · rintro _ slots ⟨more, rfl⟩
      exact ⟨slots, Heap.put_put⟩
    · rintro index other found _ ⟨more, rfl⟩ post raises
      rw [padding index other found]
      exact runs_read (reads.put (represents.slots data there)
        (fun _ => List.eq_of_mem_replicate) more)
    · exact ⟨_, (Heap.put_self (represents.slots data there)).symm⟩
    · intro index
      rw [List.length_map]

theorem returns_sizeAdjust {dataSize : Nat} (reads : Reads memory here reference)
    (fits : dataSize ≤ element.maxSize) :
    Returns (vector.sizeAdjust element dataSize reference) memory
      (Grows element memory vector (adjusted list dataSize here)) := by
  rw [adjusted]
  rcases Nat.lt_trichotomy dataSize list.length with less | rfl | more
  · rw [Nat.sub_eq_zero_of_le (Nat.le_of_lt less), List.replicate_zero, List.append_nil]
    exact returns_sizeAdjust_less represents less
  · rw [List.take_length, Nat.sub_self, List.replicate_zero, List.append_nil, sizeAdjust, Returns,
      runs_bind, runs_refuse, represents.size]
    refine ⟨fun exceeds => absurd fits (Nat.not_le_of_lt exceeds), fun _ => ?_⟩
    rw [if_neg (Nat.lt_irrefl _), if_pos rfl, runs_pure]
    exact Grows.refl represents
  · rw [List.take_of_length_le (Nat.le_of_lt more)]
    exact returns_sizeAdjust_more represents reads fits more

end Padding

section Copy

variable {source other copied : Vector} {rest : List V}

/-- What another vector stands for does not change. -/
theorem Yields.keeps (yields : Yields element memory vector new result later)
    (represents : Represents element memory other list)
    (apart : ∀ block, other.data = some block → vector.data ≠ some block) :
    Represents element later other list ∧
      ∀ block, other.data = some block → result.data ≠ some block := by
  have live : ∀ block, other.data = some block → result.data ≠ some block := by
    intro block there taken
    rcases yields.fresh block taken with old | unused
    · exact apart block there old
    · rw [represents.slots block there] at unused
      cases unused
  exact ⟨represents.congr fun block there =>
    yields.others block (apart block there) (live block there), live⟩

theorem Yields.trans {middle : Memory V} {between : Vector}
    (first : Yields element memory vector list between middle)
    (second : Yields element middle between new result later) :
    Yields element memory vector new result later where
  represents := second.represents
  fresh block taken := by
    rcases second.fresh block taken with kept | unused
    · exact first.fresh block kept
    · by_cases old : vector.data = some block
      · exact .inl old
      · by_cases kept : between.data = some block
        · exact first.fresh block kept
        · exact .inr ((first.others block old kept).symm.trans unused)
  released block old absent := by
    by_cases kept : between.data = some block
    · exact second.released block kept absent
    · rw [second.others block kept absent, first.released block old kept]
  others block apart absent := by
    by_cases kept : between.data = some block
    · rw [second.released block kept absent]
      rcases first.fresh block kept with old | unused
      · exact absurd old apart
      · exact unused.symm
    · rw [second.others block kept absent, first.others block apart kept]

theorem Grows.trans {middle : Memory V} {between : Vector}
    (first : Grows element memory vector list between middle)
    (second : Grows element middle between new result later) :
    Grows element memory vector new result later :=
  ⟨first.toYields.trans second.toYields, Nat.le_trans first.capacity second.capacity⟩

/-- The loop of the copy constructor appends the elements that are left. -/
theorem returns_appendElements {first : Nat} {before : List V}
    (represents : Represents element memory vector new)
    (original : Represents element memory source (before ++ rest))
    (apart : ∀ block, source.data = some block → vector.data ≠ some block)
    (position : first = before.length) (fits : new.length + rest.length ≤ element.maxSize) :
    Returns (vector.appendElements element source first rest.length) memory
      (Grows element memory vector (new ++ rest)) := by
  induction rest generalizing memory vector new first before with
  | nil =>
      rw [List.length_nil, appendElements, Returns, runs_pure, List.append_nil]
      exact Grows.refl represents
  | cons here rest ih =>
      rcases original.exists_data (by simp) with ⟨block, there⟩
      have stands : (before ++ here :: rest)[first]? = some here := getElem?_at position
      rcases original.getElem? there stands with ⟨slots, live, stored⟩
      have supplies : Supplies (do Block.read (← source.pointer) first) here
          (some ⟨block, slots, slots⟩) := by
        rw [pointer_eq there, pure_bind]
        exact supplies_element_read stored
      have ready : Ready memory (some ⟨block, slots, slots⟩) := by
        rintro _ ⟨⟩
        exact live
      have foreign : ∀ data, vector.data = some data → Apart data (some ⟨block, slots, slots⟩) := by
        rintro data own _ ⟨⟩ rfl
        exact apart _ there own
      have appended := returns_appendConstructed represents supplies ready foreign (by
        rw [List.length_cons] at fits
        omega)
      rw [touched_read ready] at appended
      rw [List.length_cons, appendElements, Returns, runs_bind]
      apply appended.mono ?_ fun _ _ => id
      intro grown middle grows
      rcases grows.keeps original apart with ⟨kept, apart⟩
      rw [List.append_cons] at kept
      rw [List.append_cons]
      apply (ih grows.represents kept apart ?_ ?_).mono ?_ fun _ _ => id
      · rw [List.length_append, List.length_singleton, position]
      · rw [List.length_append, List.length_singleton]
        rw [List.length_cons] at fits
        omega
      · intro last later more
        exact grows.trans more

/-- The copy constructor. -/
theorem returns_copy (represents : Represents element memory source list) :
    Returns (source.copy element) memory (Grows element memory Vector.empty list) := by
  have limit := represents.limit
  have bound := represents.bound
  rw [represents.size] at bound
  rw [copy, Returns, runs_bind]
  apply (returns_ensureCapacity Represents.empty limit).mono ?_ fun _ _ => id
  rintro reserved middle ⟨grows, -⟩
  have kept := grows.keeps represents (by simp [Vector.empty])
  have start : 0 = ([] : List V).length := rfl
  rw [represents.size]
  apply (returns_appendElements grows.represents kept.1 kept.2 start ?_).mono ?_ fun _ _ => id
  · rw [List.length_nil, Nat.zero_add]
    exact Nat.le_trans bound limit
  · intro copied later more
    exact grows.trans more

/-- The elements are read one after the other. -/
theorem runs_elements {first : Nat} {before : List V} {post : List V → Memory V → Prop}
    {raises : Failure → Memory V → Prop}
    (represents : Represents element memory source (before ++ rest))
    (position : first = before.length) :
    Runs (source.elements first rest.length) memory post raises ↔ post rest memory := by
  induction rest generalizing first before post with
  | nil => rw [List.length_nil, elements, runs_pure]
  | cons here rest ih =>
      rcases represents.exists_data (by simp) with ⟨block, there⟩
      have stands : (before ++ here :: rest)[first]? = some here := getElem?_at position
      rcases represents.getElem? there stands with ⟨slots, live, stored⟩
      rw [List.append_cons] at represents
      rw [List.length_cons, elements, runs_bind, pointer_eq there, runs_pure, runs_bind,
        Block.runs_read_of_getElem? live stored, runs_bind, ih represents, runs_pure]
      rw [List.length_append, List.length_singleton, position]

/-- Elements that are constructed one after the other come behind those that are there. -/
theorem returns_constructAll (represents : Represents element memory vector list)
    (room : list.length + new.length ≤ vector.capacity) :
    Returns (new.foldlM (fun vector value => constructNext vector (pure value)) vector) memory
      (Grows element memory vector (list ++ new)) := by
  induction new generalizing memory vector list with
  | nil =>
      rw [List.foldlM_nil, Returns, runs_pure, List.append_nil]
      exact Grows.refl represents
  | cons here rest ih =>
      rw [List.length_cons] at room
      rw [List.foldlM_cons, Returns, runs_bind, List.append_cons]
      apply (returns_constructNext represents supplies_outside_read ready_none
        (fun _ _ => apart_none) ?_).mono ?_ fun _ _ => id
      · rw [represents.size]
        omega
      · intro grown middle grows
        apply (ih grows.represents ?_).mono ?_ fun _ _ => id
        · have wider := grows.capacity
          rw [List.length_append, List.length_singleton]
          omega
        · intro last later more
          exact grows.trans more

/-- The constructor from a list of values makes room and constructs them one after the other. -/
theorem returns_ofInitializerList (fits : new.length ≤ element.maxSize) :
    Returns (ofInitializerList element new) memory (Grows element memory Vector.empty new) := by
  rw [ofInitializerList, Returns, runs_bind]
  apply (returns_ensureCapacity Represents.empty fits).mono ?_ fun _ _ => id
  rintro reserved middle ⟨grows, room⟩
  apply (returns_constructAll grows.represents
    (by rwa [List.length_nil, Nat.zero_add])).mono ?_ fun _ _ => id
  intro built later more
  exact grows.trans more

/-- What `Vector Copy{VectorData}` holds. -/
def braced (convert : Option (List V → V)) (list : List V) : List V :=
  match convert with
  | none => list
  | some convert => [convert list]

theorem returns_copyBraced (convert : Option (List V → V))
    (represents : Represents element memory source list) (nonempty : list ≠ []) :
    Returns (source.copyBraced element convert) memory
      (Grows element memory Vector.empty (braced convert list)) := by
  cases convert with
  | none => exact returns_copy represents
  | some convert =>
      have start : 0 = ([] : List V).length := rfl
      have whole : Represents element memory source ([] ++ list) := represents
      have bound := Nat.le_trans represents.bound represents.limit
      rw [copyBraced, Returns, runs_bind, represents.size, runs_elements whole start]
      apply returns_ofInitializerList
      rw [represents.size] at bound
      exact Nat.le_trans (List.length_pos_iff.mpr nonempty) bound

/-- `Release` of a vector. -/
theorem returns_release (represents : Represents element memory vector list) :
    Returns vector.release memory fun result later => result = Vector.empty ∧
      (∀ block, vector.data = some block → later.cells block = none) ∧
        ∀ block, vector.data ≠ some block → later.cells block = memory.cells block := by
  unfold release
  split
  next absent =>
    have bound := represents.bound
    have capacity := represents.absent absent
    rw [capacity] at bound
    rw [Returns, runs_pure, absent]
    refine ⟨?_, fun _ absurd => ?_, fun _ _ => rfl⟩
    · cases vector
      cases absent
      cases capacity
      cases Nat.le_zero.mp bound
      rfl
    · cases absurd
  next data there =>
    simp only [Returns, runs_bind, runs_pure, destroyRange]
    rw [Block.runs_discard (represents.slots data there) represents.size, there]
    refine ⟨trivial, ?_, ?_⟩
    · rintro block ⟨⟩
      exact Function.update_self ..
    · intro block apart
      exact Function.update_of_ne (fun same => apart (congrArg some same.symm)) ..

theorem yields_release (represents : Represents element memory vector list) :
    Returns vector.release memory fun result later => result = Vector.empty ∧
      Yields element memory vector ([] : List V) result later := by
  apply (returns_release represents).mono ?_ fun _ _ => id
  rintro _ later ⟨rfl, released, others⟩
  exact ⟨rfl, .empty, nofun, fun block own _ => released block own,
    fun block apart _ => others block apart⟩

/-- Whole-vector assignment from a copy. -/
theorem returns_assign (represents : Represents element memory vector list)
    (original : Represents element memory source new) :
    Returns (vector.assign element source) memory (Yields element memory vector new) := by
  rw [assign, Returns, runs_bind]
  apply (returns_copy original).mono ?_ fun _ _ => id
  intro copied middle grows
  have kept := grows.keeps represents (by simp [Vector.empty])
  rw [runs_bind]
  apply (returns_release kept.1).mono ?_ fun _ _ => id
  rintro _ later ⟨rfl, released, others⟩
  rw [runs_pure]
  constructor
  · apply grows.represents.congr
    intro block there
    exact others block fun own => kept.2 block own there
  · intro block there
    exact .inr ((grows.fresh block there).resolve_left (by simp [Vector.empty]))
  · exact fun block own _ => released block own
  · intro block apart absent
    rw [others block apart, grows.others block (by simp [Vector.empty]) absent]

end Copy

section AppendVector

variable {other : Vector} {more : List V}
variable (represents : Represents element memory vector list)
variable (others : Represents element memory other more)
variable (apart : ∀ block, other.data = some block → vector.data ≠ some block)

include represents others

/-- `operator+=` throws when the sum of the sizes is too large. -/
theorem refuses_append (nonempty : more ≠ []) (exceeds : element.maxSize - list.length < more.length) :
    Refuses (vector.append element other) memory "Vector size exceeds max_size" := by
  rw [append, Refuses, others.size, if_neg (by simpa using nonempty), appendOther, runs_bind,
    runs_refuse, represents.size, others.size]
  exact ⟨fun _ => ⟨rfl, rfl⟩, fun within => absurd exceeds within⟩

include apart

/-- `operator+=` appends the elements of another vector. -/
theorem returns_append (fits : list.length + more.length ≤ element.maxSize) :
    Returns (vector.append element other) memory (Grows element memory vector (list ++ more)) := by
  have size := represents.size
  have bound := represents.bound
  rw [append, others.size]
  by_cases nil : more = []
  · subst nil
    rw [List.length_nil, if_pos rfl, Returns, runs_pure, List.append_nil]
    exact Grows.refl represents
  · have positive := List.length_pos_iff.mpr nil
    rcases others.exists_data nil with ⟨block, there⟩
    have live := others.slots block there
    have stands : ∀ index here, more[index]? = some here →
        (slotsOf more other.capacity)[0 + index]? = some (some here) := by
      intro index here found
      rcases others.getElem? there found with ⟨slots, live', stored⟩
      cases live.symm.trans live'
      rwa [Nat.zero_add]
    rw [if_neg (by simpa using nil), appendOther, Returns, runs_bind, runs_refuse, size,
      others.size]
    refine ⟨fun exceeds => by omega, fun _ => ?_⟩
    simp only [pointer_eq there, pure_bind]
    split
    next exceeds =>
      refine returns_reallocateWithTail represents ready_none (fun _ _ => apart_none) rfl fits
        (Nat.le_of_lt exceeds) ?_
      intro capacity enough
      have other' : block ≠ memory.next := Nat.ne_of_lt (Heap.lt_next live)
      have built : (memory.alloc (List.replicate capacity none)).cells memory.next =
          some (List.replicate list.length none ++ List.replicate more.length none ++
            List.replicate (capacity - (list.length + more.length)) none) := by
        rw [Heap.alloc_cells, Function.update_self, List.replicate_append_replicate,
          ← replicate_split enough]
      refine (runs_constructs (List.replicate list.length none)
        (fun middle => middle.cells block = some (slotsOf more other.capacity)) ?_ ?_ ?_ built ?_
          rfl).mpr rfl
      · intro middle slots same
        rw [Heap.put_cells_ne other', same]
      · intro index here found middle same post raises
        exact Block.runs_read_of_getElem? same (stands index here found)
      · rw [Heap.alloc_cells, Function.update_of_ne other', live]
      · intro index
        rw [Nat.zero_add, List.length_replicate]
    next within =>
      have within := Nat.le_of_not_lt within
      rcases represents.exists_room (by omega) with ⟨data, own, -⟩
      have other' : block ≠ data := fun same => apart block there (same ▸ own)
      have raw : memory.cells data = some (list.map some ++ List.replicate more.length none ++
          List.replicate (vector.capacity - (list.length + more.length)) none) := by
        rw [represents.slots data own, slotsOf, List.append_assoc, List.replicate_append_replicate]
        congr 3
        omega
      rw [ensureCapacity, if_pos within, pure_bind, runs_bind, pointer_eq own, runs_pure, runs_bind,
        runs_constructs (list.map some)
          (fun middle => middle.cells block = some (slotsOf more other.capacity)) ?_ ?_ live raw ?_
            rfl, runs_pure]
      · apply Grows.put represents own
        · rw [List.length_append]
        · rw [List.length_append]
          exact within
        · rw [slotsOf, List.length_append, List.map_append]
      · intro middle slots same
        rw [Heap.put_cells_ne other', same]
      · intro index here found middle same post raises
        exact Block.runs_read_of_getElem? same (stands index here found)
      · intro index
        rw [Nat.zero_add, List.length_map]

end AppendVector

section AppendSelf

variable {copied : Vector} {middle last : Memory V} {convert : Option (List V → V)}

/-- A copy that was made and released again leaves no trace. -/
theorem Grows.discard (copying : Grows element memory Vector.empty list copied middle)
    (grows : Grows element middle vector new result last)
    (kept : ∀ block, copied.data = some block → result.data ≠ some block)
    (apart : ∀ block, copied.data = some block → vector.data ≠ some block)
    (released : ∀ block, copied.data = some block → later.cells block = none)
    (others : ∀ block, copied.data ≠ some block → later.cells block = last.cells block) :
    Grows element memory vector new result later where
  represents := grows.represents.congr fun block there =>
    others block fun own => kept block own there
  capacity := grows.capacity
  fresh block there := by
    rcases grows.fresh block there with old | unused
    · exact .inl old
    · right
      rw [← copying.others block (by simp [Vector.empty]) fun own => kept block own there, unused]
  released block old absent := by
    rw [others block fun own => apart block own old, grows.released block old absent]
  others block foreign absent := by
    by_cases own : copied.data = some block
    · rw [released block own]
      exact ((copying.fresh block own).resolve_left (by simp [Vector.empty])).symm
    · rw [others block own, grows.others block foreign absent,
        copying.others block (by simp [Vector.empty]) own]

/-- `operator+=` of the vector itself doubles the list, unless a vector converts to an element. -/
theorem returns_appendSelf (represents : Represents element memory vector list)
    (fits : list.length + (braced convert list).length ≤ element.maxSize) :
    Returns (vector.appendSelf element convert) memory
      (Grows element memory vector (list ++ if list = [] then [] else braced convert list)) := by
  rw [appendSelf, Returns, represents.size]
  by_cases nil : list = []
  · subst nil
    rw [List.length_nil, if_pos rfl, runs_pure]
    exact Grows.refl represents
  · rw [if_neg (by simpa using nil), if_neg nil, runs_bind]
    apply (returns_copyBraced convert represents nil).mono ?_ fun _ _ => id
    intro copied middle copying
    have kept := copying.keeps represents (by simp [Vector.empty])
    have apart : ∀ block, copied.data = some block → vector.data ≠ some block :=
      fun block there own => kept.2 block own there
    rw [runs_bind, runs_guarded]
    apply (returns_append kept.1 copying.represents apart fits).mono ?_ fun _ _ => False.elim
    intro result last grows
    have still := grows.keeps copying.represents apart
    rw [runs_bind]
    apply (returns_release still.1).mono ?_ fun _ _ => id
    rintro _ later ⟨-, released, others⟩
    rw [runs_pure]
    exact copying.discard grows still.2 apart released others

/-- When it throws, the copy is released. -/
theorem refuses_appendSelf (represents : Represents element memory vector list)
    (nonempty : list ≠ [])
    (exceeds : element.maxSize - list.length < (braced convert list).length) :
    Runs (vector.appendSelf element convert) memory (fun _ _ => False) fun failure later =>
      failure = .lengthError "Vector size exceeds max_size" ∧
        ∀ block, later.cells block = memory.cells block := by
  rw [appendSelf, represents.size, if_neg (by simpa using nonempty), runs_bind]
  apply (returns_copyBraced convert represents nonempty).mono ?_ nofun
  intro copied middle copying
  have kept := copying.keeps represents (by simp [Vector.empty])
  rw [runs_bind, runs_guarded]
  have content : braced convert list ≠ [] := by
    cases convert with
    | none => exact nonempty
    | some _ => exact List.cons_ne_nil _ _
  apply (refuses_append kept.1 copying.represents content exceeds).mono nofun
  rintro _ _ ⟨rfl, rfl⟩
  rw [runs_bind]
  apply (returns_release copying.represents).mono ?_ nofun
  rintro _ later ⟨-, released, others⟩
  rw [runs_pure]
  refine ⟨rfl, fun block => ?_⟩
  by_cases own : copied.data = some block
  · rw [released block own]
    exact ((copying.fresh block own).resolve_left (by simp [Vector.empty])).symm
  · rw [others block own, copying.others block (by simp [Vector.empty]) own]

end AppendSelf

end Wan.Container.Vector
