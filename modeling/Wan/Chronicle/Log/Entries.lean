import Wan.Chronicle.Log.Model

/-!
# The entries of suspended writes

A suspended `FileWrite` holds an iterator.  Its entry stays the one that was looked up as
long as nothing erases the node, puts another handle into it or makes `FileMap` rehash.
-/

namespace Wan.Chronicle.CoroutineLog

open Wan.Library.Machine

/-- The entry of a suspended write is the one that was looked up: the iterator is valid, and its
node is still there, with the handle that the write goes through. -/
def Current (state : State) (write : Write) : Prop :=
  state.rehashes = write.rehashes ∧
    ∃ entry ∈ state.fileMap, entry.node = write.node ∧ entry.context.handle.id = write.handle

instance (state : State) (write : Write) : Decidable (Current state write) :=
  inferInstanceAs (Decidable (_ ∧ ∃ entry ∈ state.fileMap, _))

/-- Opening the file gives an open handle. -/
def Answers.reopens (answers : Answers) : Bool :=
  answers.directory && (answers.opening == .opened ||
    (answers.opening == .unopened && answers.fileExists && answers.retry == .opened))

/-- The file is removed because it does not open. -/
def Answers.removes (answers : Answers) : Bool :=
  answers.directory && answers.opening == .unopened && answers.fileExists

/-- A rollover comes so far that it erases the entry or gives it a new handle. -/
def Answers.rollsOver (settings : Settings) (answers : Answers) : Bool :=
  answers.closing && (!answers.archived ||
    (!cleanupThrows settings answers && answers.reopening != .thrown))

/-- The event erases the node, puts another handle into it or makes `FileMap` rehash. -/
def disturbs (settings : Settings) (state : State) (event : Event) (node : Nat) : Bool :=
  match event with
  | .fileWrite filename data answers =>
      match state.find (settings.targetPath filename) with
      | some entry =>
          entry.node == node &&
            if entry.context.handle.isOpen then
              exceeds settings entry.context.currentSize data.length && answers.rollsOver settings
            else answers.reopens
      | none => answers.reopens && state.isFull
  | .land _ => false
  | .resume index succeeds => !succeeds && state.writes[index]?.any fun write => write.node == node
  | .closeFile path closing => closing && (state.find path).any fun entry => entry.node == node
  | .shutdown left =>
      state.fileMap.any fun entry => entry.node == node && !decide (entry.key ∈ left)

/-- The writes that are still under way after the event. -/
def State.waiting (state : State) : Event → List Write
  | .resume index _ => state.writes.eraseIdx index
  | _ => state.writes

/-- The event does not touch the entry of a write that is under way. -/
def Undisturbed (settings : Settings) (state : State) (event : Event) : Prop :=
  ∀ write ∈ state.waiting event, disturbs settings state event write.node = false

instance (settings : Settings) (state : State) (event : Event) :
    Decidable (Undisturbed settings state event) :=
  inferInstanceAs (Decidable (∀ write ∈ _, _))

section Retains

variable {settings : Settings} {state later middle : State} {entry : Entry} {node other : Nat}
variable {key : Path} {answers : Answers} {change : Context → Context} {write : Write}

/-- Iterators stay valid, and what a node holds stays there, with its handle. -/
structure Retains (state later : State) (node : Nat) : Prop where
  valid : later.rehashes = state.rehashes
  kept : ∀ entry ∈ state.fileMap, entry.node = node →
    ∃ kept ∈ later.fileMap, kept.node = node ∧ kept.context.handle.id = entry.context.handle.id

theorem Current.retained (current : Current state write)
    (retains : Retains state later write.node) : Current later write := by
  rcases current with ⟨valid, entry, member, node, handle⟩
  rcases retains.kept entry member node with ⟨kept, member, node, same⟩
  exact ⟨retains.valid.trans valid, kept, member, node, same.trans handle⟩

theorem Retains.of_eq (valid : later.rehashes = state.rehashes)
    (same : later.fileMap = state.fileMap) : Retains state later node where
  valid := valid
  kept entry member at_node := ⟨entry, same ▸ member, at_node, rfl⟩

theorem Retains.trans (earlier : Retains state middle node) (later_ : Retains middle later node) :
    Retains state later node where
  valid := later_.valid.trans earlier.valid
  kept := by
    intro entry member at_node
    rcases earlier.kept entry member at_node with ⟨kept, member, at_node, same⟩
    rcases later_.kept kept member at_node with ⟨last, member, at_node, same'⟩
    exact ⟨last, member, at_node, same'.trans same⟩

theorem retains_erase (apart : other ≠ node) : Retains state (state.erase node) other where
  valid := rfl
  kept := by
    intro entry member at_node
    refine ⟨entry, List.mem_filter.mpr ⟨member, ?_⟩, at_node, rfl⟩
    simpa [at_node] using apart

theorem mem_adjust (member : entry ∈ state.fileMap) :
    { entry with context := change entry.context } ∈ (state.adjust entry.node change).fileMap :=
  List.mem_map.mpr ⟨entry, member, if_pos rfl⟩

/-- Changing the context behind an iterator leaves the other nodes alone, and the node itself
when the change keeps the handle. -/
theorem retains_adjust
    (kept : other = node → ∀ context, (change context).handle.id = context.handle.id) :
    Retains state (state.adjust node change) other where
  valid := rfl
  kept := by
    intro entry member at_node
    refine ⟨_, List.mem_map.mpr ⟨entry, member, rfl⟩, ?_⟩
    split
    next same => exact ⟨at_node, kept (at_node.symm.trans same) entry.context⟩
    next => exact ⟨at_node, rfl⟩

theorem retains_adjust_of_ne (apart : other ≠ node) :
    Retains state (state.adjust node change) other :=
  retains_adjust fun same => absurd same apart

variable (state node other) in
theorem retains_close : Retains state (state.adjust node Context.close) other :=
  retains_adjust fun _ _ => rfl

end Retains

/-- New numbers are new. -/
def State.Old (state : State) : Prop := ∀ entry ∈ state.fileMap, entry.node < state.next

section Steps

variable {settings : Settings} {state later : State} {entry : Entry} {node : Nat} {key : Path}
variable {answers : Answers} {data : List UInt8} {sized : Bool} {spare : Nat}

theorem State.mem_of_find (found : state.find key = some entry) : entry ∈ state.fileMap :=
  List.mem_of_find?_eq_some found

theorem State.Old.congr (old : state.Old) (same : later.fileMap = state.fileMap)
    (next : later.next = state.next) : later.Old := by
  rw [Old, same, next]
  exact old

theorem State.Old.adjust {change : Context → Context} (old : state.Old) :
    (state.adjust node change).Old := by
  intro entry member
  rcases List.mem_map.mp member with ⟨before, earlier, rfl⟩
  split
  all_goals exact old before earlier

theorem State.Old.erase (old : state.Old) : (state.erase node).Old := by
  intro entry member
  exact old entry (List.mem_filter.mp member).1

theorem State.Old.takeNumber (old : state.Old) : state.takeNumber.Old := by
  intro entry member
  exact Nat.lt_succ_of_lt (old entry member)

/-- A part of `FileWrite` leaves the suspended writes alone and touches only some nodes; when
it goes on, it has an entry of `FileMap`. -/
def Framed (state : State) (touched : Nat → Prop)
    (result : Except (State × Result) (State × Entry)) :
    Prop :=
  match result with
  | .error (later, _) => later.writes = state.writes ∧ later.Old ∧
      ∀ node, ¬touched node → Retains state later node
  | .ok (later, entry) => later.writes = state.writes ∧ later.Old ∧ entry ∈ later.fileMap ∧
      ∀ node, ¬touched node → Retains state later node

/-- What a new context for a key touches: the node of the key or, if there is none, every node when
`FileMap` rehashes. -/
def State.Enters (state : State) (key : Path) (node : Nat) : Prop :=
  match state.find key with
  | some entry => entry.node = node
  | none => state.isFull = true

/-- Entering a context touches the node of its key only, unless it makes `FileMap` rehash. -/
theorem framed_enter (old : state.Old) :
    Framed state (state.Enters key) (.ok (state.enter key sized spare)) := by
  rw [State.enter]
  split
  next entry found =>
    refine ⟨rfl, State.Old.adjust old.takeNumber, ?_, ?_⟩
    · exact mem_adjust (State.mem_of_find found)
    · intro node untouched
      rw [State.Enters, found] at untouched
      refine Retains.trans ?_ (retains_adjust_of_ne ?_)
      · exact .of_eq rfl rfl
      · exact fun same => untouched same.symm
  next none =>
    refine ⟨rfl, ?_, List.mem_append_right _ List.mem_cons_self, ?_⟩
    · intro entry member
      rcases List.mem_append.mp member with before | new
      · exact old.takeNumber entry before
      · rw [List.mem_singleton.mp new]
        exact Nat.lt_succ_self _
    · intro node untouched
      rw [State.Enters, none] at untouched
      refine ⟨if_neg untouched, fun entry member at_node => ?_⟩
      exact ⟨entry, List.mem_append_left _ member, at_node, rfl⟩

theorem Framed.mono {touched more : Nat → Prop}
    {result : Except (State × Result) (State × Entry)} (framed : Framed state touched result)
    (includes : ∀ node, touched node → more node) : Framed state more result := by
  match result, framed with
  | .error _, ⟨writes, old, kept⟩ =>
      exact ⟨writes, old, fun node untouched => kept node (mt (includes node) untouched)⟩
  | .ok _, ⟨writes, old, member, kept⟩ =>
      exact ⟨writes, old, member, fun node untouched => kept node (mt (includes node) untouched)⟩

/-- What has been done before touches its own nodes. -/
theorem Framed.behind {touched : Nat → Prop} {result : Except (State × Result) (State × Entry)}
    (framed : Framed later touched result) (writes : later.writes = state.writes)
    (kept : ∀ node, ¬touched node → Retains state later node) : Framed state touched result := by
  match result, framed with
  | .error _, ⟨same, old, more⟩ =>
      exact ⟨same.trans writes, old,
        fun node untouched => (kept node untouched).trans (more node untouched)⟩
  | .ok _, ⟨same, old, member, more⟩ =>
      exact ⟨same.trans writes, old, member,
        fun node untouched => (kept node untouched).trans (more node untouched)⟩

/-- A context is created, perhaps after the file has been removed, or nothing happens to
`FileMap`. -/
theorem createContext_cases (state : State) (key : Path) (answers : Answers) : ∃ base,
    (base = state ∨ answers.removes = true ∧ base = state.removeFiles [key]) ∧
    ((∃ result, createContext state key answers = .error (base, result)) ∨
      (answers.reopens = true ∧
        createContext state key answers = .ok (base.enter key answers.sized answers.spare))) := by
  unfold createContext
  split
  next => exact ⟨state, .inl rfl, .inl ⟨_, rfl⟩⟩
  next directory =>
    rw [Bool.not_eq_true, Bool.not_eq_false'] at directory
    split
    next => exact ⟨state, .inl rfl, .inl ⟨_, rfl⟩⟩
    next opening =>
      exact ⟨state, .inl rfl, .inr ⟨by simp [Answers.reopens, directory, opening], rfl⟩⟩
    next opening =>
      split
      next => exact ⟨state, .inl rfl, .inl ⟨_, rfl⟩⟩
      next fileExists =>
        rw [Bool.not_eq_true, Bool.not_eq_false'] at fileExists
        refine ⟨_, .inr ⟨by simp [Answers.removes, directory, opening, fileExists], rfl⟩, ?_⟩
        split
        next => exact .inl ⟨_, rfl⟩
        next => exact .inl ⟨_, rfl⟩
        next retry =>
          exact .inr ⟨by simp [Answers.reopens, directory, opening, fileExists, retry], rfl⟩

theorem enter_node :
    (state.enter key sized spare).2.node =
      ((state.find key).map Entry.node).getD state.next := by
  rw [State.enter]
  split
  next found => rw [found]; rfl
  next none => rw [none]; rfl

/-- `CleanupOldArchives` removes files only. -/
theorem cleanupOldArchives_eq (state : State) (settings : Settings) (key : Path)
    (answers : Answers) : ∃ files,
      state.cleanupOldArchives settings key answers = { state with files := files } := by
  unfold State.cleanupOldArchives
  split
  · exact ⟨state.files, rfl⟩
  · exact ⟨_, rfl⟩

/-- A rollover touches the node of its entry, if it comes so far. -/
theorem framed_rollOver (old : state.Old) (member : entry ∈ state.fileMap) :
    Framed state (fun node => answers.rollsOver settings = true ∧ entry.node = node)
      (rollOver settings state entry answers) := by
  have closes (node : Nat) : Retains state (state.adjust entry.node Context.close) node :=
    retains_close state entry.node node
  unfold rollOver
  split
  next => exact ⟨rfl, old.adjust, fun node _ => closes node⟩
  next closing =>
    rw [Bool.not_eq_true, Bool.not_eq_false'] at closing
    split
    next archived =>
      rw [Bool.not_eq_true'] at archived
      refine ⟨rfl, old.adjust.erase, ?_⟩
      intro node untouched
      refine (closes node).trans (retains_erase ?_)
      intro same
      exact untouched ⟨by simp [Answers.rollsOver, closing, archived], same.symm⟩
    next archived =>
      rcases cleanupOldArchives_eq ((state.adjust entry.node Context.close).removeFiles
        [entry.key]) settings entry.key answers with ⟨files, cleaned⟩
      simp only [cleaned]
      split
      next => exact ⟨rfl, old.adjust, fun node _ => (closes node).trans (.of_eq rfl rfl)⟩
      next cleaned =>
        rw [Bool.not_eq_true] at cleaned
        split
        next => exact ⟨rfl, old.adjust, fun node _ => (closes node).trans (.of_eq rfl rfl)⟩
        next reopening =>
          have rolls : answers.rollsOver settings = true := by
            simp [Answers.rollsOver, closing, cleaned, reopening]
          refine ⟨rfl, old.adjust.erase, ?_⟩
          intro node untouched
          refine ((closes node).trans (retains_erase ?_)).trans (.of_eq rfl rfl)
          exact fun same => untouched ⟨rolls, same.symm⟩
        next reopening =>
          have rolls : answers.rollsOver settings = true := by
            simp [Answers.rollsOver, closing, cleaned, reopening]
          refine ⟨rfl, ?_, ?_, ?_⟩
          · apply State.Old.adjust
            apply State.Old.takeNumber
            exact old.adjust
          · have closed : { entry with context := entry.context.close } ∈
              (state.adjust entry.node Context.close).fileMap := mem_adjust member
            exact List.mem_map.mpr ⟨_, closed, if_pos rfl⟩
          · intro node untouched
            refine (closes node).trans (Retains.trans ?_ (retains_adjust_of_ne ?_))
            · exact .of_eq rfl rfl
            · exact fun same => untouched ⟨rolls, same.symm⟩

/-- A rollover after the size check touches the node of its entry, if there is one. -/
theorem framed_check (old : state.Old) (member : entry ∈ state.fileMap) {bytes : Nat} :
    Framed state (fun node => (exceeds settings bytes data.length &&
        answers.rollsOver settings) = true ∧ entry.node = node)
      (if exceeds settings bytes data.length then rollOver settings state entry answers
        else .ok (state, entry)) := by
  split
  next full => simpa [full] using framed_rollOver old member
  next => exact ⟨rfl, old, member, fun _ _ => .of_eq rfl rfl⟩

/-- A new context and the check behind it touch the node of the key, or a new node. -/
theorem framed_create (old : state.Old) : Framed state
    (fun node => (answers.reopens = true ∧ state.Enters key node) ∨ state.next ≤ node)
    (createContext state key answers >>= fun (later, entry) =>
      if exceeds settings entry.context.currentSize data.length then
        rollOver settings later entry answers
      else .ok (later, entry)) := by
  rcases createContext_cases state key answers with
    ⟨base, base_eq, ⟨result, failed⟩ | ⟨reopens, created⟩⟩
  · rw [failed]
    rcases base_eq with rfl | ⟨-, rfl⟩
    · exact ⟨rfl, old, fun _ _ => .of_eq rfl rfl⟩
    · exact ⟨rfl, old, fun _ _ => .of_eq rfl rfl⟩
  · have same : base.fileMap = state.fileMap ∧ base.writes = state.writes ∧
        base.next = state.next ∧ base.buckets = state.buckets ∧
        base.rehashes = state.rehashes := by
      rcases base_eq with rfl | ⟨-, rfl⟩ <;> exact ⟨rfl, rfl, rfl, rfl, rfl⟩
    have found : base.find key = state.find key := by rw [State.find, same.1, State.find]
    have enters {node : Nat} : base.Enters key node ↔ state.Enters key node := by
      rw [State.Enters, State.Enters, found, State.isFull, State.isFull, same.1, same.2.2.2.1]
    have entered : Framed base (base.Enters key)
        (.ok (base.enter key answers.sized answers.spare)) :=
      framed_enter (old.congr same.1 same.2.2.1)
    rcases entered with ⟨writes, enteredOld, member, kept⟩
    have at_key {node : Nat}
        (at_key : (base.enter key answers.sized answers.spare).2.node = node) :
        (answers.reopens = true ∧ state.Enters key node) ∨ state.next ≤ node := by
      rw [enter_node, found, same.2.2.1] at at_key
      rw [State.Enters]
      cases at_state : state.find key with
      | none =>
          rw [at_state] at at_key
          exact .inr (Nat.le_of_eq at_key)
      | some entry =>
          rw [at_state] at at_key
          exact .inl ⟨reopens, at_key⟩
    rw [created]
    refine Framed.behind ((framed_check enteredOld member).mono ?_) (writes.trans same.2.1) ?_
    · exact fun node touched => at_key touched.2
    · intro node untouched
      refine Retains.trans (.of_eq same.2.2.2.2 same.1) (kept node ?_)
      exact fun touched => untouched (.inl ⟨reopens, enters.mp touched⟩)

/-- `FileWrite` touches the nodes that it is said to disturb, and new ones. -/
theorem framed_prepare (old : state.Old) (filename : Path) : Framed state
    (fun node => disturbs settings state (.fileWrite filename data answers) node = true ∨
      state.next ≤ node)
    (prepare settings state (settings.targetPath filename) data answers) := by
  unfold prepare findContext
  split
  next entry found =>
    split
    next isOpen =>
      apply (framed_check old (State.mem_of_find found)).mono
      rintro node ⟨rolls, at_node⟩
      left
      simpa [disturbs, found, isOpen, at_node] using rolls
    next closed =>
      apply (framed_create old).mono
      rintro node (⟨reopens, enters⟩ | new)
      · left
        rw [State.Enters, found] at enters
        simp [disturbs, found, closed, enters, reopens]
      · exact .inr new
  next none =>
    apply (framed_create old).mono
    rintro node (⟨reopens, enters⟩ | new)
    · left
      rw [State.Enters, none] at enters
      simp [disturbs, none, enters, reopens]
    · exact .inr new

end Steps

section Runs

variable {settings : Settings} {state later : State} {event : Event} {write : Write}

/-- New numbers are new, and every suspended write holds its entry. -/
structure Held (state : State) : Prop where
  old : state.Old
  current : ∀ write ∈ state.writes, Current state write

theorem Held.retained (held : Held state) (old : later.Old)
    (member : ∀ write ∈ later.writes, write ∈ state.writes)
    (kept : ∀ write ∈ later.writes, Retains state later write.node) : Held later :=
  ⟨old, fun write inLater =>
    (held.current write (member write inLater)).retained (kept write inLater)⟩

theorem Held.lt_next (held : Held state) (member : write ∈ state.writes) :
    write.node < state.next := by
  rcases held.current write member with ⟨-, entry, inMap, same, -⟩
  exact same ▸ held.old entry inMap

theorem fileWrite_held {filename : Path} {data : List UInt8} {answers : Answers}
    (held : Held state) (undisturbed :
      Undisturbed settings state (.fileWrite filename data answers)) :
    Held (fileWrite settings state filename data answers) := by
  have framed : Framed state _
      (prepare settings state (settings.targetPath filename) data answers) :=
    framed_prepare held.old filename
  have untouched {write : Write} (member : write ∈ state.writes) {later : State}
      (kept : ∀ node, ¬(disturbs settings state (.fileWrite filename data answers) node = true ∨
        state.next ≤ node) → Retains state later node) : Retains state later write.node := by
    apply kept
    rintro (touched | above)
    · rw [undisturbed write member] at touched
      cases touched
    · exact Nat.not_le_of_lt (held.lt_next member) above
  unfold fileWrite
  split
  next failed =>
    rw [failed] at framed
    rcases framed with ⟨writes, old, kept⟩
    refine held.retained old ?_ ?_
    · exact fun write member => writes ▸ member
    · exact fun write member => (untouched (writes ▸ member) kept).trans (.of_eq rfl rfl)
  next later entry prepared =>
    rw [prepared] at framed
    rcases framed with ⟨writes, old, inMap, kept⟩
    refine ⟨old, ?_⟩
    intro write member
    rcases List.mem_append.mp member with before | new
    · rw [writes] at before
      exact (held.current write before).retained ((untouched before kept).trans (.of_eq rfl rfl))
    · rw [List.mem_singleton.mp new]
      exact ⟨rfl, entry, inMap, rfl, rfl⟩

theorem land_held {index : Nat} (held : Held state) (taken : land state index = some later) :
    Held later := by
  unfold land at taken
  split at taken
  next => cases taken
  next write at_index =>
    split at taken
    next => cases taken
    next =>
      have landed : ∀ other ∈ state.writes.set index { write with landed := true },
          Current state other := by
        intro other member
        rcases List.mem_or_eq_of_mem_set member with before | rfl
        · exact held.current other before
        · exact held.current write (List.mem_of_getElem? at_index)
      split at taken
      next =>
        cases taken
        exact ⟨held.old, landed⟩
      next =>
        split at taken <;> cases taken
        · exact ⟨held.old, landed⟩
        · exact ⟨held.old, landed⟩

theorem resume_held {index : Nat} {succeeds : Bool} (held : Held state)
    (undisturbed : Undisturbed settings state (.resume index succeeds))
    (taken : resume state index succeeds = some later) : Held later := by
  have others : ∀ write ∈ state.writes.eraseIdx index, write ∈ state.writes :=
    fun write member => List.mem_of_mem_eraseIdx member
  unfold resume at taken
  split at taken
  next => cases taken
  next write at_index =>
    split at taken
    next => cases taken
    next =>
      split at taken
      next =>
        split at taken <;> cases taken
        have old : (state.adjust write.node (·.count write.data.length)).Old := held.old.adjust
        have kept (node : Nat) :
            Retains state (state.adjust write.node (·.count write.data.length)) node :=
          retains_adjust fun _ _ => rfl
        exact held.retained old others fun other _ => (kept other.node).trans (.of_eq rfl rfl)
      next failing =>
        cases taken
        refine held.retained held.old.erase others ?_
        intro other member
        refine Retains.trans (retains_erase ?_) (.of_eq rfl rfl)
        intro same
        have touched := undisturbed other member
        simp [disturbs, failing, at_index, same] at touched

theorem closeFile_held {path : Path} {closing : Bool} (held : Held state)
    (undisturbed : Undisturbed settings state (.closeFile path closing)) :
    Held (closeFile state path closing) := by
  unfold closeFile
  split
  next => exact held
  next entry found =>
    split
    next closing =>
      refine held.retained held.old.erase (fun _ => id) ?_
      intro write member
      apply retains_erase
      intro same
      have touched := undisturbed write member
      simp [disturbs, closing, found, same] at touched
    next => exact held.retained held.old.adjust (fun _ => id) fun write _ => retains_close _ _ _

theorem shutdown_held {left : List Path} (held : Held state)
    (undisturbed : Undisturbed settings state (.shutdown left)) : Held (shutdown state left) := by
  refine held.retained ?_ (fun _ => id) ?_
  · intro entry member
    rcases List.mem_map.mp member with ⟨before, kept, rfl⟩
    have old := held.old before (List.mem_filter.mp kept).1
    split <;> exact old
  · refine fun write member => ⟨rfl, fun entry inMap at_node => ?_⟩
    have stays : entry.key ∈ left := by
      by_contra gone
      have touched := undisturbed write member
      rw [disturbs, List.any_eq_false] at touched
      exact touched entry inMap (by simp [at_node, gone])
    have kept : entry ∈ state.fileMap.filter fun entry => entry.key ∈ left :=
      List.mem_filter.mpr ⟨inMap, by simpa using stays⟩
    refine ⟨_, List.mem_map.mpr ⟨entry, kept, rfl⟩, ?_⟩
    split <;> exact ⟨at_node, rfl⟩

theorem step_held (held : Held state) (undisturbed : Undisturbed settings state event)
    (taken : step settings state event = some later) : Held later := by
  cases event with
  | fileWrite filename data answers =>
      cases taken
      exact fileWrite_held held undisturbed
  | land index => exact land_held held taken
  | resume index succeeds => exact resume_held held undisturbed taken
  | closeFile path closing =>
      cases taken
      exact closeFile_held held undisturbed
  | shutdown left =>
      cases taken
      exact shutdown_held held undisturbed

/-- As long as no event touches the entry of a write that is under way, every suspended
`FileWrite` resumes with the entry that it has looked up. -/
theorem current_of_undisturbed {found : List (Path × Nat)} {spare : Nat}
    (reaches : Reaches (step settings) (Undisturbed settings) (initial found spare) state) :
    ∀ write ∈ state.writes, Current state write := by
  have held : Held (initial found spare) := ⟨nofun, nofun⟩
  exact (reaches.invariant held fun undisturbed taken held =>
    step_held held undisturbed taken).current

/-- Two messages are written to a log file one after the other, and a third one is begun before
another file is opened. -/
def writeThree : List Event :=
  [.fileWrite ['a'] [1, 2] {}, .land 0, .resume 0 true, .fileWrite ['a'] [3] {}, .land 0,
    .resume 0 true, .fileWrite ['a'] [4, 5] {}, .fileWrite ['b'] [6] {}]

/-- A log file is closed while a message is written to it. -/
def closeWhileWriting : List Event :=
  [.fileWrite ['a'] [1, 2] {}, .closeFile ['/', 'a'] true]

/-- A logger for small files. -/
def small : Settings := { rootDirectory := ['/'], maxFileSize := 4 }

theorem current_of_undisturbed_example : ∃ state,
    writeThree.foldlM (meetingStep (step small) (Undisturbed small)) (initial [] 0) = some state ∧
      ∃ write ∈ state.writes, Current state write := by
  let write : Write := ⟨1, 0, ['/', 'a'], 2, 2, [4, 5], false⟩
  let state : State :=
    { fileMap := [⟨1, ['/', 'a'], ⟨⟨2, 2, true⟩, 0⟩⟩, ⟨3, ['/', 'b'], ⟨⟨3, 3, true⟩, 0⟩⟩]
      buckets := 4
      rehashes := 0
      files := [(['/', 'b'], ⟨3, 0, []⟩), (['/', 'a'], ⟨2, 0, []⟩)]
      writes := [write, ⟨3, 0, ['/', 'b'], 3, 3, [6], false⟩]
      returned := [.value 2, .value 1]
      next := 4 }
  have run : writeThree.foldlM (meetingStep (step small) (Undisturbed small)) (initial [] 0) =
      some state := by decide
  exact ⟨state, run, write, List.mem_cons_self,
    current_of_undisturbed (reaches_of_meeting _ run) write List.mem_cons_self⟩

theorem entry_lost_by_close : ¬∀ settings found spare state,
    Reaches (step settings) (fun _ _ => True) (initial found spare) state →
      ∀ write ∈ state.writes, Current state write := by
  intro current
  let write : Write := ⟨1, 0, ['/', 'a'], 1, 1, [1, 2], false⟩
  let closed : State :=
    { fileMap := []
      buckets := 4
      rehashes := 0
      files := [(['/', 'a'], ⟨1, 0, []⟩)]
      writes := [write]
      returned := []
      next := 2 }
  have run : closeWhileWriting.foldlM (meetingStep (step small) fun _ _ => True) (initial [] 0) =
      some closed := by decide
  rcases current small [] 0 closed (reaches_of_meeting _ run) write List.mem_cons_self
    with ⟨-, entry, member, _⟩
  cases member

end Runs

end Wan.Chronicle.CoroutineLog
