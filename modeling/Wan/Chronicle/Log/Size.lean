import Wan.Chronicle.Log.Entries
import Wan.Library.Positions

/-!
# The size of a log file

Writes to one log file are counted when they resume, so between its check and its end a
write is in no count.  The count is right and the file within its limit as long as a check
that is made while other writes are under way has room for all of them.
-/

namespace Wan.Chronicle.CoroutineLog

open Wan.Library Wan.Library.Machine

/-- The number of bytes in the file at a path. -/
def State.bytes (state : State) (key : Path) : Nat := ((state.fileAt key).map File.size).getD 0

/-- The bytes of some writes. -/
def dataBytes (writes : List Write) : Nat := (writes.map fun write => write.data.length).sum

/-- The events of `FileWrite` on one file, with every awaited write succeeding. -/
def WritesTo (settings : Settings) (key : Path) : Event → Prop
  | .fileWrite filename _ _ => settings.targetPath filename = key
  | .land _ => True
  | .resume _ succeeds => succeeds = true
  | .closeFile _ _ | .shutdown _ => False

instance (settings : Settings) (key : Path) (event : Event) :
    Decidable (WritesTo settings key event) :=
  match event with
  | .fileWrite filename _ _ => inferInstanceAs (Decidable (settings.targetPath filename = key))
  | .land _ => inferInstanceAs (Decidable True)
  | .resume _ succeeds => inferInstanceAs (Decidable (succeeds = true))
  | .closeFile _ _ => inferInstanceAs (Decidable False)
  | .shutdown _ => inferInstanceAs (Decidable False)

/-- A failure of the file system leaves an entry with a count that is not the size of its
file: the file is removed or archived and does not open again, or the count is what
`file_size` returned for an error. -/
def miscounts (settings : Settings) (state : State) (key : Path) (data : List UInt8)
    (answers : Answers) : Bool :=
  match findContext state key answers with
  | .error _ =>
      answers.removes && (state.find key).any fun entry => entry.context.currentSize != 0
  | .ok (_, entry) =>
      let full := exceeds settings entry.context.currentSize data.length
      let created := !(state.find key).any fun entry => entry.context.handle.isOpen
      (full && answers.closing && answers.archived && entry.context.currentSize != 0 &&
          (cleanupThrows settings answers || answers.reopening == .thrown)) ||
        (created && !answers.sized && (!full || !answers.closing))

/-- While other writes are under way, the check of a `FileWrite` has room for all of them, and
no failure of the file system leaves a wrong count. -/
def Fitting (settings : Settings) (state : State) : Event → Prop
  | .fileWrite filename data answers =>
      let key := settings.targetPath filename
      (state.writes ≠ [] → ((state.find key).map fun entry => entry.context.currentSize).getD 0 +
        dataBytes state.writes + data.length ≤ settings.maxFileSize) ∧
      miscounts settings state key data answers = false
  | _ => True

instance (settings : Settings) (state : State) (event : Event) :
    Decidable (Fitting settings state event) :=
  match event with
  | .fileWrite _ _ _ => inferInstanceAs (Decidable ((_ → _) ∧ _))
  | .land _ | .resume _ _ | .closeFile _ _ | .shutdown _ => inferInstanceAs (Decidable True)

/-- The count in `FileMap` is the size of the file when no write is under way. -/
def CountRight (state : State) (key : Path) : Prop :=
  state.writes = [] → ∀ entry ∈ state.find key, entry.context.currentSize = state.bytes key

/-- The file is within the limit, or it holds a single message that is larger. -/
def WithinLimit (settings : Settings) (state : State) (key : Path) : Prop :=
  ∀ file ∈ state.fileAt key, file.size ≤ settings.maxFileSize ∨
    ∃ message, file.found = 0 ∧ file.messages = [message] ∧ settings.maxFileSize < message.length

section Files

variable {state : State} {key : Path} {file : File} {paths : List Path}

@[simp] theorem fileAt_setFile : (state.setFile key file).fileAt key = some file := by
  simp [State.fileAt, State.setFile]

theorem fileAt_removeFiles_of_mem (member : key ∈ paths) :
    (state.removeFiles paths).fileAt key = none := by
  rw [State.fileAt, State.removeFiles, List.find?_filter, Option.map_eq_none_iff,
    List.find?_eq_none]
  intro entry _
  by_cases same : entry.1 = key
  · simp [same, member]
  · simp [same]

theorem fileAt_removeFiles_of_not_mem (absent : key ∉ paths) :
    (state.removeFiles paths).fileAt key = state.fileAt key := by
  rw [State.fileAt, State.removeFiles, List.find?_filter, State.fileAt]
  congr 2
  funext entry
  by_cases same : entry.1 = key
  · simp [same, absent]
  · simp [same]

theorem fileAt_cleanupOldArchives {settings : Settings} {answers : Answers} :
    (state.cleanupOldArchives settings key answers).fileAt key = state.fileAt key := by
  unfold State.cleanupOldArchives
  split
  · rfl
  · apply fileAt_removeFiles_of_not_mem
    simp

end Files

section Counted

variable {settings : Settings} {state later : State} {key : Path} {entry : Entry}
variable {write : Write} {file : File} {answers : Answers} {data : List UInt8}

/-- The writes under way whose data has arrived. -/
def State.landed (state : State) : List Write := state.writes.filter Write.landed

/-- The writes under way whose data is on its way. -/
def State.flying (state : State) : List Write := state.writes.filter fun write => !write.landed

/-- The only entry is that of the file; its count and what has landed make up the file, and
with what is on its way the file stays within the limit or is a single message. -/
structure Counted (settings : Settings) (key : Path) (state : State) : Prop where
  single : state.fileMap.length ≤ 1
  own : ∀ entry ∈ state.fileMap, entry.key = key
  count : ∀ entry ∈ state.fileMap,
    entry.context.currentSize + dataBytes state.landed = state.bytes key
  live : ∀ entry ∈ state.fileMap, entry.context.handle.isOpen = true →
    ∃ file, state.fileAt key = some file ∧ file.id = entry.context.handle.file
  linked : ∀ write ∈ state.writes, write.key = key ∧ ∃ entry ∈ state.fileMap,
    entry.context.handle.isOpen = true ∧ entry.node = write.node ∧
      entry.context.handle.file = write.file
  bound : state.bytes key + dataBytes state.flying ≤ settings.maxFileSize ∨
    ∀ file ∈ state.fileAt key, file.found = 0 ∧ file.messages.length + state.flying.length ≤ 1

theorem Counted.countRight (counted : Counted settings key state) : CountRight state key := by
  intro none entry found
  have count := counted.count entry (State.mem_of_find found)
  rw [State.landed, none] at count
  exact count

theorem Counted.withinLimit (counted : Counted settings key state) :
    WithinLimit settings state key := by
  intro file found
  by_cases large : file.size ≤ settings.maxFileSize
  · exact .inl large
  right
  have bytes : state.bytes key = file.size := by rw [State.bytes, found]; rfl
  rcases counted.bound with small | single
  · exact absurd (bytes ▸ Nat.le_of_add_right_le small) large
  · rcases single file found with ⟨fresh, count⟩
    rw [File.size, fresh, Nat.zero_add] at large
    match messages : file.messages with
    | [] => simp [messages] at large
    | [message] => exact ⟨message, fresh, rfl, by simpa [messages] using large⟩
    | _ :: _ :: _ =>
        rw [messages, List.length_cons, List.length_cons] at count
        omega

/-- There is an entry, or there is none and no write is under way. -/
theorem Counted.cases (counted : Counted settings key state) :
    (∃ entry, state.fileMap = [entry] ∧ entry.key = key ∧ state.find key = some entry) ∨
      (state.fileMap = [] ∧ state.find key = none ∧ state.writes = []) := by
  match at_map : state.fileMap with
  | [] =>
      refine .inr ⟨rfl, by simp [State.find, at_map], ?_⟩
      apply List.eq_nil_iff_forall_not_mem.mpr
      intro write member
      rcases (counted.linked write member).2 with ⟨entry, inMap, _⟩
      rw [at_map] at inMap
      cases inMap
  | [entry] =>
      have own := counted.own entry (by simp [at_map])
      exact .inl ⟨entry, rfl, own, by simp [State.find, at_map, own]⟩
  | _ :: _ :: _ =>
      have single := counted.single
      simp [at_map] at single

/-- The file is within its limit or has at most one message. -/
def Limited (settings : Settings) (key : Path) (state : State) : Prop :=
  state.bytes key ≤ settings.maxFileSize ∨
    ∀ file ∈ state.fileAt key, file.found = 0 ∧ file.messages.length ≤ 1

theorem Limited.of_none (none : state.fileAt key = none) : Limited settings key state := by
  left
  rw [State.bytes, none]
  exact Nat.zero_le _

/-- Without an entry nothing is counted. -/
theorem Counted.of_empty (map : state.fileMap = []) (quiet : state.writes = [])
    (limited : Limited settings key state) : Counted settings key state := by
  constructor
  · simp [map]
  · simp [map]
  · simp [map]
  · simp [map]
  · simp [quiet]
  · rw [State.flying, quiet]
    exact limited

/-- An entry whose handle is closed counts what is in the file. -/
theorem Counted.of_closed (map : state.fileMap = [entry]) (quiet : state.writes = [])
    (own : entry.key = key) (closed : entry.context.handle.isOpen = false)
    (count : entry.context.currentSize = state.bytes key)
    (limited : Limited settings key state) : Counted settings key state := by
  constructor
  · simp [map]
  · simpa [map] using own
  · rw [map, State.landed, quiet]
    simpa [dataBytes] using count
  · simp [map, closed]
  · simp [quiet]
  · rw [State.flying, quiet]
    exact limited

@[simp] theorem dataBytes_nil : dataBytes [] = 0 := rfl

@[simp] theorem dataBytes_cons {writes : List Write} :
    dataBytes (write :: writes) = write.data.length + dataBytes writes := rfl

@[simp] theorem dataBytes_append {front back : List Write} :
    dataBytes (front ++ back) = dataBytes front + dataBytes back := by
  simp [dataBytes]

variable (state) in
/-- Every write under way has landed or is on its way. -/
theorem dataBytes_split : dataBytes state.landed + dataBytes state.flying =
    dataBytes state.writes := by
  rw [State.landed, State.flying]
  induction state.writes with
  | nil => rfl
  | cons write writes ih =>
      cases landed : write.landed <;> simp [landed, ← ih] <;> omega

theorem mem_singleton_of_cases (counted : Counted settings key state)
    (member : write ∈ state.writes) : ∃ entry file, state.fileMap = [entry] ∧
      entry.context.handle.isOpen = true ∧ entry.node = write.node ∧ entry.key = key ∧
        write.key = key ∧ state.fileAt key = some file ∧
          file.id = write.file ∧ entry.context.handle.file = write.file := by
  rcases counted.cases with ⟨entry, map, own, _⟩ | ⟨_, _, none⟩
  · rcases counted.linked write member with ⟨same, other, inMap, isOpen, node, sameFile⟩
    rw [map, List.mem_singleton] at inMap
    subst inMap
    rcases counted.live other (map ▸ List.mem_cons_self) isOpen with ⟨file, found, id⟩
    exact ⟨other, file, map, isOpen, node, own, same, found, id.trans sameFile, sameFile⟩
  · rw [none] at member
    cases member

theorem land_counted {index : Nat} (counted : Counted settings key state)
    (taken : land state index = some later) : Counted settings key later := by
  unfold land at taken
  split at taken
  next => cases taken
  next write at_index =>
    rcases mem_singleton_of_cases counted (List.mem_of_getElem? at_index)
      with ⟨entry, file, map, isOpen, node, own, rfl, found, id, sameFile⟩
    rcases exists_split_of_getElem? at_index with ⟨before, after, writes, set, -⟩
    split at taken
    next => cases taken
    next flying =>
      rw [Bool.not_eq_true] at flying
      simp only [found, id, if_true, Option.some.injEq] at taken
      have there : later.fileAt write.key =
          some { file with messages := file.messages ++ [write.data] } := by
        rw [← taken, fileAt_setFile, ← id]
      have bytes : later.bytes write.key = state.bytes write.key + write.data.length := by
        simp [State.bytes, there, found, File.size, Nat.add_assoc]
      have now : later.writes = before ++ { write with landed := true } :: after := by
        rw [← taken, ← set]
        rfl
      have landed : dataBytes later.landed = dataBytes state.landed + write.data.length := by
        simp [State.landed, now, writes, flying]
        omega
      have flown : dataBytes later.flying + write.data.length = dataBytes state.flying := by
        simp [State.flying, now, writes, flying]
        omega
      have fewer : later.flying.length + 1 = state.flying.length := by
        simp [State.flying, now, writes, flying]
        omega
      have sameMap : later.fileMap = state.fileMap := by
        rw [← taken]
        rfl
      constructor
      · exact sameMap ▸ counted.single
      · exact sameMap ▸ counted.own
      · intro other member
        have count := counted.count other (sameMap ▸ member)
        omega
      · intro other member isOpen
        rw [sameMap, map, List.mem_singleton] at member
        subst member
        exact ⟨_, there, id.trans sameFile.symm⟩
      · intro other member
        rw [sameMap]
        rw [now, ← set { write with landed := true }] at member
        rcases List.mem_or_eq_of_mem_set member with earlier | rfl
        · exact counted.linked other earlier
        · exact counted.linked write (List.mem_of_getElem? at_index)
      · rcases counted.bound with small | single
        · left
          omega
        · right
          intro other atKey
          rw [there, Option.mem_some_iff] at atKey
          subst atKey
          rcases single file found with ⟨fresh, count⟩
          refine ⟨fresh, ?_⟩
          rw [List.length_append, List.length_singleton]
          omega

theorem resume_counted {index : Nat} (counted : Counted settings key state)
    (taken : resume state index true = some later) : Counted settings key later := by
  unfold resume at taken
  split at taken
  next => cases taken
  next write at_index =>
    rcases mem_singleton_of_cases counted (List.mem_of_getElem? at_index)
      with ⟨entry, file, map, isOpen, node, own, rfl, found, id, sameFile⟩
    rcases exists_split_of_getElem? at_index with ⟨before, after, writes, -, erased⟩
    split at taken
    next => cases taken
    next =>
      rw [if_pos rfl] at taken
      split at taken
      next landed =>
        rw [Option.some.injEq] at taken
        have now : later.writes = before ++ after := by
          rw [← taken, ← erased]
          rfl
        have sameMap : later.fileMap =
            [{ entry with context := entry.context.count write.data.length }] := by
          simp [← taken, State.finish, State.adjust, map, node]
        have there : later.fileAt write.key = state.fileAt write.key := by
          rw [← taken]
          rfl
        have bytes : later.bytes write.key = state.bytes write.key := by
          rw [State.bytes, there, State.bytes]
        have fewer : dataBytes later.landed + write.data.length = dataBytes state.landed := by
          simp [State.landed, now, writes, landed]
          omega
        have flying : later.flying = state.flying := by
          simp [State.flying, now, writes, landed]
        have count := counted.count entry (map ▸ List.mem_cons_self)
        constructor
        · simp [sameMap]
        · simpa [sameMap] using own
        · intro other member
          rw [sameMap, List.mem_singleton] at member
          subst member
          simp only [Context.count]
          omega
        · intro other member _
          rw [sameMap, List.mem_singleton] at member
          subst member
          exact ⟨file, there.trans found, id.trans sameFile.symm⟩
        · intro other member
          have earlier : other ∈ state.writes := by
            rw [now] at member
            rw [writes]
            simp only [List.mem_append, List.mem_cons] at member ⊢
            tauto
          rcases counted.linked other earlier with ⟨same, linked, inMap, isOpen', node', file'⟩
          rw [map, List.mem_singleton] at inMap
          subst inMap
          refine ⟨same, { linked with context := linked.context.count write.data.length }, ?_,
            isOpen', node', file'⟩
          rw [sameMap]
          exact List.mem_cons_self
        · rw [bytes, flying, there]
          exact counted.bound
      next => cases taken

/-- What `FileWrite` has before it suspends in its `async_write`, when no other write is under
way: the count is the size of the file, which has room for the data or is empty. -/
structure Prepared (settings : Settings) (key : Path) (data : List UInt8) (state : State)
    (entry : Entry) : Prop where
  map : state.fileMap = [entry]
  quiet : state.writes = []
  own : entry.key = key
  isOpen : entry.context.handle.isOpen = true
  file : ∃ file, state.fileAt key = some file ∧ file.id = entry.context.handle.file ∧
    entry.context.currentSize = file.size ∧
      (file.size + data.length ≤ settings.maxFileSize ∨ file.found = 0 ∧ file.messages = [])

theorem Prepared.counted (prepared : Prepared settings key data state entry) :
    Counted settings key (state.startWrite entry data) := by
  rcases prepared.file with ⟨file, found, id, count, room⟩
  have now : (state.startWrite entry data).writes =
      [⟨entry.node, state.rehashes, entry.key, entry.context.handle.id,
        entry.context.handle.file, data, false⟩] := by
    simp [State.startWrite, prepared.quiet]
  have bytes : (state.startWrite entry data).bytes key = file.size := by
    change ((state.fileAt key).map File.size).getD 0 = _
    rw [found]
    rfl
  constructor
  · rw [State.startWrite, prepared.map]
    exact le_rfl
  · intro other member
    rw [State.startWrite, prepared.map, List.mem_singleton] at member
    exact member ▸ prepared.own
  · intro other member
    rw [State.startWrite, prepared.map, List.mem_singleton] at member
    rw [State.landed, now, member, bytes, count]
    rfl
  · intro other member _
    rw [State.startWrite, prepared.map, List.mem_singleton] at member
    exact ⟨file, found, member ▸ id⟩
  · intro write member
    rw [now, List.mem_singleton] at member
    subst member
    refine ⟨prepared.own, entry, ?_, prepared.isOpen, rfl, rfl⟩
    rw [State.startWrite, prepared.map]
    exact List.mem_cons_self
  · rcases room with small | ⟨fresh, empty⟩
    · left
      rw [bytes, State.flying, now]
      simpa using small
    · right
      intro other atKey
      cases found.symm.trans atKey
      rw [State.flying, now, empty]
      exact ⟨fresh, le_rfl⟩

/-- An entry with an open handle, when no other write is under way; whether its count is right
depends on `file_size`. -/
structure Opened (settings : Settings) (key : Path) (state : State) (entry : Entry)
    (right : Prop) : Prop where
  map : state.fileMap = [entry]
  quiet : state.writes = []
  own : entry.key = key
  isOpen : entry.context.handle.isOpen = true
  file : ∃ file, state.fileAt key = some file ∧ file.id = entry.context.handle.file ∧
    (right → entry.context.currentSize = file.size) ∧
      (file.size ≤ settings.maxFileSize ∨ file.found = 0 ∧ file.messages.length ≤ 1)

/-- A write that its check lets pass. -/
theorem Opened.prepared {right : Prop} (opened : Opened settings key state entry right)
    (known : right)
    (room : exceeds settings entry.context.currentSize data.length = false) :
    Prepared settings key data state entry := by
  rcases opened.file with ⟨file, found, id, count, -⟩
  refine ⟨opened.map, opened.quiet, opened.own, opened.isOpen, file, found, id, count known, ?_⟩
  left
  rw [count known] at room
  simp only [exceeds, Bool.or_eq_false_iff, decide_eq_false_iff_not, Nat.not_lt] at room
  omega

variable (answers data) in
/-- A rollover leaves a right count, if it leaves an entry at all. -/
theorem rollOver_counted {right : Prop} (opened : Opened settings key state entry right)
    (closes : answers.closing = false → right)
    (strands : answers.closing = true → answers.archived = true →
      cleanupThrows settings answers = true ∨ answers.reopening = .thrown →
        entry.context.currentSize = 0) :
    match rollOver settings state entry answers with
    | .error (later, _) => Counted settings key later
    | .ok (later, new) => Prepared settings key data later new := by
  rcases opened with ⟨map, quiet, rfl, isOpen, file, found, id, count, limit⟩
  have closed (f : List (Path × File)) :
      ({ state.adjust entry.node Context.close with files := f } : State).fileMap =
        [{ entry with context := entry.context.close }] := by
    simp [State.adjust, map]
  have erased (f : List (Path × File)) :
      (({ state.adjust entry.node Context.close with files := f } : State).erase
        entry.node).fileMap = [] := by
    simp [State.adjust, State.erase, map]
  have bytes : state.bytes entry.key = file.size := by
    rw [State.bytes, found]
    rfl
  have limited : Limited settings entry.key state := by
    rw [Limited, bytes]
    refine limit.imp_right ?_
    intro single other atKey
    cases found.symm.trans atKey
    exact single
  unfold rollOver
  by_cases closing : answers.closing = true
  · by_cases archived : answers.archived = true
    · rcases cleanupOldArchives_eq ((state.adjust entry.node Context.close).removeFiles [entry.key])
        settings entry.key answers with ⟨files, cleaned⟩
      have gone : ({ (state.adjust entry.node Context.close) with files := files } : State).fileAt
          entry.key = none := by
        change ({ (state.adjust entry.node Context.close).removeFiles [entry.key] with
          files := files } : State).fileAt entry.key = none
        rw [← cleaned, fileAt_cleanupOldArchives]
        exact fileAt_removeFiles_of_mem List.mem_cons_self
      have stranded : cleanupThrows settings answers = true ∨ answers.reopening = .thrown →
          Counted settings entry.key
            { (state.adjust entry.node Context.close) with files := files } := by
        intro thrown
        apply Counted.of_closed (closed files) quiet rfl rfl
        · rw [State.bytes, gone]
          exact strands closing archived thrown
        · exact .of_none gone
      simp only [closing, archived, cleaned, Bool.not_true, Bool.false_eq_true, if_false]
      by_cases thrown : cleanupThrows settings answers = true
      · rw [if_pos thrown]
        exact stranded (.inl thrown)
      · rw [if_neg thrown]
        cases reopening : answers.reopening with
        | thrown => exact stranded (.inr reopening)
        | unopened => exact .of_empty (erased files) quiet (.of_none gone)
        | opened =>
            refine ⟨?_, quiet, rfl, rfl, ⟨state.next, 0, []⟩, fileAt_setFile, rfl, rfl,
              .inr ⟨rfl, rfl⟩⟩
            simp [State.adjust, State.takeNumber, State.setFile, State.removeFiles, map]
    · rw [Bool.not_eq_true] at archived
      simp only [closing, archived, Bool.not_true, Bool.not_false, Bool.false_eq_true, if_false,
        if_true]
      exact .of_empty (erased state.files) quiet limited
  · rw [Bool.not_eq_true] at closing
    simp only [closing, Bool.not_false, if_true]
    exact .of_closed (closed state.files) quiet rfl rfl ((count (closes closing)).trans bytes.symm)
      limited

/-- There is an entry of the file, or none at all, and no write is under way. -/
structure Quiet (settings : Settings) (key : Path) (state : State) : Prop where
  writes : state.writes = []
  map : (∃ entry, state.fileMap = [entry] ∧ entry.key = key ∧ state.find key = some entry) ∨
    state.fileMap = [] ∧ state.find key = none
  limited : Limited settings key state

theorem enter_opened {sized : Bool} {spare : Nat} (quiet : Quiet settings key state) :
    Opened settings key (state.enter key sized spare).1 (state.enter key sized spare).2
      (sized = true) := by
  have limit : ((state.fileAt key).getD ⟨state.next, 0, []⟩).size ≤ settings.maxFileSize ∨
      ((state.fileAt key).getD ⟨state.next, 0, []⟩).found = 0 ∧
        ((state.fileAt key).getD ⟨state.next, 0, []⟩).messages.length ≤ 1 := by
    cases found : state.fileAt key with
    | none => exact .inr ⟨rfl, Nat.zero_le _⟩
    | some file =>
        refine quiet.limited.imp ?_ fun single => single file found
        intro small
        rwa [State.bytes, found] at small
  rw [State.enter]
  rcases quiet.map with ⟨entry, map, own, found⟩ | ⟨map, none⟩
  · rw [found]
    refine ⟨?_, quiet.writes, own, rfl, _, fileAt_setFile, rfl, ?_, limit⟩
    · simp [State.adjust, State.takeNumber, State.setFile, map]
    · exact fun known => if_pos known
  · rw [none]
    refine ⟨?_, quiet.writes, rfl, rfl, _, fileAt_setFile, rfl, ?_, limit⟩
    · simp [State.insert, State.takeNumber, State.setFile, map]
    · exact fun known => if_pos known

theorem Counted.limited (counted : Counted settings key state) (quiet : state.writes = []) :
    Limited settings key state := by
  have bound := counted.bound
  rw [State.flying, quiet] at bound
  exact bound

theorem Counted.quiet (counted : Counted settings key state) (quiet : state.writes = []) :
    Quiet settings key state :=
  ⟨quiet, counted.cases.imp id fun none => ⟨none.1, none.2.1⟩, counted.limited quiet⟩

variable (answers) in
/-- A context is opened, or what is left is counted unless a file has been removed whose entry
stays. -/
theorem createContext_counted (counted : Counted settings key state) (quiet : state.writes = [])
    (closed : ∀ entry ∈ state.fileMap, entry.context.handle.isOpen = false) :
    match createContext state key answers with
    | .error (later, _) =>
        (answers.removes = true → ∀ entry ∈ state.fileMap, entry.context.currentSize = 0) →
          Counted settings key later
    | .ok (later, entry) => Opened settings key later entry (answers.sized = true) := by
  have gone : (state.removeFiles [key]).fileAt key = none :=
    fileAt_removeFiles_of_mem List.mem_cons_self
  rcases createContext_cases state key answers
    with ⟨base, base_eq, ⟨result, failed⟩ | ⟨-, created⟩⟩
  · rw [failed]
    rcases base_eq with rfl | ⟨removes, rfl⟩
    · exact fun _ => counted
    · intro zero
      rcases counted.cases with ⟨entry, map, own, -⟩ | ⟨map, -, -⟩
      · have member : entry ∈ state.fileMap := map ▸ List.mem_cons_self
        have removed : (state.removeFiles [key]).fileMap = [entry] := map
        apply Counted.of_closed removed quiet own (closed entry member)
        · rw [zero removes entry member, State.bytes, gone]
          rfl
        · exact .of_none gone
      · exact .of_empty map quiet (.of_none gone)
  · rw [created]
    apply enter_opened
    rcases base_eq with rfl | ⟨-, rfl⟩
    · exact counted.quiet quiet
    · exact ⟨quiet, (counted.quiet quiet).map, .of_none gone⟩

theorem Counted.finish {result : Result} (counted : Counted settings key state) :
    Counted settings key (state.finish result) :=
  ⟨counted.single, counted.own, counted.count, counted.live, counted.linked, counted.bound⟩

/-- What comes behind the context that has been found or created. -/
theorem check_counted {right : Prop} {filename : Path}
    (at_key : settings.targetPath filename = key)
    (found : findContext state key answers = .ok (later, entry))
    (opened : Opened settings key later entry right)
    (known : (state.find key).any (fun entry => entry.context.handle.isOpen) = true ∨
      answers.sized = true → right)
    (fits : miscounts settings state key data answers = false) :
    Counted settings key (fileWrite settings state filename data answers) := by
  have prepared : prepare settings state (settings.targetPath filename) data answers =
      if exceeds settings entry.context.currentSize data.length then
        rollOver settings later entry answers
      else .ok (later, entry) := by
    rw [prepare, at_key, found]
    rfl
  rw [miscounts, found] at fits
  simp only [Bool.or_eq_false_iff] at fits
  rcases fits with ⟨strands, unsized⟩
  have sized : exceeds settings entry.context.currentSize data.length = false ∨
      answers.closing = false → right := by
    intro reason
    apply known
    by_contra unknown
    rw [not_or, Bool.not_eq_true, Bool.not_eq_true] at unknown
    rcases reason with fits | closing
    · simp [unknown.1, unknown.2, fits] at unsized
    · simp [unknown.1, unknown.2, closing] at unsized
  rw [fileWrite, prepared]
  cases full : exceeds settings entry.context.currentSize data.length with
  | false => exact (opened.prepared (sized (.inl full)) full).counted
  | true =>
      have rolled := rollOver_counted answers data opened
        (fun closing => sized (.inr closing)) ?_
      · rw [if_pos rfl]
        revert rolled
        cases rollOver settings later entry answers with
        | error _ => exact Counted.finish
        | ok _ => exact Prepared.counted
      · intro closing archived thrown
        by_contra count
        rw [full, closing, archived] at strands
        rcases thrown with throws | thrown
        · simp [count, throws] at strands
        · simp [count, thrown] at strands

/-- A `FileWrite` while no other write is under way. -/
theorem fileWrite_counted_of_quiet {filename : Path} (counted : Counted settings key state)
    (quiet : state.writes = []) (at_key : settings.targetPath filename = key)
    (fits : miscounts settings state key data answers = false) :
    Counted settings key (fileWrite settings state filename data answers) := by
  by_cases isOpen : ∃ entry, state.find key = some entry ∧ entry.context.handle.isOpen = true
  · rcases isOpen with ⟨entry, found, isOpen⟩
    have here : findContext state key answers = .ok (state, entry) := by
      rw [findContext, found]
      exact if_pos isOpen
    have member := State.mem_of_find found
    rcases counted.cases with ⟨other, map, own, atKey⟩ | ⟨_, none, _⟩
    · cases found.symm.trans atKey
      rcases counted.live entry member isOpen with ⟨file, there, id⟩
      have bytes : state.bytes key = file.size := by
        rw [State.bytes, there]
        rfl
      have count := counted.count entry member
      rw [State.landed, quiet, bytes] at count
      have limited := counted.limited quiet
      rw [Limited, bytes] at limited
      have opened : Opened settings key state entry True :=
        ⟨map, quiet, own, isOpen, file, there, id, fun _ => count,
          limited.imp_right fun single => single file there⟩
      exact check_counted at_key here opened (fun _ => trivial) fits
    · rw [none] at found
      cases found
  · have closed : ∀ entry ∈ state.fileMap, entry.context.handle.isOpen = false := by
      intro entry member
      rcases counted.cases with ⟨other, map, own, atKey⟩ | ⟨empty, _, _⟩
      · rw [map, List.mem_singleton] at member
        subst member
        exact Bool.not_eq_true _ ▸ fun isOpen' => isOpen ⟨entry, atKey, isOpen'⟩
      · rw [empty] at member
        cases member
    have creates : findContext state key answers = createContext state key answers := by
      rw [findContext]
      split
      next entry found => exact if_neg fun isOpen' => isOpen ⟨entry, found, isOpen'⟩
      next => rfl
    have created := createContext_counted answers counted quiet closed
    cases result : createContext state key answers with
    | error left =>
        rw [result] at created
        rw [fileWrite, prepare, at_key, creates, result]
        apply Counted.finish
        apply created
        intro removes entry member
        by_contra count
        rw [miscounts, creates, result] at fits
        rcases counted.cases with ⟨other, map, own, atKey⟩ | ⟨empty, _, _⟩
        · rw [map, List.mem_singleton] at member
          subst member
          simp [removes, atKey, count] at fits
        · rw [empty] at member
          cases member
    | ok opened =>
        rw [result] at created
        apply check_counted at_key (creates.trans result) created _ fits
        rintro (isOpen' | sized)
        · rcases (Option.any_eq_true _ _).mp isOpen' with ⟨entry, found, open'⟩
          exact absurd ⟨entry, found, open'⟩ isOpen
        · exact sized

/-- A `FileWrite` whose check has room for all writes under way. -/
theorem fileWrite_counted_of_room {filename : Path} (counted : Counted settings key state)
    (busy : state.writes ≠ []) (at_key : settings.targetPath filename = key)
    (room : ((state.find key).map fun entry => entry.context.currentSize).getD 0 +
      dataBytes state.writes + data.length ≤ settings.maxFileSize) :
    Counted settings key (fileWrite settings state filename data answers) := by
  rcases List.exists_mem_of_ne_nil _ busy with ⟨write, member⟩
  rcases mem_singleton_of_cases counted member
    with ⟨entry, file, map, isOpen, -, own, -, there, id, sameFile⟩
  have inMap : entry ∈ state.fileMap := map ▸ List.mem_cons_self
  have found : state.find key = some entry := by simp [State.find, map, own]
  rw [found] at room
  simp only [Option.map_some, Option.getD_some] at room
  have fits : exceeds settings entry.context.currentSize data.length = false := by
    simp only [exceeds, Bool.or_eq_false_iff, decide_eq_false_iff_not, Nat.not_lt]
    omega
  have prepared : prepare settings state (settings.targetPath filename) data answers =
      .ok (state, entry) := by
    rw [prepare, at_key, findContext, found]
    simp only [isOpen, if_true]
    exact if_neg (by simp [fits])
  rw [fileWrite, prepared]
  change Counted settings key (state.startWrite entry data)
  have landed : (state.startWrite entry data).landed = state.landed := by
    simp [State.landed, State.startWrite]
  have flying : dataBytes (state.startWrite entry data).flying =
      dataBytes state.flying + data.length := by
    simp [State.flying, State.startWrite]
  have count := counted.count entry inMap
  have split := dataBytes_split state
  constructor
  · exact counted.single
  · exact counted.own
  · rw [landed]
    exact counted.count
  · exact counted.live
  · intro other member
    rcases List.mem_append.mp member with earlier | new
    · exact counted.linked other earlier
    · rw [List.mem_singleton.mp new]
      exact ⟨own, entry, inMap, isOpen, rfl, rfl⟩
  · left
    rw [flying]
    change state.bytes key + _ ≤ _
    omega

end Counted

section Runs

variable {settings : Settings} {state later : State} {event : Event} {key : Path}

theorem step_counted (counted : Counted settings key state)
    (meets : WritesTo settings key event ∧ Fitting settings state event)
    (taken : step settings state event = some later) : Counted settings key later := by
  rcases meets with ⟨writes, fitting⟩
  cases event with
  | fileWrite filename data answers =>
      cases taken
      rcases fitting with ⟨room, fits⟩
      by_cases quiet : state.writes = []
      · exact fileWrite_counted_of_quiet counted quiet writes (writes ▸ fits)
      · exact fileWrite_counted_of_room counted quiet writes (writes ▸ room quiet)
  | land index => exact land_counted counted taken
  | resume index succeeds =>
      cases writes
      exact resume_counted counted taken
  | closeFile path closing => cases writes
  | shutdown left => cases writes

theorem initial_counted {found : List (Path × Nat)} {spare : Nat}
    (within : ∀ entry ∈ found, entry.1 = key → entry.2 ≤ settings.maxFileSize) :
    Counted settings key (initial found spare) := by
  apply Counted.of_empty rfl rfl
  left
  rw [State.bytes]
  cases at_key : (initial found spare).fileAt key with
  | none => exact Nat.zero_le _
  | some file =>
      rcases Option.map_eq_some_iff.mp at_key with ⟨entry, first, rfl⟩
      rcases List.mem_map.mp (List.mem_of_find?_eq_some first) with ⟨before, member, rfl⟩
      have same : before.1 = key := by simpa using List.find?_some first
      exact within before member same

/-- Any number of calls of `FileWrite` write to one log file, and every write succeeds.  As
long as every check that is made while writes are under way has room for all of them, and no
failure of the file system leaves a wrong count, the count is right whenever no write is under
way, and the file is within its limit. -/
theorem counted_of_fitting {found : List (Path × Nat)} {spare : Nat}
    (within : ∀ entry ∈ found, entry.1 = key → entry.2 ≤ settings.maxFileSize)
    (reaches : Reaches (step settings)
      (fun state event => WritesTo settings key event ∧ Fitting settings state event)
      (initial found spare) state) :
    CountRight state key ∧ WithinLimit settings state key := by
  have counted := reaches.invariant (initial_counted within)
    fun meets taken counted => step_counted counted meets taken
  exact ⟨counted.countRight, counted.withinLimit⟩

/-- Two messages that fit together are written at the same time, and a third one, for which
the file has to be archived, comes when they are done. -/
def writeInTurn : List Event :=
  [.fileWrite ['a'] [1, 2] {}, .fileWrite ['a'] [3] {}, .land 1, .land 0, .resume 0 true,
    .resume 0 true, .fileWrite ['a'] [4, 5] {}, .land 0, .resume 0 true]

/-- Two messages that do not fit together are written at the same time. -/
def writeAtOnce : List Event :=
  [.fileWrite ['a'] [1, 2, 3] {}, .fileWrite ['a'] [4, 5] {}, .land 0, .land 1]

theorem counted_of_fitting_example : ∃ state,
    writeInTurn.foldlM (meetingStep (step small) fun state event =>
        WritesTo small ['/', 'a'] event ∧ Fitting small state event) (initial [] 0) = some state ∧
      CountRight state ['/', 'a'] ∧ WithinLimit small state ['/', 'a'] := by
  let state : State :=
    { fileMap := [⟨1, ['/', 'a'], ⟨⟨2, 2, true⟩, 2⟩⟩]
      buckets := 4
      rehashes := 0
      files := [(['/', 'a'], ⟨2, 0, [[4, 5]]⟩)]
      writes := []
      returned := [.value 2, .value 1, .value 2]
      next := 3 }
  have run : writeInTurn.foldlM (meetingStep (step small) fun state event =>
      WritesTo small ['/', 'a'] event ∧ Fitting small state event) (initial [] 0) = some state := by
    decide
  exact ⟨state, run, counted_of_fitting (List.forall_mem_nil _) (reaches_of_meeting _ run)⟩

theorem limit_exceeded : ¬∀ settings key state,
    Reaches (step settings) (fun _ event => WritesTo settings key event) (initial [] 0) state →
      CountRight state key ∧ WithinLimit settings state key := by
  intro counted
  let state : State :=
    { fileMap := [⟨1, ['/', 'a'], ⟨⟨1, 1, true⟩, 0⟩⟩]
      buckets := 4
      rehashes := 0
      files := [(['/', 'a'], ⟨1, 0, [[1, 2, 3], [4, 5]]⟩)]
      writes :=
        [⟨1, 0, ['/', 'a'], 1, 1, [1, 2, 3], true⟩, ⟨1, 0, ['/', 'a'], 1, 1, [4, 5], true⟩]
      returned := []
      next := 2 }
  have run : writeAtOnce.foldlM (meetingStep (step small) fun _ event =>
      WritesTo small ['/', 'a'] event) (initial [] 0) = some state := by decide
  rcases (counted small ['/', 'a'] state (reaches_of_meeting _ run)).2 _ rfl
    with small | ⟨message, _, single, _⟩
  · exact absurd small (by decide)
  · cases single

end Runs

end Wan.Chronicle.CoroutineLog
