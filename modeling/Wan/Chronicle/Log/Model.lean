import Wan.Library.Machine
import Mathlib.Algebra.Ring.Nat

/-!
# The file side of `Chronicle/Log.hpp`

All coroutines run on the strand `SerialExec`, so what a coroutine does between two
suspension points is one step.  A `FileWrite` suspends once, in its `async_write`; what is
left of it then is an iterator into `FileMap` and the write that is under way.  An insertion
that makes `FileMap` rehash invalidates every iterator into it.  Paths are POSIX paths.
Sizes are natural numbers: a log file does not grow beyond 64 bits.
-/

namespace Wan.Chronicle.CoroutineLog

/-- A path or a file name. -/
abbrev Path := List Char

instance decidableMem (path : Path) (paths : List Path) : Decidable (path ∈ paths) :=
  List.instDecidableMemOfLawfulBEq path paths

/-- `Fs::path::is_absolute`. -/
def isAbsolute (path : Path) : Bool := path.head? == some '/'

/-- `Fs::path::operator/` for a relative second path. -/
def append (directory name : Path) : Path :=
  if directory.isEmpty || directory.getLast? == some '/' then directory ++ name
  else directory ++ '/' :: name

/-- The members that are set before any file is written. -/
structure Settings where
  rootDirectory : Path
  maxFileSize : Nat := 10 * 1024 * 1024
  maxArchiveCount : Nat := 0

/-- The path of a log file, which is its key in `FileMap`. -/
def Settings.targetPath (settings : Settings) (filename : Path) : Path :=
  if isAbsolute filename then filename else append settings.rootDirectory filename

example : Settings.targetPath ⟨['/', 'l'], 100, 0⟩ ['a'] = ['/', 'l', '/', 'a'] := by decide

/-- A `stream_file`, by its number and by the number of the file that it has opened. -/
structure Handle where
  id : Nat
  file : Nat
  isOpen : Bool
  deriving DecidableEq

/-- `Context`; no context in `FileMap` has a null handle. -/
structure Context where
  handle : Handle
  currentSize : Nat
  deriving DecidableEq

/-- A node of `FileMap`. An iterator to it is the number of the node. -/
structure Entry where
  node : Nat
  key : Path
  context : Context
  deriving DecidableEq

/-- A file on disk: the bytes that it held before the logger opened it, and the messages that
have been written to it since. -/
structure File where
  id : Nat
  found : Nat
  messages : List (List UInt8)
  deriving DecidableEq

/-- The number of bytes in a file. -/
def File.size (file : File) : Nat := file.found + (file.messages.map List.length).sum

/-- An `async_write` under way, with what its `FileWrite` goes on with. -/
structure Write where
  /-- The iterator `It`. -/
  node : Nat
  /-- How often `FileMap` had rehashed when `It` was obtained. -/
  rehashes : Nat
  key : Path
  handle : Nat
  file : Nat
  data : List UInt8
  /-- The data has arrived in the file. -/
  landed : Bool
  deriving DecidableEq

/-- What a `FileWrite` returns. -/
inductive Result where
  | value (bytes : Nat)
  | thrown
  deriving DecidableEq, Repr

/-- `FileMap`, the live files by their paths, and the suspended calls of `FileWrite`. An
archived file has no path any more. -/
structure State where
  fileMap : List Entry
  /-- `FileMap.bucket_count()`; the load factor is at most 1. -/
  buckets : Nat
  /-- How often `FileMap` has rehashed. -/
  rehashes : Nat
  files : List (Path × File)
  writes : List Write
  returned : List Result
  next : Nat
  deriving DecidableEq

/-- How the constructor of a `stream_file` ends. -/
inductive Opening where
  | opened
  /-- It returns a file that is not open. -/
  | unopened
  | thrown
  deriving DecidableEq, Repr

/-- What the file system answers to one call of `FileWrite`. -/
structure Answers where
  /-- The directory of the file exists or can be created. -/
  directory : Bool := true
  opening : Opening := .opened
  /-- The file that does not open exists. -/
  fileExists : Bool := true
  retry : Opening := .opened
  /-- `Fs::file_size` succeeds. -/
  sized : Bool := true
  /-- How many more buckets than it needs a `FileMap` gets that rehashes. -/
  spare : Nat := 0
  /-- `Handle->close()` does not throw. -/
  closing : Bool := true
  /-- The file can be renamed to some archive path. -/
  archived : Bool := true
  /-- `CleanupOldArchives` does not throw. -/
  cleaned : Bool := true
  /-- The paths that `CleanupOldArchives` removes. -/
  removed : List Path := []
  reopening : Opening := .opened
  deriving DecidableEq

namespace State

/-- The file at a path. -/
def fileAt (state : State) (path : Path) : Option File :=
  (state.files.find? fun entry => entry.1 = path).map Prod.snd

/-- Let a path lead to a file. -/
def setFile (state : State) (path : Path) (file : File) : State :=
  { state with files := (path, file) :: state.files.filter fun entry => entry.1 ≠ path }

/-- Remove paths. -/
def removeFiles (state : State) (paths : List Path) : State :=
  { state with files := state.files.filter fun entry => entry.1 ∉ paths }

/-- `FileMap.find`. -/
def find (state : State) (key : Path) : Option Entry :=
  state.fileMap.find? fun entry => entry.key = key

/-- Change the context behind an iterator. -/
def adjust (state : State) (node : Nat) (change : Context → Context) : State :=
  { state with
    fileMap := state.fileMap.map fun entry =>
      if entry.node = node then { entry with context := change entry.context } else entry }

/-- `FileMap.erase`. -/
def erase (state : State) (node : Nat) : State :=
  { state with fileMap := state.fileMap.filter fun entry => entry.node ≠ node }

/-- There is no bucket for one more node. -/
def isFull (state : State) : Bool := state.buckets ≤ state.fileMap.length

/-- Add a node to `FileMap`, which rehashes if it is full. -/
def insert (state : State) (entry : Entry) (spare : Nat) : State :=
  { state with
    fileMap := state.fileMap ++ [entry]
    buckets := if state.isFull then state.fileMap.length + 1 + spare else state.buckets
    rehashes := if state.isFull then state.rehashes + 1 else state.rehashes }

/-- Use up a number. -/
def takeNumber (state : State) : State := { state with next := state.next + 1 }

/-- A call of `FileWrite` returns. -/
def finish (state : State) (result : Result) : State :=
  { state with returned := state.returned ++ [result] }

end State

/-- `Handle->close()`. -/
def Context.close (context : Context) : Context :=
  { context with handle := { context.handle with isOpen := false } }

/-- `CurrentSize += N`. -/
def Context.count (context : Context) (bytes : Nat) : Context :=
  { context with currentSize := context.currentSize + bytes }

/-- What `Fs::file_size` returns when it fails. -/
def sizeError : Nat := 2 ^ 64 - 1

/-- The context of a file that has been opened for appending, which creates it if it does not
exist; `insert_or_assign` enters the context into `FileMap`. -/
def State.enter (state : State) (key : Path) (sized : Bool) (spare : Nat) : State × Entry :=
  let file := (state.fileAt key).getD ⟨state.next, 0, []⟩
  let context : Context :=
    ⟨⟨state.next, file.id, true⟩, if sized then file.size else sizeError⟩
  let opened := (state.setFile key file).takeNumber
  match state.find key with
  | some entry => (opened.adjust entry.node fun _ => context, { entry with context := context })
  | none =>
      let entry : Entry := ⟨state.next, key, context⟩
      (opened.insert entry spare, entry)

/-- The part of `FileWrite` that opens the file, with the attempt to recreate a file that
does not open. -/
def createContext (state : State) (key : Path) (answers : Answers) :
    Except (State × Result) (State × Entry) :=
  if !answers.directory then .error (state, .value 0)
  else
    match answers.opening with
    | .thrown => .error (state, .thrown)
    | .opened => .ok (state.enter key answers.sized answers.spare)
    | .unopened =>
        if !answers.fileExists then .error (state, .value 0)
        else
          match answers.retry with
          | .thrown => .error (state.removeFiles [key], .thrown)
          | .unopened => .error (state.removeFiles [key], .value 0)
          | .opened => .ok ((state.removeFiles [key]).enter key answers.sized answers.spare)

/-- The part of `FileWrite` that finds or creates the context of the file. -/
def findContext (state : State) (key : Path) (answers : Answers) :
    Except (State × Result) (State × Entry) :=
  match state.find key with
  | some entry =>
      if entry.context.handle.isOpen then .ok (state, entry)
      else createContext state key answers
  | none => createContext state key answers

/-- The check of the file size. -/
def exceeds (settings : Settings) (currentSize writeSize : Nat) : Bool :=
  decide (settings.maxFileSize < writeSize) ||
    decide (settings.maxFileSize - writeSize < currentSize)

/-- `CleanupOldArchives` throws; it returns at once when archives are not limited. -/
def cleanupThrows (settings : Settings) (answers : Answers) : Bool :=
  settings.maxArchiveCount ≠ 0 && !answers.cleaned

/-- `CleanupOldArchives` removes files whose names begin with the stem of the log file and a
dash, which the name of the log file itself does not. -/
def State.cleanupOldArchives (state : State) (settings : Settings) (key : Path)
    (answers : Answers) : State :=
  if settings.maxArchiveCount = 0 then state
  else state.removeFiles (answers.removed.filter fun path => path ≠ key)

/-- The part of `FileWrite` that archives the file and creates it anew. -/
def rollOver (settings : Settings) (state : State) (entry : Entry) (answers : Answers) :
    Except (State × Result) (State × Entry) :=
  let closed := state.adjust entry.node Context.close
  if !answers.closing then .error (closed, .thrown)
  else if !answers.archived then .error (closed.erase entry.node, .value 0)
  else
    let cleaned := (closed.removeFiles [entry.key]).cleanupOldArchives settings entry.key answers
    if cleanupThrows settings answers then .error (cleaned, .thrown)
    else
      match answers.reopening with
      | .thrown => .error (cleaned, .thrown)
      | .unopened => .error (cleaned.erase entry.node, .value 0)
      | .opened =>
          let context : Context := ⟨⟨state.next, state.next, true⟩, 0⟩
          .ok ((cleaned.setFile entry.key ⟨state.next, 0, []⟩).takeNumber.adjust entry.node
              fun _ => context,
            { entry with context := context })

/-- The part of `FileWrite` before its `async_write`. -/
def prepare (settings : Settings) (state : State) (key : Path) (data : List UInt8)
    (answers : Answers) : Except (State × Result) (State × Entry) := do
  let (state, entry) ← findContext state key answers
  if exceeds settings entry.context.currentSize data.length then
    rollOver settings state entry answers
  else return (state, entry)

/-- The start of an `async_write` through the handle of an entry. -/
def State.startWrite (state : State) (entry : Entry) (data : List UInt8) : State :=
  { state with
    writes := state.writes ++
      [⟨entry.node, state.rehashes, entry.key, entry.context.handle.id,
        entry.context.handle.file, data, false⟩] }

/-- `FileWrite` up to its suspension in `async_write`. -/
def fileWrite (settings : Settings) (state : State) (filename : Path) (data : List UInt8)
    (answers : Answers) : State :=
  match prepare settings state (settings.targetPath filename) data answers with
  | .error (state, result) => state.finish result
  | .ok (state, entry) => state.startWrite entry data

/-- The data of a write arrives in the file that its handle has opened. -/
def land (state : State) (index : Nat) : Option State :=
  match state.writes[index]? with
  | none => none
  | some write =>
      if write.landed then none
      else
        let landed := { state with writes := state.writes.set index { write with landed := true } }
        match state.fileAt write.key with
        | none => some landed
        | some file =>
            if file.id = write.file then
              some (landed.setFile write.key
                { file with messages := file.messages ++ [write.data] })
            else some landed

/-- The rest of `FileWrite`. A write succeeds when all its data has arrived. An iterator to an
erased node, or one from before a rehash, has no behaviour. -/
def resume (state : State) (index : Nat) (succeeds : Bool) : Option State :=
  match state.writes[index]? with
  | none => none
  | some write =>
      if state.rehashes ≠ write.rehashes || state.fileMap.all fun entry =>
          entry.node ≠ write.node then
        none
      else
        let resumed := { state with writes := state.writes.eraseIdx index }
        if succeeds then
          if write.landed then
            some ((resumed.adjust write.node (·.count write.data.length)).finish
              (.value write.data.length))
          else none
        else some ((resumed.erase write.node).finish (.value 0))

/-- `CloseFile`, which takes the path as it is. -/
def closeFile (state : State) (path : Path) (closing : Bool) : State :=
  match state.find path with
  | none => state
  | some entry =>
      if closing then state.erase entry.node
      else state.adjust entry.node Context.close

/-- `Shutdown`. When a `close()` throws, its entry and those behind it are left. -/
def shutdown (state : State) (left : List Path) : State :=
  { state with
    fileMap := (state.fileMap.filter fun entry => entry.key ∈ left).map fun entry =>
      if some entry.key = left.head? then { entry with context := entry.context.close } else entry }

/-- What happens on the strand, and the arrival of data in files. -/
inductive Event where
  | fileWrite (filename : Path) (data : List UInt8) (answers : Answers)
  | land (index : Nat)
  | resume (index : Nat) (succeeds : Bool)
  | closeFile (path : Path) (closing : Bool)
  | shutdown (left : List Path)
  deriving DecidableEq

/-- One event. -/
def step (settings : Settings) (state : State) : Event → Option State
  | .fileWrite filename data answers => some (fileWrite settings state filename data answers)
  | .land index => land state index
  | .resume index succeeds => resume state index succeeds
  | .closeFile path closing => some (closeFile state path closing)
  | .shutdown left => some (shutdown state left)

/-- A new logger, and the sizes of the files that are there. The constructor calls
`FileMap.reserve(4)`, which may leave more buckets. -/
def initial (found : List (Path × Nat)) (spare : Nat) : State where
  fileMap := []
  buckets := 4 + spare
  rehashes := 0
  files := found.map fun entry => (entry.1, ⟨0, entry.2, []⟩)
  writes := []
  returned := []
  next := 1

end Wan.Chronicle.CoroutineLog
