import Wan.Library.Text
import Mathlib.Data.List.Sort

/-!
# Archives of `Chronicle/Log.hpp`

The rollover of `FileWrite` and `CleanupOldArchives` over the directory that the log files are
in.  The entries of the directory are kept in the order of their creation, in which an iterator
need not come to them, and each archive carries the log whose rollover has produced it, which the
code does not know.  The calls of the filesystem library fail for missing files and for links that
lead to none.
-/

namespace Wan.Chronicle.LogDirectory

open Wan.Library

/-- What an entry is found to be. -/
inductive FileType where
  | regular
  /-- A directory, or another file that is not regular. -/
  | other
  /-- A link that leads to no file: the library reports an error. -/
  | unresolved
  deriving DecidableEq, Repr

/-- An entry of the directory. -/
structure Entry where
  name : Bytes
  fileType : FileType
  /-- The log whose rollover has produced the file. -/
  origin : Option Bytes
  deriving DecidableEq, Repr

/-- How many bytes of a file name belong to its extension. -/
def extensionLength (filename : Bytes) : Nat :=
  let behind := (filename.reverse.takeWhile fun byte => byte ≠ Bytes.char '.').length
  if filename = Bytes.text ".." ∨ filename.length ≤ behind + 1 then 0 else behind + 1

/-- `stem`. -/
def stem (filename : Bytes) : Bytes := filename.take (filename.length - extensionLength filename)

/-- `extension`. -/
def extension (filename : Bytes) : Bytes :=
  filename.drop (filename.length - extensionLength filename)

/-- The name of an archive. -/
def archiveName (log timestamp : Bytes) (suffix : Nat) : Bytes :=
  let suffixText := if suffix = 0 then [] else Bytes.char '_' :: Bytes.decimal suffix
  stem log ++ Bytes.char '-' :: timestamp ++ suffixText ++ extension log

/-- `Fs::exists`. -/
def fileExists (entries : List Entry) (name : Bytes) : Bool :=
  entries.any fun entry => entry.name = name && entry.fileType ≠ .unresolved

/-- The first name for an archive under which no file exists. -/
def freeName (entries : List Entry) (log timestamp : Bytes) : Option Bytes :=
  ((List.range 1000).map (archiveName log timestamp)).find? fun name => !fileExists entries name

/-- The log file is renamed to an archive, in the place of a link that leads to no file. -/
def archive (entries : List Entry) (log timestamp : Bytes) : Option (List Entry) := do
  let live ← entries.find? fun entry => entry.name = log
  let name ← freeName entries log timestamp
  return (entries.filter fun entry => entry.name ≠ log ∧ entry.name ≠ name) ++
    [⟨name, live.fileType, some log⟩]

/-- The files that `CleanupOldArchives` takes for archives of a log. -/
def isArchive (log : Bytes) (entry : Entry) : Bool :=
  let pre := stem log ++ [Bytes.char '-']
  entry.fileType = .regular && pre.length + (extension log).length ≤ entry.name.length &&
    pre.isPrefixOf entry.name && (extension log).isSuffixOf entry.name

/-- The order of file names. -/
def NotBehind (first second : Bytes) : Prop := Bytes.before second first = false

instance : DecidableRel NotBehind := fun first second =>
  inferInstanceAs (Decidable (Bytes.before second first = false))

/-- The order in which `directory_iterator` comes to the entries. -/
structure Listing where
  order : List Entry → List Entry
  perm : ∀ entries, (order entries).Perm entries

/-- The archives that `CleanupOldArchives` finds. An entry for which `is_regular_file` reports an
error ends the loop. -/
def found (listing : Listing) (log : Bytes) (entries : List Entry) : List Entry :=
  ((listing.order entries).takeWhile fun entry => entry.fileType ≠ .unresolved).filter
    (isArchive log)

/-- `CleanupOldArchives`. -/
def cleanupOldArchives (maxArchiveCount : Nat) (listing : Listing) (log : Bytes)
    (entries : List Entry) : List Entry :=
  let archives := (found listing log entries).map Entry.name
  if maxArchiveCount = 0 ∨ archives.length ≤ maxArchiveCount then
    entries
  else
    let removed := (archives.insertionSort NotBehind).take (archives.length - maxArchiveCount)
    entries.filter fun entry => entry.name ∉ removed

/-- A log file is opened, and created unless it is there. What a link leads to may be created. -/
def openLog (log : Bytes) (resolves : Bool) (entries : List Entry) : List Entry :=
  if log ∈ entries.map Entry.name then
    entries.map fun entry =>
      if entry.name = log ∧ entry.fileType = .unresolved ∧ resolves then
        { entry with fileType := .regular }
      else entry
  else entries ++ [⟨log, .regular, none⟩]

/-- The directory and `MaxArchiveCount`. -/
structure State where
  entries : List Entry
  maxArchiveCount : Nat
  deriving DecidableEq, Repr

/-- What happens to the directory. -/
inductive Event where
  | openLog (log : Bytes) (resolves : Bool)
  | setMaxArchiveCount (count : Nat)
  | rollOver (log timestamp : Bytes) (listing : Listing)

/-- One event. -/
def step (state : State) : Event → State
  | .openLog log resolves => { state with entries := openLog log resolves state.entries }
  | .setMaxArchiveCount count => { state with maxArchiveCount := count }
  | .rollOver log timestamp listing =>
      match archive state.entries log timestamp with
      | none => state
      | some archived =>
          { state with
            entries :=
              openLog log true (cleanupOldArchives state.maxArchiveCount listing log archived) }

/-- A run. -/
def run (state : State) (events : List Event) : State := events.foldl step state

/-- The archives of a log, the oldest first. -/
def archivesOf (log : Bytes) (entries : List Entry) : List Entry :=
  entries.filter fun entry => entry.origin = some log

/-- The elements behind all but the last ones of a list. -/
def newest (count : Nat) (list : List Entry) : List Entry := list.drop (list.length - count)

/-- A cleanup deletes archives of the log only and leaves the newest of them. -/
structure Retains (maxArchiveCount : Nat) (log : Bytes) (before after : List Entry) : Prop where
  deleted : ∀ entry ∈ before, entry ∉ after → entry.origin = some log
  kept : archivesOf log after =
    if maxArchiveCount = 0 then archivesOf log before
    else newest maxArchiveCount (archivesOf log before)

/-- The cleanup of an event is correct. -/
def Retained (state : State) : Event → Prop
  | .rollOver log timestamp listing => ∀ archived ∈ archive state.entries log timestamp,
      Retains state.maxArchiveCount log archived
        (cleanupOldArchives state.maxArchiveCount listing log archived)
  | _ => True

/-- When more files are found than may stay, or there are more archives of the log, then exactly
these are found, and the names of the newest ones come behind those of the others. -/
def Orderly (maxArchiveCount : Nat) (listing : Listing) (log : Bytes) (entries : List Entry) :
    Prop :=
  maxArchiveCount ≠ 0 →
    maxArchiveCount < (found listing log entries).length ∨
      maxArchiveCount < (archivesOf log entries).length →
    (∀ entry ∈ found listing log entries, entry.origin = some log) ∧
    (∀ entry ∈ archivesOf log entries, entry ∈ found listing log entries) ∧
    ∀ older ∈ (archivesOf log entries).take ((archivesOf log entries).length - maxArchiveCount),
      ∀ newer ∈ newest maxArchiveCount (archivesOf log entries),
        Bytes.before older.name newer.name = true

/-- The condition on an event. -/
def Meets (state : State) : Event → Prop
  | .rollOver log timestamp listing =>
      (∀ live ∈ state.entries, live.name = log → live.fileType = .regular) ∧
      ∀ archived ∈ archive state.entries log timestamp,
        Orderly state.maxArchiveCount listing log archived
  | _ => True

instance (maxArchiveCount : Nat) (listing : Listing) (log : Bytes) (entries : List Entry) :
    Decidable (Orderly maxArchiveCount listing log entries) :=
  inferInstanceAs (Decidable (_ → _ → _ ∧ _ ∧ _))

instance (state : State) : (event : Event) → Decidable (Meets state event)
  | .openLog _ _ => inferInstanceAs (Decidable True)
  | .setMaxArchiveCount _ => inferInstanceAs (Decidable True)
  | .rollOver _ _ _ => inferInstanceAs (Decidable (_ ∧ _))

/-- Names are unique, and the archives of a log are regular files with its prefix and extension. -/
structure WellFormed (entries : List Entry) : Prop where
  unique : (entries.map Entry.name).Nodup
  archives : ∀ entry ∈ entries, ∀ log, entry.origin = some log → isArchive log entry = true

section Names

instance : Std.Total NotBehind where
  total first second := by
    by_contra neither
    rw [not_or, NotBehind, NotBehind, Bool.not_eq_false, Bool.not_eq_false] at neither
    have self := Bytes.before_trans neither.1 neither.2
    rw [Bytes.before_irrefl] at self
    cases self

instance : Std.Antisymm NotBehind where
  antisymm _ _ one other := Bytes.eq_of_not_before other one

instance : IsTrans Bytes NotBehind where
  trans first second third one other := by
    rw [NotBehind] at one other ⊢
    cases ahead : Bytes.before first second with
    | false => rwa [Bytes.eq_of_not_before ahead one]
    | true =>
        by_contra behind
        rw [Bool.not_eq_false] at behind
        rw [Bytes.before_trans behind ahead] at other
        cases other

/-- Sorting leaves elements behind others that they are behind of. -/
theorem insertionSort_append {older newer : List Bytes}
    (apart : ∀ old ∈ older, ∀ new ∈ newer, Bytes.before old new = true) :
    (older ++ newer).insertionSort NotBehind =
      older.insertionSort NotBehind ++ newer.insertionSort NotBehind := by
  apply List.Perm.eq_of_pairwise' (r := NotBehind)
  · exact List.pairwise_insertionSort ..
  · rw [List.pairwise_append]
    refine ⟨List.pairwise_insertionSort .., List.pairwise_insertionSort .., ?_⟩
    intro old isOld new isNew
    rw [List.mem_insertionSort] at isOld isNew
    have between := apart old isOld new isNew
    by_contra behind
    rw [NotBehind, Bool.not_eq_false] at behind
    have self := Bytes.before_trans between behind
    rw [Bytes.before_irrefl] at self
    cases self
  · exact (List.perm_insertionSort ..).trans
      ((List.perm_insertionSort ..).append (List.perm_insertionSort ..)).symm

end Names

section Cleanup

variable {maxArchiveCount : Nat} {listing : Listing} {log : Bytes} {entries : List Entry}

/-- In a list of entries with different names a name stands for one entry. -/
theorem eq_of_name (unique : (entries.map Entry.name).Nodup) {one other : Entry}
    (isOne : one ∈ entries) (isOther : other ∈ entries) (same : one.name = other.name) :
    one = other := List.inj_on_of_nodup_map unique isOne isOther same

/-- What is found looks like an archive of the log and is in the directory. -/
theorem mem_of_found {entry : Entry} (isFound : entry ∈ found listing log entries) :
    entry ∈ entries ∧ isArchive log entry = true := by
  rcases List.mem_filter.mp isFound with ⟨listed, looks⟩
  exact ⟨(listing.perm entries).subset ((List.takeWhile_sublist _).subset listed), looks⟩

/-- When exactly the archives of the log are found, each is found once. -/
theorem found_perm (wellFormed : WellFormed entries)
    (own : ∀ entry ∈ found listing log entries, entry.origin = some log)
    (all : ∀ entry ∈ archivesOf log entries, entry ∈ found listing log entries) :
    (found listing log entries).Perm (archivesOf log entries) := by
  have distinct : entries.Nodup := .of_map _ wellFormed.unique
  have listed : (listing.order entries).Nodup := (listing.perm entries).nodup_iff.mpr distinct
  apply (List.perm_ext_iff_of_nodup ?_ (distinct.filter _)).mpr
  · intro entry
    refine ⟨fun isFound => ?_, all entry⟩
    exact List.mem_filter.mpr ⟨(mem_of_found isFound).1, decide_eq_true (own entry isFound)⟩
  · exact (listed.sublist (List.takeWhile_sublist _)).filter _

/-- Nothing is deleted. -/
theorem retains_refl (few : maxArchiveCount = 0 ∨
    (archivesOf log entries).length ≤ maxArchiveCount) :
    Retains maxArchiveCount log entries entries where
  deleted _ member missing := absurd member missing
  kept := by
    split
    · rfl
    · next limited =>
        have none : (archivesOf log entries).length - maxArchiveCount = 0 :=
          Nat.sub_eq_zero_of_le (few.resolve_left limited)
        rw [newest, none, List.drop_zero]

/-- The oldest archives are deleted. -/
theorem retains_oldest (unique : (entries.map Entry.name).Nodup) (limited : maxArchiveCount ≠ 0)
    {removed : List Bytes}
    (oldest : ∀ name, name ∈ removed ↔ name ∈ ((archivesOf log entries).take
      ((archivesOf log entries).length - maxArchiveCount)).map Entry.name) :
    Retains maxArchiveCount log entries
      (entries.filter fun entry => entry.name ∉ removed) where
  deleted entry member missing := by
    have isRemoved : entry.name ∈ removed := by
      by_contra kept
      exact missing (List.mem_filter.mpr ⟨member, decide_eq_true kept⟩)
    rcases List.mem_map.mp ((oldest _).mp isRemoved) with ⟨old, isOld, same⟩
    have produced := List.mem_filter.mp (List.mem_of_mem_take isOld)
    rw [← eq_of_name unique produced.1 member same]
    exact of_decide_eq_true produced.2
  kept := by
    rw [if_neg limited]
    set count := (archivesOf log entries).length - maxArchiveCount with isCount
    have names : ((archivesOf log entries).map Entry.name).Nodup :=
      unique.sublist (List.filter_sublist.map _)
    rw [archivesOf, List.filter_comm, ← archivesOf, ← List.take_append_drop count
      (archivesOf log entries), List.filter_append]
    rw [← List.take_append_drop count (archivesOf log entries), List.map_append,
      List.nodup_append] at names
    have gone : ((archivesOf log entries).take count).filter
        (fun entry => decide (entry.name ∉ removed)) = [] := by
      rw [List.filter_eq_nil_iff]
      intro old isOld kept
      exact of_decide_eq_true kept ((oldest _).mpr (List.mem_map_of_mem isOld))
    have left : ((archivesOf log entries).drop count).filter
        (fun entry => decide (entry.name ∉ removed)) = (archivesOf log entries).drop count := by
      rw [List.filter_eq_self]
      intro new isNew
      apply decide_eq_true
      intro isRemoved
      exact names.2.2 _ ((oldest _).mp isRemoved) _ (List.mem_map_of_mem isNew) rfl
    rw [gone, left, List.nil_append, newest, isCount, List.take_append_drop]

/-- A cleanup of an orderly directory is correct. -/
theorem cleanupOldArchives_retains (wellFormed : WellFormed entries)
    (orderly : Orderly maxArchiveCount listing log entries) :
    Retains maxArchiveCount log entries
      (cleanupOldArchives maxArchiveCount listing log entries) := by
  rw [cleanupOldArchives, List.length_map]
  split
  next few =>
    apply retains_refl
    by_contra many
    rw [not_or, not_le] at many
    rcases orderly many.1 (.inr many.2) with ⟨own, all, -⟩
    have length := (found_perm wellFormed own all).length_eq
    have short := few.resolve_left many.1
    omega
  next many =>
    rw [not_or, not_le] at many
    rcases orderly many.1 (.inl many.2) with ⟨own, all, apart⟩
    have perm := found_perm wellFormed own all
    have same : ((found listing log entries).map Entry.name).insertionSort NotBehind =
        ((archivesOf log entries).map Entry.name).insertionSort NotBehind := by
      apply List.Perm.eq_of_pairwise' (r := NotBehind)
      · exact List.pairwise_insertionSort ..
      · exact List.pairwise_insertionSort ..
      · exact (List.perm_insertionSort ..).trans
          ((perm.map _).trans (List.perm_insertionSort ..).symm)
    rw [same, perm.length_eq]
    apply retains_oldest wellFormed.unique many.1
    intro name
    set count := (archivesOf log entries).length - maxArchiveCount
    have sorted : ((archivesOf log entries).map Entry.name).insertionSort NotBehind =
        (((archivesOf log entries).take count).map Entry.name).insertionSort NotBehind ++
          (((archivesOf log entries).drop count).map Entry.name).insertionSort NotBehind := by
      rw [← insertionSort_append, ← List.map_append, List.take_append_drop]
      intro old isOld new isNew
      rcases List.mem_map.mp isOld with ⟨older, isOlder, rfl⟩
      rcases List.mem_map.mp isNew with ⟨newer, isNewer, rfl⟩
      exact apart older isOlder newer isNewer
    have length : (((archivesOf log entries).take count).map Entry.name).length = count := by
      rw [List.length_map, List.length_take, Nat.min_eq_left (Nat.sub_le ..)]
    rw [sorted, List.take_left' ((List.length_insertionSort ..).trans length),
      List.mem_insertionSort]

end Cleanup

section Step

variable {log timestamp : Bytes} {entries archived : List Entry} {maxArchiveCount : Nat}
  {listing : Listing} {resolves : Bool}

/-- What the cleanup looks for. -/
theorem isArchive_of_name {entry : Entry} (regular : entry.fileType = .regular) (middle : Bytes)
    (named : entry.name = stem log ++ [Bytes.char '-'] ++ (middle ++ extension log)) :
    isArchive log entry = true := by
  rw [isArchive, regular, named, decide_eq_true rfl, Bool.true_and, Bool.and_eq_true,
    Bool.and_eq_true, List.isPrefixOf_iff_prefix, List.isSuffixOf_iff_suffix]
  refine ⟨⟨decide_eq_true ?_, List.prefix_append ..⟩, ?_⟩
  · have behind := (List.suffix_append middle (extension log)).length_le
    simp only [List.length_append] at behind ⊢
    exact Nat.add_le_add_left behind _
  · rw [← List.append_assoc]
    exact List.suffix_append ..

/-- The cleanup finds the archives that a rollover names. -/
theorem isArchive_archiveName (suffix : Nat) (origin : Option Bytes) :
    isArchive log ⟨archiveName log timestamp suffix, .regular, origin⟩ = true := by
  apply isArchive_of_name rfl
    (timestamp ++ if suffix = 0 then [] else Bytes.char '_' :: Bytes.decimal suffix)
  simp only [archiveName, List.append_assoc, List.cons_append, List.nil_append]

/-- What a rollover does to the directory before the cleanup. -/
theorem archive_cases (done : archive entries log timestamp = some archived) :
    ∃ live suffix, live ∈ entries ∧ live.name = log ∧
      archived = (entries.filter fun entry =>
          entry.name ≠ log ∧ entry.name ≠ archiveName log timestamp suffix) ++
        [⟨archiveName log timestamp suffix, live.fileType, some log⟩] := by
  rw [archive, Option.bind_eq_bind, Option.bind_eq_some_iff] at done
  rcases done with ⟨live, found, done⟩
  rw [Option.bind_eq_bind, Option.bind_eq_some_iff] at done
  rcases done with ⟨name, free, done⟩
  have named := List.mem_of_find?_eq_some free
  rcases List.mem_map.mp named with ⟨suffix, -, rfl⟩
  have isLive := List.find?_some found
  rw [decide_eq_true_eq] at isLive
  exact ⟨live, suffix, List.mem_of_find?_eq_some found, isLive, (Option.some.inj done).symm⟩

/-- An entry with a new name comes to the directory. -/
theorem WellFormed.append (wellFormed : WellFormed entries) {entry : Entry}
    (fresh : entry.name ∉ entries.map Entry.name)
    (own : ∀ log, entry.origin = some log → isArchive log entry = true) :
    WellFormed (entries ++ [entry]) where
  unique := by
    rw [List.map_append, List.map_singleton, ← List.concat_eq_append, List.nodup_concat]
    exact ⟨fresh, wellFormed.unique⟩
  archives other member log produced := by
    rcases List.mem_append.mp member with before | added
    · exact wellFormed.archives other before log produced
    · rw [List.mem_singleton.mp added] at produced ⊢
      exact own log produced

/-- Entries leave the directory. -/
theorem WellFormed.filter (wellFormed : WellFormed entries) (keep : Entry → Bool) :
    WellFormed (entries.filter keep) where
  unique := wellFormed.unique.sublist (List.filter_sublist.map _)
  archives entry member := wellFormed.archives entry (List.mem_filter.mp member).1

/-- A rollover of a regular log file. -/
theorem WellFormed.archive (wellFormed : WellFormed entries)
    (regular : ∀ live ∈ entries, live.name = log → live.fileType = .regular)
    (done : archive entries log timestamp = some archived) : WellFormed archived := by
  rcases archive_cases done with ⟨live, suffix, member, isLive, rfl⟩
  apply (wellFormed.filter _).append
  · intro taken
    rcases List.mem_map.mp taken with ⟨entry, kept, named⟩
    exact (of_decide_eq_true (List.mem_filter.mp kept).2).2 named
  · intro producer produced
    rw [← Option.some.inj produced, regular live member isLive]
    exact isArchive_archiveName ..

/-- A cleanup. -/
theorem WellFormed.cleanupOldArchives (wellFormed : WellFormed entries) :
    WellFormed (cleanupOldArchives maxArchiveCount listing log entries) := by
  rw [LogDirectory.cleanupOldArchives]
  split
  · exact wellFormed
  · exact wellFormed.filter _

/-- A log file is there. -/
theorem WellFormed.openLog (wellFormed : WellFormed entries) :
    WellFormed (openLog log resolves entries) := by
  rw [LogDirectory.openLog]
  split
  · constructor
    · have names : (entries.map fun entry =>
          if entry.name = log ∧ entry.fileType = .unresolved ∧ resolves then
            { entry with fileType := .regular }
          else entry).map Entry.name = entries.map Entry.name := by
        rw [List.map_map]
        apply List.map_congr_left
        intro entry _
        rw [Function.comp_apply]
        split <;> rfl
      rw [names]
      exact wellFormed.unique
    · intro entry member log produced
      rcases List.mem_map.mp member with ⟨before, isBefore, rfl⟩
      split at produced
      next link =>
        -- An archive is a regular file, not a link to nothing.
        have looks := wellFormed.archives before isBefore log produced
        rw [isArchive, link.2.1] at looks
        cases looks
      next same =>
        rw [if_neg same]
        exact wellFormed.archives before isBefore log produced
  · next missing => exact wellFormed.append missing fun _ none => by cases none

/-- One event. -/
theorem wellFormed_step {state : State} (wellFormed : WellFormed state.entries) {event : Event}
    (meets : Meets state event) : WellFormed (step state event).entries := by
  cases event with
  | openLog log resolves => exact wellFormed.openLog
  | setMaxArchiveCount count => exact wellFormed
  | rollOver log timestamp listing =>
      rw [step]
      split
      · exact wellFormed
      · next archived done =>
          exact (wellFormed.archive meets.1 done).cleanupOldArchives.openLog

/-- The cleanup of one event is correct. -/
theorem retained_of_meets {state : State} (wellFormed : WellFormed state.entries) {event : Event}
    (meets : Meets state event) : Retained state event := by
  cases event with
  | openLog log resolves => trivial
  | setMaxArchiveCount count => trivial
  | rollOver log timestamp listing =>
      intro archived done
      exact cleanupOldArchives_retains (wellFormed.archive meets.1 done) (meets.2 archived done)

end Step

section Run

variable {start : State} {events : List Event}

/-- A run. -/
theorem wellFormed_run (wellFormed : WellFormed start.entries)
    (meets : ∀ earlier event later, events = earlier ++ event :: later →
      Meets (run start earlier) event) : WellFormed (run start events).entries := by
  induction events using List.reverseRecOn with
  | nil => exact wellFormed
  | append_singleton events event ih =>
      rw [run, List.foldl_append]
      apply wellFormed_step
      · apply ih
        intro earlier other later split
        exact meets earlier other (later ++ [event]) (by rw [split, List.append_assoc]; rfl)
      · exact meets events event [] rfl

/-- An iterator that comes to the entries in the order of their creation. -/
def inOrder : Listing := ⟨id, fun _ => .refl _⟩

end Run

end Wan.Chronicle.LogDirectory
