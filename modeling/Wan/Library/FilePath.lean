import Wan.Library.Bytes
import Mathlib.Data.List.Infix
import Mathlib.Data.List.Count

/-!
# File paths

Paths as the C++ filesystem library sees them: an optional root name, an optional root directory
and file names, the last of which may have a separator behind it.  A path is the sequence of its
pieces, which are paths themselves.
-/

namespace Wan.Library

/-- A path. -/
structure FilePath where
  rootName : Bytes
  rootDirectory : Bool
  filenames : List Bytes
  trailingSeparator : Bool
  deriving DecidableEq, Repr

namespace FilePath

/-- What the platform says about paths. -/
structure Platform where
  /-- The path that a text stands for. -/
  parse : Bytes → FilePath
  isAbsolute : FilePath → Bool
  /-- The file names that could be read as root names. -/
  namesRoot : Bytes → Bool
  rooted : ∀ path, isAbsolute path = true → path.rootDirectory = true

/-- The path without anything. -/
def empty : FilePath := ⟨[], false, [], false⟩

/-- The path of one file name. -/
def name (filename : Bytes) : FilePath := ⟨[], false, [filename], false⟩

/-- `.`. -/
def dot : FilePath := name (Bytes.text ".")

/-- `..`. -/
def dotDot : FilePath := name (Bytes.text "..")

/-- `relative_path`. -/
def relativePath (path : FilePath) : FilePath :=
  { path with rootName := [], rootDirectory := false }

/-- The pieces of the root. -/
def roots (path : FilePath) : List FilePath :=
  (if path.rootName = [] then [] else [⟨path.rootName, false, [], false⟩]) ++
    if path.rootDirectory then [⟨[], true, [], false⟩] else []

/-- The pieces behind the root: the file names, and an empty piece behind a last separator. -/
def names (path : FilePath) : List FilePath :=
  path.filenames.map name ++ if path.trailingSeparator then [empty] else []

/-- The sequence from `begin` to `end`. -/
def pieces (path : FilePath) : List FilePath := path.roots ++ path.names

/-- The pieces that stand for something. -/
def components (path : FilePath) : List FilePath := path.pieces.filter fun piece => piece ≠ empty

/-- What is left of two lists behind what they have in common at the start. -/
def mismatch {α : Type} [DecidableEq α] : List α → List α → List α × List α
  | first :: firstRest, second :: secondRest =>
      if first = second then mismatch firstRest secondRest
      else (first :: firstRest, second :: secondRest)
  | first, second => (first, second)

section Operations

variable (platform : Platform)

/-- `operator/`. -/
def append (path other : FilePath) : FilePath :=
  if platform.isAbsolute other ∨ (other.rootName ≠ [] ∧ other.rootName ≠ path.rootName) then
    other
  else if other.rootDirectory then
    { other with rootName := path.rootName }
  else if other.filenames = [] then
    { path with trailingSeparator := path.filenames ≠ [] }
  else
    { path with
      filenames := path.filenames ++ other.filenames
      trailingSeparator := other.trailingSeparator }

/-- The file names among pieces less the steps up among them. -/
def depth (pieces : List FilePath) : Int :=
  (pieces.countP fun piece => piece ≠ empty ∧ piece ≠ dot ∧ piece ≠ dotDot) -
    pieces.count dotDot

/-- `lexically_relative`. -/
def lexicallyRelative (path base : FilePath) : FilePath :=
  if path.rootName ≠ base.rootName ∨ platform.isAbsolute path ≠ platform.isAbsolute base ∨
      (path.rootDirectory = false ∧ base.rootDirectory = true) ∨
      path.filenames.any platform.namesRoot ∨ base.filenames.any platform.namesRoot then
    empty
  else
    let (rest, baseRest) := mismatch path.pieces base.pieces
    if rest = [] ∧ baseRest = [] then dot
    else if depth baseRest < 0 then empty
    else if depth baseRest = 0 ∧ (rest = [] ∨ rest.head? = some empty) then dot
    else
      (List.replicate (depth baseRest).toNat dotDot ++ rest).foldl (append platform) empty

end Operations

section Mismatch

variable {α : Type} [DecidableEq α]

/-- Both lists start with what they have in common. -/
theorem exists_common (first second : List α) : ∃ common,
    first = common ++ (mismatch first second).1 ∧ second = common ++ (mismatch first second).2 := by
  induction first generalizing second with
  | nil => exact ⟨[], by simp [mismatch]⟩
  | cons here first ih =>
      cases second with
      | nil => exact ⟨[], by simp [mismatch]⟩
      | cons there second =>
          rw [mismatch]
          by_cases same : here = there
          · rcases ih second with ⟨common, left, right⟩
            rw [if_pos same, ← same]
            exact ⟨here :: common, congrArg _ left, congrArg _ right⟩
          · rw [if_neg same]
            exact ⟨[], rfl, rfl⟩

theorem mismatch_append (common first second : List α) :
    mismatch (common ++ first) (common ++ second) = mismatch first second := by
  induction common with
  | nil => rfl
  | cons here common ih =>
      rw [List.cons_append, List.cons_append, mismatch, if_pos rfl]
      exact ih

end Mismatch

section Append

variable {platform : Platform}

/-- A piece behind a root. -/
def Relative (piece : FilePath) : Prop := piece.rootName = [] ∧ piece.rootDirectory = false

theorem relative_of_mem_names {path piece : FilePath} (member : piece ∈ path.names) :
    piece = empty ∨ ∃ filename ∈ path.filenames, piece = name filename := by
  rcases List.mem_append.mp member with named | separator
  · rcases List.mem_map.mp named with ⟨filename, within, same⟩
    exact .inr ⟨filename, within, same.symm⟩
  · split at separator
    · exact .inl (List.mem_singleton.mp separator)
    · cases separator

/-- What is appended without a root comes behind the file names. -/
theorem filenames_append {path piece : FilePath} (relative : Relative piece) :
    (append platform path piece).filenames = path.filenames ++ piece.filenames := by
  have notAbsolute : platform.isAbsolute piece ≠ true := fun absolute =>
    Bool.false_ne_true (relative.2.symm.trans (platform.rooted piece absolute))
  rw [append, if_neg (by simp [notAbsolute, relative.1]), if_neg (by simp [relative.2])]
  split
  next none => rw [none, List.append_nil]
  next => rfl

theorem filenames_foldl_append {pieces : List FilePath}
    (relative : ∀ piece ∈ pieces, Relative piece) (path : FilePath) :
    (pieces.foldl (append platform) path).filenames =
      path.filenames ++ pieces.flatMap filenames := by
  induction pieces generalizing path with
  | nil => rw [List.foldl_nil, List.flatMap_nil, List.append_nil]
  | cons piece pieces ih =>
      rw [List.forall_mem_cons] at relative
      rw [List.foldl_cons, ih relative.2, filenames_append relative.1, List.flatMap_cons,
        List.append_assoc]

theorem name_mem_pieces {path : FilePath} {filename : Bytes} (member : filename ∈ path.filenames) :
    name filename ∈ path.pieces :=
  List.mem_append_right _ (List.mem_append_left _ (List.mem_map_of_mem member))

end Append

/-- Paths with `/` as the only separator and without root names. -/
def posix : Platform where
  parse text :=
    let filenames := (text.splitOn (Bytes.char '/')).filter fun filename => filename ≠ []
    ⟨[], text.head? = some (Bytes.char '/'), filenames,
      filenames ≠ [] ∧ text.getLast? = some (Bytes.char '/')⟩
  isAbsolute path := path.rootDirectory
  namesRoot _ := false
  rooted _ absolute := absolute

section Confined

variable {platform : Platform} {path base : FilePath}

/-- No file name is `.` or `..`. -/
def DotFree (path : FilePath) : Prop :=
  ∀ filename ∈ path.filenames, filename ≠ Bytes.text "." ∧ filename ≠ Bytes.text ".."

/-- The depth of dot-free pieces counts those that stand for something. -/
theorem depth_eq {pieces : List FilePath} (dots : ∀ piece ∈ pieces, piece ≠ dot ∧ piece ≠ dotDot) :
    depth pieces = (pieces.filter fun piece => piece ≠ empty).length := by
  have steps : pieces.count dotDot = 0 := List.count_eq_zero.mpr fun member =>
    (dots _ member).2 rfl
  have same : (pieces.filter fun piece => piece ≠ empty ∧ piece ≠ dot ∧ piece ≠ dotDot) =
      pieces.filter fun piece => piece ≠ empty := by
    apply List.filter_congr
    intro piece member
    simp [dots piece member]
  rw [depth, steps, List.countP_eq_length_filter, same]
  omega

/-- A path relative to a dot-free base that does not step up leads below the base. -/
theorem components_prefix (absolute : platform.isAbsolute path = true)
    (absolute' : platform.isAbsolute base = true) (dotFree : DotFree base)
    (there : lexicallyRelative platform path base ≠ empty)
    (down : dotDot ∉ (lexicallyRelative platform path base).pieces) :
    base.components <+: path.components := by
  rw [lexicallyRelative] at there down
  split at there
  next => exact absurd rfl there
  next comparable =>
    clear there
    rw [if_neg comparable] at down
    simp only [not_or, not_not] at comparable
    have rooted : path.rootDirectory = base.rootDirectory :=
      (platform.rooted path absolute).trans (platform.rooted base absolute').symm
    have roots : path.roots = base.roots := by
      rw [FilePath.roots, FilePath.roots, comparable.1, rooted]
    have mismatched : mismatch path.pieces base.pieces = mismatch path.names base.names := by
      rw [pieces, pieces, roots, mismatch_append]
    rcases exists_common path.names base.names with ⟨common, pathNames, baseNames⟩
    rw [mismatched] at down
    generalize mismatch path.names base.names = rests at *
    rcases rests with ⟨rest, baseRest⟩
    simp only at down pathNames baseNames
    have dots : ∀ piece ∈ baseRest, piece ≠ dot ∧ piece ≠ dotDot := by
      intro piece member
      have within : piece ∈ base.names := baseNames ▸ List.mem_append_right common member
      rcases relative_of_mem_names within with rfl | ⟨filename, named, rfl⟩
      · exact ⟨by decide, by decide⟩
      · have free := dotFree filename named
        simpa [dot, dotDot, name] using free
    have relative : ∀ piece ∈ rest, Relative piece := by
      intro piece member
      have within : piece ∈ path.names := pathNames ▸ List.mem_append_right common member
      rcases relative_of_mem_names within with rfl | ⟨filename, _, rfl⟩ <;> exact ⟨rfl, rfl⟩
    have shallow : depth baseRest = 0 := by
      by_contra deep
      have counted := depth_eq dots
      have notEmpty : ¬(rest = [] ∧ baseRest = []) := fun both => deep (both.2 ▸ rfl)
      have positive : 0 < depth baseRest := by omega
      have stepsUp : ¬(depth baseRest = 0 ∧ (rest = [] ∨ rest.head? = some empty)) :=
        fun both => deep both.1
      rw [if_neg notEmpty, if_neg (not_lt.mpr positive.le), if_neg stepsUp] at down
      have steps : ∀ piece ∈ List.replicate (depth baseRest).toNat dotDot ++ rest,
          Relative piece := by
        intro piece member
        rcases List.mem_append.mp member with step | below
        · rw [List.eq_of_mem_replicate step]
          exact ⟨rfl, rfl⟩
        · exact relative piece below
      apply down
      apply name_mem_pieces
      rw [filenames_foldl_append steps, List.flatMap_append]
      apply List.mem_append_right
      apply List.mem_append_left
      have one : dotDot ∈ List.replicate (depth baseRest).toNat dotDot :=
        List.mem_replicate.mpr ⟨by omega, rfl⟩
      exact List.mem_flatMap.mpr ⟨dotDot, one, List.mem_singleton_self _⟩
    have nothing : (baseRest.filter fun piece => piece ≠ empty) = [] := by
      rw [depth_eq dots] at shallow
      exact List.eq_nil_of_length_eq_zero (by omega)
    rw [components, components, pieces, pieces, roots, pathNames, baseNames]
    simp only [List.filter_append, nothing, List.append_nil, ← List.append_assoc]
    exact List.prefix_append ..

end Confined

end FilePath

end Wan.Library
