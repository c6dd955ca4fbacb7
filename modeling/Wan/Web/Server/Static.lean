import Wan.Library.FilePath

/-!
# Static files of `Web/Server/Static.hpp`

`StaticFileServer::Resolve` over what the filesystem library says about paths and files.
-/

namespace Wan.Web

open Wan.Library

/-- What the filesystem library says; the second part of an answer is whether the error code
is set. -/
structure FileSystem where
  platform : FilePath.Platform
  weaklyCanonical : FilePath → Except Unit FilePath
  fileExists : FilePath → Bool × Bool
  isRegularFile : FilePath → Bool × Bool
  isSymlink : FilePath → Bool

/-- `StaticFileServer`. -/
structure StaticFileServer where
  memberRoot : FilePath
  deriving DecidableEq, Repr

namespace StaticFileServer

/-- `Resolve`. -/
def resolve (fileSystem : FileSystem) (server : StaticFileServer) (target : Bytes) :
    Option FilePath :=
  let pathStr := target.takeWhile fun byte => byte ≠ Bytes.char '?'
  let pathStr := if pathStr = Bytes.text "/" then Bytes.text "/index.html" else pathStr
  let filePath := server.memberRoot.append fileSystem.platform
    (fileSystem.platform.parse pathStr).relativePath
  match fileSystem.weaklyCanonical filePath, fileSystem.weaklyCanonical server.memberRoot with
  | .ok canonical, .ok rootCanonical =>
      let relative := canonical.lexicallyRelative fileSystem.platform rootCanonical
      if relative = .empty then
        none
      else if relative.pieces.any fun component => component = .dotDot then
        none
      else if (fileSystem.fileExists canonical).1 = false ∨
          (fileSystem.fileExists canonical).2 = true ∨
          (fileSystem.isRegularFile canonical).1 = false ∨
          (fileSystem.isRegularFile canonical).2 = true then
        none
      else
        some canonical
  | _, _ => none

/-- A path that is absolute, without dots and without links. -/
structure IsCanonical (fileSystem : FileSystem) (path : FilePath) : Prop where
  absolute : fileSystem.platform.isAbsolute path = true
  dotFree : path.DotFree
  symlinkFree : ∀ count, fileSystem.isSymlink
    { path with filenames := path.filenames.take count, trailingSeparator := false } = false

/-- What `Resolve` returns lies below the root, whose components it starts with. -/
theorem resolve_confined (fileSystem : FileSystem)
    (canonicalizes : ∀ path canonical, fileSystem.weaklyCanonical path = .ok canonical →
      IsCanonical fileSystem canonical)
    (server : StaticFileServer) (target : Bytes) (path : FilePath)
    (resolved : resolve fileSystem server target = some path) :
    IsCanonical fileSystem path ∧ ∃ rootCanonical,
      fileSystem.weaklyCanonical server.memberRoot = .ok rootCanonical ∧
        rootCanonical.components <+: path.components := by
  rw [resolve] at resolved
  split at resolved
  next canonical rootCanonical here root =>
    simp only [Option.ite_none_left_eq_some, Option.some.injEq] at resolved
    rcases resolved with ⟨there, down, _, rfl⟩
    have confined := canonicalizes _ _ here
    have base := canonicalizes _ _ root
    have noStep : FilePath.dotDot ∉
        (canonical.lexicallyRelative fileSystem.platform rootCanonical).pieces := fun member =>
      down (List.any_eq_true.mpr ⟨_, member, decide_eq_true rfl⟩)
    exact ⟨confined, rootCanonical, root, FilePath.components_prefix confined.absolute
      base.absolute base.dotFree there noStep⟩
  next => cases resolved

/-- File names without `.` and `..`, each of which leads up. -/
def normal (filenames : List Bytes) : List Bytes :=
  filenames.foldl (fun above filename =>
    if filename = Bytes.text "." then above
    else if filename = Bytes.text ".." then above.dropLast
    else above ++ [filename]) []

/-- A file system without links that has the files of a list. -/
def plain (files : List FilePath) : FileSystem where
  platform := FilePath.posix
  weaklyCanonical path := .ok ⟨[], true, normal path.filenames, false⟩
  fileExists path := (files.contains path, false)
  isRegularFile path := (files.contains path, false)
  isSymlink _ := false

theorem dotFree_normal (filenames : List Bytes) :
    FilePath.DotFree ⟨[], true, normal filenames, false⟩ := by
  show ∀ filename ∈ normal filenames, filename ≠ Bytes.text "." ∧ filename ≠ Bytes.text ".."
  induction filenames using List.reverseRecOn with
  | nil => exact fun _ member => absurd member List.not_mem_nil
  | append_singleton above filename ih =>
      rw [normal, List.foldl_concat]
      change ∀ other ∈ if filename = Bytes.text "." then normal above
        else if filename = Bytes.text ".." then (normal above).dropLast
        else normal above ++ [filename], _
      intro other member
      split at member
      · exact ih other member
      · next notDot =>
          split at member
          · exact ih other (List.dropLast_subset _ member)
          · next notDotDot =>
              rcases List.mem_append.mp member with before | last
              · exact ih other before
              · rw [List.mem_singleton.mp last]
                exact ⟨notDot, notDotDot⟩

/-- A detour through a sibling whose name starts like the root. -/
theorem resolve_confined_detour :
    let files := [FilePath.posix.parse (Bytes.text "/srv/www/index.html"),
      FilePath.posix.parse (Bytes.text "/srv/www2/secret.txt")]
    let server : StaticFileServer := ⟨FilePath.posix.parse (Bytes.text "/srv/www/")⟩
    IsCanonical (plain files) (FilePath.posix.parse (Bytes.text "/srv/www/index.html")) ∧
      ∃ rootCanonical, (plain files).weaklyCanonical server.memberRoot = .ok rootCanonical ∧
        rootCanonical.components <+:
          (FilePath.posix.parse (Bytes.text "/srv/www/index.html")).components :=
  resolve_confined _ (fun _ _ same => Except.ok.inj same ▸ ⟨rfl, dotFree_normal _, fun _ => rfl⟩)
    _ (Bytes.text "/../www2/../www//./index.html?x=/..") _ (by decide)

end StaticFileServer

end Wan.Web
