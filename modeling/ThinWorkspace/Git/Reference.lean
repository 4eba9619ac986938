/-
# References inside the copy

Source: `resolve_internal_reference`, `validate_reference_traversal`,
`normalize_internal_reference` and `open_absolute_directory` in
`crates/thinws-adapter-git-cli/src/git_query/inspect.rs`.

A directory of the tree is its path from the root of the filesystem; a held directory
is that path.  `Held` says what the held directories are: one for every prefix of the
position below the copy root.
-/

import ThinWorkspace.Core.Components
import ThinWorkspace.Lib.Except
import ThinWorkspace.Ports.Bootstrap

namespace ThinWorkspace
namespace Git

open ThinWorkspace.Core Ports Lib.Fallible

/-! ### The filesystem

A directory tree with links, as the kernel sees it, and the one operation of the code on it:
a directory is opened by its name, without following a link. -/

/-- What a name in a directory stands for. -/
inductive TreeEntry where
  | directory
  | symlink (target : List UInt8)
  | other
deriving DecidableEq

/-- A directory tree: what stands at a path, and which directories can be opened. -/
structure FileTree where
  entry : List (List UInt8) → Option TreeEntry
  opens : List (List UInt8) → Bool
  root : entry [] = some .directory
  parent : ∀ path name, entry (path ++ [name]) ≠ none → entry path = some .directory

namespace FileTree

variable {tree : FileTree} {path rest : List (List UInt8)}

/-- Every prefix of a directory is one. -/
theorem directory_prefix (h : tree.entry (path ++ rest) = some .directory) :
    tree.entry path = some .directory := by
  induction rest using List.reverseRecOn with
  | nil => simpa using h
  | append_singleton rest name ih =>
    refine ih (tree.parent _ name ?_)
    rw [List.append_assoc, h]
    exact Option.some_ne_none _

/-- What an entry lies in is a directory. -/
theorem directory_dropLast (h : tree.entry (path ++ rest) = some .directory) :
    tree.entry (path ++ rest.dropLast) = some .directory := by
  have hsplit : path ++ rest = path ++ rest.dropLast ++ rest.drop (rest.length - 1) := by
    rw [List.append_assoc, List.dropLast_eq_take, List.take_append_drop]
  rw [hsplit] at h
  exact directory_prefix h

/-- `openat` with `directory_open_flags`: a directory that is not a link. -/
def openDirectoryAt (tree : FileTree) (dir : List (List UInt8)) (name : List UInt8) :
    Option (List (List UInt8)) :=
  let path := dir ++ [name]
  if tree.entry path = some .directory ∧ tree.opens path then some path else none

/-- A directory that is opened is the entry of that name, and no link. -/
theorem openDirectoryAt_some {dir next : List (List UInt8)} {name : List UInt8}
    (h : tree.openDirectoryAt dir name = some next) :
    next = dir ++ [name] ∧ tree.entry (dir ++ [name]) = some .directory := by
  unfold openDirectoryAt at h
  simp only at h
  split at h
  · rename_i hentry
    exact ⟨(Option.some.inj h).symm, hentry.1⟩
  · cases h

/-- The loop of `open_absolute_directory`: each name is opened in the directory before it, and no
special component is followed. -/
def openBelow (tree : FileTree) (dir : List (List UInt8)) :
    List Component → Option (List (List UInt8))
  | [] => some dir
  | .normal name :: rest => (tree.openDirectoryAt dir name).bind (tree.openBelow · rest)
  | _ :: _ => none

/-- `open_absolute_directory`: the names of an absolute path, from the root on. -/
def openAbsoluteDirectory (tree : FileTree) (path : List UInt8) : Option (List (List UInt8)) :=
  match components path with
  | .rootDir :: rest => if tree.opens [] then tree.openBelow [] rest else none
  | _ => none

end FileTree

/-! ### The resolution

The code walks a reference twice: once through held directories, to see that no step leaves
the copy, and once on the names alone, to know the path that it came to. -/

/-- The loop of `validate_reference_traversal` over the components of the base. -/
def descend (tree : FileTree) (directories : List (List (List UInt8)))
    (position : List (List UInt8)) :
    List Component → Except GitInspectionIssue (List (List (List UInt8)) × List (List UInt8))
  | [] => .ok (directories, position)
  | .normal name :: rest =>
    match tree.openDirectoryAt (directories.getLastD []) name with
    | none => .error .unsafeRepositoryMetadata
    | some next => descend tree (directories ++ [next]) (position ++ [name]) rest
  | _ :: _ => .error .unsafeRepositoryMetadata

/-- The loop of `validate_reference_traversal` over the components of the reference: every
name but the last component is opened. -/
def traverse (tree : FileTree) (directories : List (List (List UInt8)))
    (position : List (List UInt8)) : List Component → Except GitInspectionIssue Unit
  | [] => .ok ()
  | .normal name :: rest =>
    if rest = [] then .ok ()
    else
      match tree.openDirectoryAt (directories.getLastD []) name with
      | none => .error .externalRepositoryMetadata
      | some next => traverse tree (directories ++ [next]) (position ++ [name]) rest
  | .curDir :: rest => traverse tree directories position rest
  | .parentDir :: rest =>
    if position = [] then .error .externalRepositoryMetadata
    else traverse tree directories.dropLast position.dropLast rest
  | .rootDir :: _ => .error .externalRepositoryMetadata

/-- The components of an absolute reference below the copy root. -/
def stripRoot (copyRoot reference : List UInt8) : Except GitInspectionIssue (List Component) :=
  match stripPrefix (components reference) (components copyRoot) with
  | none => .error .externalRepositoryMetadata
  | some rest => .ok rest

/-- `validate_reference_traversal`: the reference is walked directory by directory from the copy
root, which no `..` may leave. -/
def validateReferenceTraversal (tree : FileTree) (copyRoot base reference : List UInt8) :
    Except GitInspectionIssue Unit :=
  match tree.openAbsoluteDirectory copyRoot with
  | none => .error .unsafeRepositoryMetadata
  | some root =>
    if isAbsolute reference then do
      let rest ← stripRoot copyRoot reference
      traverse tree [root] [] rest
    else do
      let (directories, position) ← descend tree [root] [] (components base)
      traverse tree directories position (components reference)

/-- The loop of `normalize_internal_reference`: a name is appended, and a `..` takes the last one
off. -/
def normalize (normalized : List (List UInt8)) :
    List Component → Except GitInspectionIssue (List (List UInt8))
  | [] => .ok normalized
  | .normal name :: rest => normalize (normalized ++ [name]) rest
  | .curDir :: rest => normalize normalized rest
  | .parentDir :: rest =>
    if normalized = [] then .error .externalRepositoryMetadata
    else normalize normalized.dropLast rest
  | .rootDir :: _ => .error .externalRepositoryMetadata

/-- `normalize_internal_reference`: the names of the target below the copy root, whatever lies
there. -/
def normalizeInternalReference (copyRoot base reference : List UInt8) :
    Except GitInspectionIssue (List (List UInt8)) :=
  if isAbsolute reference then do
    let rest ← stripRoot copyRoot reference
    normalize [] rest
  else normalize [] (components base ++ components reference)

/-- `resolve_internal_reference`: the names of the path below the copy root. -/
def resolveInternalReference (tree : FileTree) (copyRoot base reference : List UInt8) :
    Except GitInspectionIssue (List (List UInt8)) := do
  validateReferenceTraversal tree copyRoot base reference
  normalizeInternalReference copyRoot base reference

end Git
end ThinWorkspace
