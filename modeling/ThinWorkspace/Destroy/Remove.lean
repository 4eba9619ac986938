/-
# The removal of what lies in a root

Source: `crates/thinws-adapter-linux/src/destroy.rs` and
`crates/thinws-adapter-macos/src/destroy.rs`.  The two differ in what they compare, in
where they refuse a special file, and in the call that makes the removals last.

`levels` is what is left of the depth limit: `MAX_DELETE_DEPTH + 1 - depth`.  A handle is
closed where its block ends; behind an error no call follows, so there it is left open.
-/

import ThinWorkspace.Destroy.World

namespace ThinWorkspace
namespace Destroy

open ThinWorkspace.Core Lib Ports
open Linux (Errno)
open Btrfs (Fd DirEntry ReadDirFailure TreeFailure sortedNames)
open Apfs (RawFileKind RawNodeMetadata)

/-- `MAX_DELETE_DEPTH`: directories that lie deeper than this below the root are refused, on both
platforms. -/
def maxDeleteDepth : ℕ := 512

/-- `usize::MAX`: the largest count of removed entries that can be reported. -/
def usizeMax : ℕ := 18446744073709551615

section Programs

variable {N E ε α : Type}

/-- A removal, or a part of one: a program over the calls of both platforms, whose metadata, errors
of calls and own errors are parameters. -/
abbrev Removing (N E ε α : Type) := Program DestroyCall (DestroyCall.Result N E) ε α

/-- Makes a call.  Its answer is whatever the file system says at that moment, so nothing seen
earlier has to hold at it. -/
abbrev call (c : DestroyCall) : Removing N E ε (c.Result N E) := Program.perform c

/-- `error` unless `p` holds: the shape of every check of a removal, which ends it at the first
answer that does not fit. -/
def require (p : Prop) [Decidable p] (error : ε) : Removing N E ε Unit :=
  if p then pure () else throw error

/-- `checked_add` of two counts, which fails where the sum has no representation. -/
def checkedAdd (error : ε) (a b : ℕ) : Removing N E ε ℕ :=
  if a + b ≤ usizeMax then pure (a + b) else throw error

/-- The caller's `verify_scope`: one call, which may fail for reasons of the caller; its failure is
passed on unchanged. -/
def callerScope : Removing N E E Unit := Program.orFail id (call .verifyScope)

/-- The end of a handle, where the source's block ends and the descriptor is closed. -/
def drop (fd : Fd) : Removing N E ε Unit := call (.close fd)

end Programs

/-! ### Linux

The functions of the Linux adapter, which compares mounts as well as devices and inodes.
Every comparison that fails is the one error `stale_scope`. -/

namespace OnLinux

/-- A removal on Linux, or a part of one: its metadata are those of `tree.rs`, and its errors are
port errors from the start. -/
abbrev Removal (α : Type) := Removing Btrfs.Node PortError PortError α

/-- The failure of a call of `tree.rs`, as `into_port_error` reports it: the operation that failed,
with the kind of the errno. -/
def treeError (operation : String) (error : Errno) : PortError :=
  (TreeFailure.io operation error).intoPortError

/-- `node`: what an open handle leads to. -/
def node (fd : Fd) : Removal Btrfs.Node :=
  Program.orFail (treeError "inspect held tree node") (call (.stat fd))

/-- `node_at`: what a name of a directory leads to, without following a link. -/
def nodeAt (parent : Fd) (name : FileName) : Removal Btrfs.Node :=
  Program.orFail (treeError "inspect named tree node") (call (.statAt parent name))

/-- The mount ID of an answer that has one: a kernel that reports none leaves the scope unknown,
which is refused. -/
def available (operation : String) : Option UInt64 → Removal UInt64
  | some mount => pure mount
  | none => throw (.new .invalidLayout operation)

/-- `mount_id`: the mount that an open handle lies on. -/
def mountId (fd : Fd) : Removal UInt64 := do
  let observed ← Program.orFail (treeError "inspect tree mount ID") (call (.mountId fd))
  available "tree mount ID is unavailable" observed

/-- `mount_id_at`: the mount that a name of a directory leads to, so that a mount point is seen
before it is entered. -/
def mountIdAt (parent : Fd) (name : FileName) : Removal UInt64 := do
  let observed ← Program.orFail (treeError "inspect tree entry mount ID")
    (call (.mountIdAt parent name))
  available "tree entry mount ID is unavailable" observed

/-- `directory_names`: the names of a directory, sorted, so that the order of a removal does not
depend on the file system. -/
def directoryNames (directory : Fd) : Removal (List FileName) := do
  let entries ← Program.orFail (fun failure => (ReadDirFailure.toTree failure).intoPortError)
    (call (.readDirectory directory))
  pure (sortedNames entries)

/-- `open_directory`: a directory opened by its name below an open one, without following a link.
-/
def openDirectory (parent : Fd) (name : FileName) : Removal Fd :=
  Program.orFail (treeError "open tree directory without following links")
    (call (.openDirectory parent name))

/-- `stale_scope`: the one error of every check that finds something other than what was seen
before. -/
def staleScope : PortError := .new .invalidLayout "Workspace deletion scope changed"

/-- `require_directory`: the handle is a directory of the expected identity on the expected mount.
-/
def requireDirectory (directory : Fd) (expected : FileIdentity) (expectedMount : UInt64) :
    Removal Unit := do
  let current ← node directory
  let currentMount ← mountId directory
  require (current.kind = .directory ∧ current.identity = expected ∧ currentMount = expectedMount)
    staleScope

/-- `checked_entry`: what a name leads to, in a directory that has just been checked; it has to lie
on the same device and the same mount. -/
def checkedEntry (directory : Fd) (name : FileName) (expected : FileIdentity)
    (expectedMount : UInt64) : Removal Btrfs.Node := do
  requireDirectory directory expected expectedMount
  let entry ← nodeAt directory name
  let entryMount ← mountIdAt directory name
  require (entry.identity.device = expected.device ∧ entryMount = expectedMount) staleScope
  pure entry

/-- The check that a name still designates what was seen under it: the same identity and the same
kind. -/
def requireUnchanged (directory : Fd) (name : FileName) (expected : FileIdentity)
    (expectedMount : UInt64) (before : Btrfs.Node) : Removal Unit := do
  let current ← checkedEntry directory name expected expectedMount
  require (current.identity = before.identity ∧ current.kind = before.kind) staleScope

/-- `checked_add`, and its error: one count for the whole removal, entries of directories included.
-/
abbrev addEntries (a b : ℕ) : Removal ℕ :=
  checkedAdd (.new .invalidLayout "entry count overflow") a b

/-- The block of `remove_directory_contents` that removes what lies in an entry that is a
directory: `removeContents` is the recursive call.  The child's check of the scope includes that of
its parent. -/
def removeBelow (removeContents : Fd → FileIdentity → Removal Unit → Removal ℕ) (directory : Fd)
    (expected : FileIdentity) (expectedMount : UInt64) (verifyScope : Removal Unit)
    (name : FileName) (before : Btrfs.Node) (removed : ℕ) : Removal ℕ :=
  if before.kind = .directory then do
    let child ← openDirectory directory name
    requireDirectory child before.identity expectedMount
    let verifyChild := do
      verifyScope
      requireUnchanged directory name expected expectedMount before
    let below ← removeContents child before.identity verifyChild
    let removed ← addEntries removed below
    requireDirectory child before.identity expectedMount
    drop child
    pure removed
  else pure removed

/-- One turn of the loop of `remove_directory_contents`: the entry is checked, emptied where it is
a directory, checked again, and only then unlinked. -/
def removeEntry (removeContents : Fd → FileIdentity → Removal Unit → Removal ℕ) (directory : Fd)
    (expected : FileIdentity) (expectedMount : UInt64) (verifyScope : Removal Unit) (removed : ℕ)
    (name : FileName) : Removal ℕ := do
  verifyScope
  requireDirectory directory expected expectedMount
  let before ← checkedEntry directory name expected expectedMount
  require (before.kind ≠ .unsupported)
    (.new .invalidLayout "unsupported special entry in Workspace deletion scope")
  let removed ← removeBelow removeContents directory expected expectedMount verifyScope name before
    removed
  verifyScope
  requireUnchanged directory name expected expectedMount before
  Program.orFail (fun _ => .new .io "remove proven Workspace entry")
    (call (.unlink directory name (before.kind = .directory)))
  addEntries removed 1

/-- `remove_directory_contents`, by recursion on the levels that are left: every name that was read
is removed, and a second reading has to find the directory empty. -/
def removeDirectoryContents (expectedMount : UInt64) :
    ℕ → Fd → FileIdentity → Removal Unit → Removal ℕ
  | 0, _, _, _ => throw (.new .invalidLayout "Workspace deletion exceeds directory depth limit")
  | levels + 1, directory, expected, verifyScope => do
    requireDirectory directory expected expectedMount
    let names ← directoryNames directory
    let removed ← names.foldlM
      (removeEntry (removeDirectoryContents expectedMount levels) directory expected expectedMount
        verifyScope) 0
    verifyScope
    requireDirectory directory expected expectedMount
    let left ← directoryNames directory
    require (left = []) (.new .notEmpty "Workspace directory changed during deletion")
    Program.orFail (fun _ => .new .io "sync removed Workspace entries")
      (call (.sync directory))
    pure removed

/-- `remove_root_contents`: the root is the directory that the caller proved, on the mount it was
proved on. -/
def removeRootContents (root : Fd) (expected : FileIdentity) (expectedMount : UInt64) :
    Removal ℕ := do
  callerScope
  requireDirectory root expected expectedMount
  removeDirectoryContents expectedMount (maxDeleteDepth + 1) root expected callerScope

end OnLinux

/-! ### macOS

The functions of the macOS adapter.  It compares devices and inodes, reports errors of the
system, and leaves the translation to its caller. -/

namespace OnMacOs

/-- `io::Error`, of the system or with a message: this platform's functions report it and leave the
port error to their caller. -/
inductive IoError where
  | os (error : Errno)
  | other (message : String)
deriving DecidableEq

/-- A removal on macOS, or a part of one: its metadata are those of `apfs.rs`, and no mount is
compared, only the device. -/
abbrev Removal (α : Type) := Removing RawNodeMetadata IoError IoError α

/-- `ESTALE`: something other than what was seen before. -/
def estale : IoError := .os (.other 70)

/-- `ELOOP`: directories nested too deep. -/
def eloop : IoError := .os (.other 62)

/-- `EXDEV`: an entry of another device. -/
def exdev : IoError := .os (.other 18)

/-- `ENOTEMPTY`: a directory that gained an entry while it was emptied. -/
def enotempty : IoError := .os (.other 66)

/-- `node_metadata`: what an open handle leads to. -/
def nodeMetadata (fd : Fd) : Removal RawNodeMetadata :=
  Program.orFail .os (call (.stat fd))

/-- `node_metadata_at`: what a name of a directory leads to, without following a link. -/
def nodeMetadataAt (parent : Fd) (name : FileName) : Removal RawNodeMetadata :=
  Program.orFail .os (call (.statAt parent name))

/-- The error of an enumeration: it may fail as a whole or at one of its entries, and both are
reported as they are. -/
def readError : ReadDirFailure → IoError
  | .enumerate error => .os error
  | .entry error => .os error

/-- `read_directory` and the sort after it: as on Linux, the order of a removal is that of the
names. -/
def readDirectory (directory : Fd) : Removal (List FileName) := do
  let entries ← Program.orFail readError (call (.readDirectory directory))
  pure (sortedNames entries)

/-- `open_directory_at`: a directory opened by its name below an open one, without following a
link. -/
def openDirectoryAt (parent : Fd) (name : FileName) : Removal Fd :=
  Program.orFail .os (call (.openDirectory parent name))

/-- `remove_staged_at`: the one call that removes, as a directory or as anything else, by the kind
that was seen. -/
def removeStagedAt (parent : Fd) (name : FileName) (kind : RawFileKind) : Removal Unit :=
  Program.orFail .os (call (.unlink parent name (kind = .directory)))

/-- `file_identity`: device and inode; the kind is compared only where a directory is required. -/
def fileIdentity (metadata : RawNodeMetadata) : FileIdentity := ⟨metadata.device, metadata.inode⟩

/-- `require_directory`: the metadata are those of a directory of the expected identity. -/
def requireDirectory (metadata : RawNodeMetadata) (expected : FileIdentity) : Removal Unit :=
  require (metadata.kind = .directory ∧ fileIdentity metadata = expected) estale

/-- `require_directory` of a held directory, whose metadata are read first. -/
def requireHeld (directory : Fd) (expected : FileIdentity) : Removal Unit := do
  let metadata ← nodeMetadata directory
  requireDirectory metadata expected

/-- The check that a name still designates what was seen under it; the kind is not compared here.
-/
def requireUnchanged (directory : Fd) (name : FileName) (before : FileIdentity) :
    Removal Unit := do
  let current ← nodeMetadataAt directory name
  require (fileIdentity current = before) estale

/-- The same, behind a check of the directory that the name is looked up in. -/
def requireUnchangedIn (directory : Fd) (expected : FileIdentity) (name : FileName)
    (before : FileIdentity) : Removal Unit := do
  requireHeld directory expected
  requireUnchanged directory name before

/-- `checked_add`, and its error, which on this platform is a message and no port error. -/
abbrev addEntries (a b : ℕ) : Removal ℕ := checkedAdd (.other "removed entry count overflow") a b

/-- The block of `remove_directory_contents` that removes what lies in an entry that is a
directory: `removeContents` is the recursive call.  The child's check of the scope includes that of
its parent. -/
def removeBelow (removeContents : Fd → FileIdentity → Removal Unit → Removal ℕ) (directory : Fd)
    (verifyScope : Removal Unit) (name : FileName) (before : RawNodeMetadata) (removed : ℕ) :
    Removal ℕ :=
  if before.kind = .directory then do
    let child ← openDirectoryAt directory name
    let childIdentity := fileIdentity before
    requireHeld child childIdentity
    let verifyChild := do
      verifyScope
      requireUnchanged directory name childIdentity
    let below ← removeContents child childIdentity verifyChild
    let removed ← addEntries removed below
    requireHeld child childIdentity
    drop child
    pure removed
  else pure removed

/-- One turn of the loop of `remove_directory_contents`: the device is compared, a directory is
emptied, and the name is checked again right before it is unlinked. -/
def removeEntry (removeContents : Fd → FileIdentity → Removal Unit → Removal ℕ) (directory : Fd)
    (expected : FileIdentity) (rootDevice : UInt64) (verifyScope : Removal Unit) (removed : ℕ)
    (name : FileName) : Removal ℕ := do
  verifyScope
  requireHeld directory expected
  let before ← nodeMetadataAt directory name
  require (before.device = rootDevice) exdev
  let removed ← removeBelow removeContents directory verifyScope name before removed
  verifyScope
  requireUnchangedIn directory expected name (fileIdentity before)
  removeStagedAt directory name before.kind
  addEntries removed 1

/-- `remove_directory_contents`, by recursion on the levels that are left.  Other than on Linux
nothing is synced, and the scope is not verified again behind the loop. -/
def removeDirectoryContents (rootDevice : UInt64) :
    ℕ → Fd → FileIdentity → Removal Unit → Removal ℕ
  | 0, _, _, _ => throw eloop
  | levels + 1, directory, expected, verifyScope => do
    requireHeld directory expected
    let names ← readDirectory directory
    let removed ← names.foldlM
      (removeEntry (removeDirectoryContents rootDevice levels) directory expected rootDevice
        verifyScope) 0
    requireHeld directory expected
    let left ← readDirectory directory
    require (left = []) enotempty
    pure removed

/-- `remove_root_contents`: the root is a directory of the identity that the caller proved, whose
device bounds the removal. -/
def removeRootContents (root : Fd) (expected : FileIdentity) : Removal ℕ := do
  callerScope
  let metadata ← nodeMetadata root
  requireDirectory metadata expected
  removeDirectoryContents expected.device (maxDeleteDepth + 1) root expected callerScope

end OnMacOs
end Destroy
end ThinWorkspace
