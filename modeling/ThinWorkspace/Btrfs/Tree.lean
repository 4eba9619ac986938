/-
# Trees below held directories

Source: `crates/thinws-adapter-linux/src/tree.rs`, and the system calls of it and of
`materializer.rs`.

An `FsCall` is one system call on held descriptors and single names.  `Fs` is a
program of such calls that may fail with a `TreeFailure`; the whole of a tree is read
by `snapshot`.  The loop that reads a file to its end is one call with the bytes of
all its reads, and a recursion that exhausts the stack ends the process, which is the
call without a result.

A path below a held root is the list of its names; `TreePath.bytes` is the vector the
source holds.
-/

import Mathlib.Data.Finmap
import ThinWorkspace.Core.FileName
import ThinWorkspace.Linux.Control
import ThinWorkspace.Ports.Bootstrap

namespace ThinWorkspace
namespace Btrfs

open ThinWorkspace.Core Lib Ports
open Linux (Errno)

/-! ### Entries and nodes

What the kernel shows of a directory and of a file, reduced to the fields that the adapter
looks at. -/

/-- What an enumeration yields: a name, or one of the two dots, which are skipped. -/
inductive DirEntry where
  | current | parent
  | named (name : FileName)
deriving DecidableEq

/-- The name of an entry that is neither `.` nor `..`. -/
def DirEntry.name? : DirEntry → Option FileName
  | .current | .parent => none
  | .named name => some name

/-- A held descriptor, as a number that calls refer to. -/
abbrev Fd := ℕ

/-- `NodeKind`: the kinds of files that a copy can make, and the rest. -/
inductive NodeKind where
  | directory | file | symlink | unsupported
deriving DecidableEq

/-- `Node`, as `node_from_stat` makes it, with the time in seconds and nanoseconds. -/
structure Node where
  device : UInt64
  inode : UInt64
  kind : NodeKind
  mode : UInt32
  size : UInt64
  blocks : UInt64
  mtimeSeconds : ℤ
  mtimeNanoseconds : ℤ
deriving DecidableEq

/-- `Node::identity`: the device and the inode, by which an entry is recognized again. -/
def Node.identity (node : Node) : FileIdentity := ⟨node.device, node.inode⟩

/-- `Node::mtime`: the time of change, which a copy preserves. -/
def Node.mtime (node : Node) : ℤ × ℤ := (node.mtimeSeconds, node.mtimeNanoseconds)

/-! ### Calls

The calls of the adapter, and the failures that each of them is reported as.  A full volume
is told apart from everything else. -/

/-- Where an enumeration failed: at its start, or at one of its entries. -/
inductive ReadDirFailure where
  | enumerate (error : Errno)
  | entry (error : Errno)

/-- One system call, or one of the process-wide counters and clocks. -/
inductive FsCall where
  | openRoot
  | openDirectory (parent : Fd) (name : FileName)
  | openFile (parent : Fd) (name : FileName)
  | openStaged (parent : Fd) (name : FileName)
  | dup (fd : Fd)
  | fstat (fd : Fd)
  | statat (parent : Fd) (name : FileName)
  | mountId (fd : Fd)
  | mountIdAt (parent : Fd) (name : FileName)
  | fstatfs (fd : Fd)
  | fsid (fd : Fd)
  | readDir (fd : Fd)
  | readlink (parent : Fd) (name : FileName)
  | readAll (fd : Fd)
  | writeAll (fd : Fd) (bytes : List UInt8)
  | flush (fd : Fd)
  | ficlone (source destination : Fd)
  | mkdir (parent : Fd) (name : FileName) (mode : UInt32)
  | create (parent : Fd) (name : FileName) (mode : UInt32)
  | symlink (text : List UInt8) (parent : Fd) (name : FileName)
  | renameNoReplace (source : Fd) (name : FileName) (target : Fd) (targetName : FileName)
  | unlink (parent : Fd) (name : FileName) (removeDirectory : Bool)
  | futimens (fd : Fd) (mtime : ℤ × ℤ)
  | fchmod (fd : Fd) (mode : UInt32)
  | inspectMaterializationPaths (request : MaterializationPathProbeRequest)
  | nextSequence
  | processId
  | elapsedMillis
  | overflowStack

/-- What a call returns, an `errno` where it failed. -/
@[reducible] def FsCall.Result : FsCall → Type
  | .openRoot => Except Errno Fd
  | .openDirectory _ _ => Except Errno Fd
  | .openFile _ _ => Except Errno Fd
  | .openStaged _ _ => Except Errno Fd
  | .dup _ => Except Errno Fd
  | .fstat _ => Except Errno Node
  | .statat _ _ => Except Errno Node
  | .mountId _ => Except Errno (Option UInt64)
  | .mountIdAt _ _ => Except Errno (Option UInt64)
  | .fstatfs _ => Except Errno UInt64
  | .fsid _ => Except Errno Uuid
  | .readDir _ => Except ReadDirFailure (List DirEntry)
  | .readlink _ _ => Except Errno (List UInt8)
  | .readAll _ => Except Errno (List UInt8)
  | .writeAll _ _ => Except Errno Unit
  | .flush _ => Except Errno Unit
  | .ficlone _ _ => Except Errno Unit
  | .mkdir _ _ _ => Except Errno Unit
  | .create _ _ _ => Except Errno Unit
  | .symlink _ _ _ => Except Errno Unit
  | .renameNoReplace _ _ _ _ => Except Errno Unit
  | .unlink _ _ _ => Except Errno Unit
  | .futimens _ _ => Except Errno Unit
  | .fchmod _ _ => Except Errno Unit
  | .inspectMaterializationPaths _ => Except PortError MaterializationPathReport
  | .nextSequence => UInt64
  | .processId => UInt32
  | .elapsedMillis => UInt64
  | .overflowStack => Empty

/-- `TreeFailure`, without the boxed source error, which nothing reads. -/
structure TreeFailure where
  kind : MaterializationFailureKind
  portKind : PortErrorKind
  operation : String
deriving DecidableEq

/-- `ENOSPC`, the one `errno` that is a failure of its own kind. -/
def enospc : Errno := .other 28

namespace TreeFailure

/-- `TreeFailure::io`: a full volume is told from the other failures of a call. -/
def io (operation : String) (error : Errno) : TreeFailure :=
  ⟨if error = enospc then .noSpace else .filesystem, .io, operation⟩

/-- `TreeFailure::source_changed`: what was read twice was not the same. -/
def sourceChanged : TreeFailure :=
  ⟨.sourceChanged, .invalidData, "source tree changed during materialization"⟩

/-- `TreeFailure::target_changed`: the target is not what the attempt has made of it. -/
def targetChanged : TreeFailure :=
  ⟨.targetChanged, .invalidLayout, "target tree changed during materialization"⟩

/-- `TreeFailure::into_port_error`: the operation becomes the text of the error. -/
def intoPortError (failure : TreeFailure) : PortError := .new failure.portKind failure.operation

end TreeFailure

/-- A program of calls that may fail with a `TreeFailure`. -/
abbrev Fs (α : Type) := Program FsCall FsCall.Result TreeFailure α

/-- Makes a call and returns its result, whatever that is. -/
abbrev call {ε : Type} (c : FsCall) : Program FsCall FsCall.Result ε c.Result := Program.perform c

/-- A call whose error is a `TreeFailure::io`. -/
abbrev sys {α : Type} (operation : String) (x : Fs (Except Errno α)) : Fs α :=
  x.orFail (TreeFailure.io operation)

/-- `failure` unless `p` holds; it makes no call. -/
def require (p : Prop) [Decidable p] (failure : TreeFailure) : Fs Unit :=
  if p then pure () else throw failure

/-- A value that may be missing, or the failure that stands for it. -/
def orMissing {α : Type} (failure : TreeFailure) : Option α → Fs α
  | some a => pure a
  | none => throw failure

/-- The end of the process where the stack is exhausted. -/
def overflowStack {ε α : Type} : Program FsCall FsCall.Result ε α :=
  call .overflowStack >>= fun result => nomatch result

/-! ### Reading

The functions that read, each around one call.  Names are sorted here, and links are never
followed. -/

/-- `node`: the held file as `fstat` shows it. -/
def node (fd : Fd) : Fs Node := sys "inspect held tree node" (call (.fstat fd))

/-- `node_at`: the entry of a held directory as `statat` shows it, without following a link. -/
def nodeAt (parent : Fd) (name : FileName) : Fs Node :=
  sys "inspect named tree node" (call (.statat parent name))

/-- `mount_id`: a kernel that reports no mount number makes the tree one that cannot be walked. -/
def mountId (fd : Fd) : Fs UInt64 := do
  let observed ← sys "inspect tree mount ID" (call (.mountId fd))
  orMissing ⟨.invalidLayout, .invalidLayout, "tree mount ID is unavailable"⟩ observed

/-- `mount_id_at`: the mount number of an entry, with the same requirement. -/
def mountIdAt (parent : Fd) (name : FileName) : Fs UInt64 := do
  let observed ← sys "inspect tree entry mount ID" (call (.mountIdAt parent name))
  orMissing ⟨.invalidLayout, .invalidLayout, "tree entry mount ID is unavailable"⟩ observed

/-- The two failures of an enumeration, which differ in their operation. -/
def ReadDirFailure.toTree : ReadDirFailure → TreeFailure
  | .enumerate error => .io "enumerate tree directory" error
  | .entry error => .io "read tree directory entry" error

/-- The order of byte vectors, as `Vec<u8>` compares them. -/
def bytesLe : List UInt8 → List UInt8 → Bool
  | [], _ => true
  | _ :: _, [] => false
  | a :: as, b :: bs => a.toNat < b.toNat || (a == b && bytesLe as bs)

/-- The names of an enumeration in the order of their bytes. -/
def sortedNames (entries : List DirEntry) : List FileName :=
  (entries.filterMap DirEntry.name?).mergeSort fun a b => bytesLe a.bytes b.bytes

/-- `directory_names`: the names of a directory in the order of their bytes. -/
def directoryNames (directory : Fd) : Fs (List FileName) := do
  let entries ← Program.orFail ReadDirFailure.toTree (call (.readDir directory))
  pure (sortedNames entries)

/-- `open_directory`, which fails on a symbolic link, so that a walk never leaves the tree. -/
def openDirectory (parent : Fd) (name : FileName) : Fs Fd :=
  sys "open tree directory without following links" (call (.openDirectory parent name))

/-- `open_file`, which fails on a symbolic link, so that no other file is read in its place. -/
def openFile (parent : Fd) (name : FileName) : Fs Fd :=
  sys "open tree file without following links" (call (.openFile parent name))

/-! ### Snapshots

The snapshot of a tree and its manifest.  Sums saturate as in the source, and a file is
compared with its metadata before and after it is read. -/

/-- `SnapshotEntry`: an entry as it was seen, with the text of a link or the digest of a file. -/
structure SnapshotEntry where
  node : Node
  linkText : Option (List UInt8)
  contentDigest : Option TreeDigest
deriving DecidableEq

/-- `ManifestEntry`: what of an entry a copy promises to preserve. -/
structure ManifestEntry where
  path : TreePath
  kind : NodeKind
  mode : Option UInt32
  mtime : Option (ℤ × ℤ)
  length : UInt64
  digest : Option TreeDigest
deriving DecidableEq

/-- `TreeManifest`: the root, the entries in order, and their totals. -/
structure TreeManifest where
  rootMode : UInt32
  rootMtime : ℤ × ℤ
  entries : List ManifestEntry
  regularFiles : UInt64
  logicalBytes : UInt64
  physicalBytes : UInt64
deriving DecidableEq

/-- `TreeSnapshot`: the entries by their paths, beside the manifest made of them. -/
structure TreeSnapshot where
  root : Node
  entries : Finmap fun _ : TreePath => SnapshotEntry
  manifest : TreeManifest
deriving DecidableEq

/-- `TreeManifest::matches_promised`: everything but the allocated bytes is compared. -/
def TreeManifest.matchesPromised (manifest source : TreeManifest) : Bool :=
  manifest.rootMode == source.rootMode && manifest.rootMtime == source.rootMtime &&
    manifest.entries == source.entries && manifest.regularFiles == source.regularFiles &&
    manifest.logicalBytes == source.logicalBytes

/-- `u64::MAX`, at which the totals of a tree stop. -/
def u64Max : ℕ := 18446744073709551615

/-- The `u64` of a number, or the largest one. -/
def saturate (n : ℕ) : UInt64 := UInt64.ofNat (min n u64Max)

/-- `saturating_add` of two `u64`: the largest value stands for every sum that is too large. -/
def saturatingAdd (a b : UInt64) : UInt64 := saturate (a.toNat + b.toNat)

/-- `saturating_mul` of two `u64`: the largest value stands for every product that is too large. -/
def saturatingMul (a b : UInt64) : UInt64 := saturate (a.toNat * b.toNat)

/-- The little-endian bytes of a number below `256 ^ count`. -/
def leBytes : ℕ → ℕ → List UInt8
  | 0, _ => []
  | count + 1, n => UInt8.ofNat n :: leBytes count (n / 256)

/-- `update_bytes`: the length stands before the bytes, so that neither can be taken for the other.
-/
def lengthAndBytes (bytes : List UInt8) : List UInt8 :=
  leBytes 8 bytes.length ++ bytes

/-- `update_time`; the two parts are an `i64` each. -/
def timeBytes (time : ℤ × ℤ) : List UInt8 :=
  leBytes 8 (time.1 % 18446744073709551616).toNat ++
    leBytes 8 (time.2 % 18446744073709551616).toNat

/-- The tag of a kind in a manifest. -/
def kindByte : NodeKind → UInt8
  | .directory => 1
  | .file => 2
  | .symlink => 3
  | .unsupported => 255

/-- An optional part of a manifest entry: a one and the part, or a zero. -/
def optionBytes {α : Type} (bytes : α → List UInt8) : Option α → List UInt8
  | some a => 1 :: bytes a
  | none => [0]

/-- What `TreeManifest::digest` hashes of one entry: each part says how long it is, or has a fixed
length. -/
def ManifestEntry.hashed (entry : ManifestEntry) : List UInt8 :=
  lengthAndBytes entry.path.bytes ++ [kindByte entry.kind] ++
    optionBytes (fun mode => leBytes 4 mode.toNat) entry.mode ++
    optionBytes timeBytes entry.mtime ++ leBytes 8 entry.length.toNat ++
    optionBytes (·.bytes) entry.digest

variable (blake3 : List UInt8 → TreeDigest)

/-- `TreeManifest::digest`: the hash of a tag, the root and the entries in order. -/
def TreeManifest.digest (manifest : TreeManifest) : TreeDigest :=
  blake3 (asBytes "thinws-tree-manifest-v1" ++ [0] ++ leBytes 4 manifest.rootMode.toNat ++
    timeBytes manifest.rootMtime ++ manifest.entries.flatMap ManifestEntry.hashed)

/-- `digest_file`: the file is compared with what was expected before it is read and after. -/
def digestFile (file : Fd) (expected : Node) : Fs (UInt64 × TreeDigest) := do
  let held ← node file
  require (held = expected) .sourceChanged
  let bytes ← sys "read tree file" (call (.readAll file))
  let current ← node file
  require (current = expected ∧ saturate bytes.length = expected.size) .sourceChanged
  pure (saturate bytes.length, blake3 bytes)

/-- `UnsupportedSourceEntry` of a tree entry: neither a directory, a file nor a link. -/
def rejectUnsupported : TreeFailure :=
  ⟨.unsupportedSourceEntry, .invalidData, "reject unsupported tree entry"⟩

/-- The end of one round of `snapshot_directory_with_hook`: the entry is known under its path and
is the next of the manifest. -/
def TreeSnapshot.add (snapshot : TreeSnapshot) (path : TreePath) (entry : SnapshotEntry)
    (mode : Option UInt32) (mtime : Option (ℤ × ℤ)) (length : UInt64) : TreeSnapshot :=
  { snapshot with
    entries := snapshot.entries.insert path entry
    manifest :=
      { snapshot.manifest with
        entries := snapshot.manifest.entries ++
          [⟨path, entry.node.kind, mode, mtime, length, entry.contentDigest⟩] } }

/-- The counters a regular file adds to, all of which saturate; a block has 512 bytes. -/
def TreeManifest.count (manifest : TreeManifest) (length blocks : UInt64) : TreeManifest :=
  { manifest with
    regularFiles := saturatingAdd manifest.regularFiles 1
    logicalBytes := saturatingAdd manifest.logicalBytes length
    physicalBytes := saturatingAdd manifest.physicalBytes (saturatingMul blocks 512) }

/-- One round of `snapshot_directory_with_hook`; `descend` reads a directory. -/
def snapshotEntry (descend : Fd → TreePath → TreeSnapshot → Fs TreeSnapshot) (directory : Fd)
    (base : TreePath) (rootMount : UInt64) (snapshot : TreeSnapshot) (name : FileName) :
    Fs TreeSnapshot := do
  let path := base ++ [name]
  let before ← nodeAt directory name
  let mount ← mountIdAt directory name
  require (mount = rootMount) ⟨.unsupportedSourceEntry, .invalidLayout, "reject tree submount"⟩
  match before.kind with
  | .directory => do
    let child ← openDirectory directory name
    let opened ← node child
    require (opened = before) .sourceChanged
    let childMount ← mountId child
    require (childMount = rootMount) .sourceChanged
    let snapshot ← descend child path snapshot
    let after ← node child
    require (after = before) .sourceChanged
    pure (snapshot.add path ⟨before, none, none⟩ (some before.mode) (some before.mtime) 0)
  | .file => do
    let file ← openFile directory name
    let (length, digest) ← digestFile blake3 file before
    let counted := { snapshot with manifest := snapshot.manifest.count length before.blocks }
    pure (counted.add path ⟨before, none, some digest⟩ (some before.mode) (some before.mtime)
      length)
  | .symlink => do
    let text ← sys "read tree symbolic link" (call (.readlink directory name))
    let after ← nodeAt directory name
    require (after = before) .sourceChanged
    pure (snapshot.add path ⟨before, some text, some (blake3 text)⟩ none none
      (saturate text.length))
  | .unsupported => throw rejectUnsupported

/-- `snapshot_directory_with_hook`, with the frames left on the stack. -/
def snapshotDirectory (rootMount : UInt64) :
    ℕ → Fd → TreePath → TreeSnapshot → Fs TreeSnapshot
  | 0, _, _, _ => overflowStack
  | frames + 1, directory, base, snapshot => do
    let names ← directoryNames directory
    names.foldlM (snapshotEntry blake3 (snapshotDirectory rootMount frames) directory base
      rootMount) snapshot

/-- A snapshot before its entries: the root alone. -/
def TreeSnapshot.ofRoot (root : Node) : TreeSnapshot :=
  ⟨root, ∅, ⟨root.mode, root.mtime, [], 0, 0, 0⟩⟩

/-- `snapshot`: the whole tree is read below a root that is compared at the start and the end. -/
def snapshot (frames : ℕ) (root : Fd) : Fs TreeSnapshot := do
  let before ← node root
  require (before.kind = .directory)
    ⟨.invalidLayout, .invalidLayout, "require tree root directory"⟩
  let rootMount ← mountId root
  let snapshot ← snapshotDirectory blake3 rootMount frames root [] (.ofRoot before)
  let after ← node root
  require (after = before) .sourceChanged
  pure snapshot

end Btrfs
end ThinWorkspace
