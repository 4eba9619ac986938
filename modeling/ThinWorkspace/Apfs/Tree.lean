/-
# Scans of APFS trees

Source: `crates/thinws-adapter-macos/src/materializer.rs`, `snapshot_tree` and
`TreeManifest`, over the calls of `ffi.rs`.

The scan is that of the Linux adapter with other checks: a submount is a change of the
device, a directory is compared with its entry once it is open but not when it has been
read, and the number of files is a plain sum.  A name is one that an enumeration yields,
which the checks of `component_name` and `validate_component` accept.  As for Linux, the
loop that reads a file to its end is one call, and a recursion that exhausts the stack
is the call without a result.
-/

import ThinWorkspace.Btrfs.Tree

namespace ThinWorkspace
namespace Apfs

open ThinWorkspace.Core Lib Ports
open Linux (Errno)
open Btrfs (Fd DirEntry sortedNames saturate saturatingAdd enospc lengthAndBytes leBytes timeBytes
  optionBytes)

/-- `RawFileKind`: the kinds of a `stat`.  Only directories, regular files and symbolic links are
copied. -/
inductive RawFileKind where
  | directory | regularFile | symbolicLink | fifo | socket | characterDevice | blockDevice | unknown
deriving DecidableEq

/-- `RawNodeMetadata`: what a `stat` reports of an entry.  Two equal values are taken for the same,
unchanged entry. -/
structure RawNodeMetadata where
  device : UInt64
  inode : UInt64
  kind : RawFileKind
  mode : UInt32
  size : UInt64
  allocatedBytes : UInt64
  modifiedSeconds : ℤ
  modifiedNanoseconds : ℤ
deriving DecidableEq

/-- `RawNodeMetadata::mtime`: seconds and nanoseconds, which the manifest compares as a pair. -/
def RawNodeMetadata.mtime (metadata : RawNodeMetadata) : ℤ × ℤ :=
  (metadata.modifiedSeconds, metadata.modifiedNanoseconds)

/-- One system call of a scan.  Reading a file to its end is one call, and running out of stack is
the call without a result. -/
inductive ScanCall where
  | nodeMetadata (fd : Fd)
  | nodeMetadataAt (parent : Fd) (name : FileName)
  | readDirectory (directory : Fd)
  | openDirectoryAt (parent : Fd) (name : FileName)
  | openFileReadAt (parent : Fd) (name : FileName)
  | readLinkAt (parent : Fd) (name : FileName)
  | readAll (file : Fd)
  | overflowStack

/-- What a call returns: an errno or a value, and no value at all for the exhausted stack, from
which no run continues. -/
@[reducible] def ScanCall.Result : ScanCall → Type
  | .nodeMetadata _ => Except Errno RawNodeMetadata
  | .nodeMetadataAt _ _ => Except Errno RawNodeMetadata
  | .readDirectory _ => Except Errno (List DirEntry)
  | .openDirectoryAt _ _ => Except Errno Fd
  | .openFileReadAt _ _ => Except Errno Fd
  | .readLinkAt _ _ => Except Errno (List UInt8)
  | .readAll _ => Except Errno (List UInt8)
  | .overflowStack => Empty

/-- `Failure`, without the boxed source error: the kind for the receipt, the kind for the port, and
the operation. -/
structure Failure where
  kind : MaterializationFailureKind
  portKind : PortErrorKind
  operation : String
deriving DecidableEq

namespace Failure

/-- `Failure::io`: a full disk is told apart, since it is no fault of the tree. -/
def io (operation : String) (error : Errno) : Failure :=
  ⟨if error = enospc then .noSpace else .filesystem, .io, operation⟩

/-- The errors that `path_open` takes for a changed path: `ENOENT`, `ESTALE`, `ELOOP` and
`ENOTDIR`. -/
def stalePaths : List Errno := [.noent, .other 70, .other 62, .other 20]

/-- `Failure::path_open`: an entry that was there a moment ago and cannot be opened any more makes
the plan stale. -/
def pathOpen (operation : String) (error : Errno) : Failure :=
  if error ∈ stalePaths then ⟨.planStale, .invalidLayout, operation⟩ else io operation error

end Failure

/-- `source_changed`: two observations of one entry of the source differ. -/
def sourceChanged : Failure :=
  ⟨.sourceChanged, .conflict, "source changed during APFS materialization"⟩

/-- A program of calls: a part of a scan, which ends with a value or with a failure. -/
abbrev Scan (α : Type) := Program ScanCall ScanCall.Result Failure α

/-- Makes a call.  Nothing is assumed of its answer, so a scan is considered in every possible
state of the tree. -/
abbrev call (c : ScanCall) : Scan c.Result := Program.perform c

/-- `failure` unless `p` holds: every comparison of two observations has this form. -/
def require (p : Prop) [Decidable p] (failure : Failure) : Scan Unit :=
  if p then pure () else throw failure

/-- The end of the process where the stack is exhausted: no result follows, so nothing is said of
such a run. -/
def overflowStack {α : Type} : Scan α :=
  call .overflowStack >>= fun result => nomatch result

/-- A call whose error is a `Failure::io` of the operation given. -/
abbrev sys {α : Type} (operation : String) (x : Scan (Except Errno α)) : Scan α :=
  x.orFail (Failure.io operation)

/-- `node_metadata`: the metadata of an open handle. -/
def nodeMetadata (operation : String) (fd : Fd) : Scan RawNodeMetadata :=
  sys operation (call (.nodeMetadata fd))

/-- `node_metadata_at`: the metadata of a name in a directory, without following a link. -/
def nodeMetadataAt (operation : String) (parent : Fd) (name : FileName) : Scan RawNodeMetadata :=
  sys operation (call (.nodeMetadataAt parent name))

/-- `read_directory` and the sort after it: the order in which the entries are visited is that of
their names. -/
def readDirectory (operation : String) (directory : Fd) : Scan (List FileName) := do
  let entries ← sys operation (call (.readDirectory directory))
  pure (sortedNames entries)

/-! ### Manifests

The values of a scan: the manifest, of which copies are compared, and the snapshot, by which
created entries are recognized again. -/

/-- `ManifestEntry`: what has to be equal in source and target for an entry to count as copied.  A
symbolic link has neither mode nor time. -/
structure ManifestEntry where
  path : TreePath
  kind : RawFileKind
  mode : Option UInt32
  mtime : Option (ℤ × ℤ)
  length : UInt64
  contentDigest : Option TreeDigest
deriving DecidableEq

/-- `TreeManifest`: the entries of a tree behind its root, with the sums of its regular files. -/
structure TreeManifest where
  rootMode : UInt32
  rootMtime : ℤ × ℤ
  entries : List ManifestEntry
  regularFiles : UInt64
  logicalBytes : UInt64
  physicalBytes : UInt64
deriving DecidableEq

/-- `SnapshotEntry`: the metadata of an entry as it was seen, with the text of a link or the digest
of a file. -/
structure SnapshotEntry where
  metadata : RawNodeMetadata
  linkText : Option (List UInt8)
  contentDigest : Option TreeDigest
deriving DecidableEq

/-- `TreeSnapshot`: the entries by path, for the comparison with what was created, and the
manifest, for the comparison of two trees. -/
structure TreeSnapshot where
  root : RawNodeMetadata
  entries : Finmap fun _ : TreePath => SnapshotEntry
  manifest : TreeManifest
deriving DecidableEq

/-- `TreeManifest::matches_promised`: everything but the physical size, which a copy may change. -/
def TreeManifest.matchesPromised (manifest source : TreeManifest) : Bool :=
  manifest.rootMode == source.rootMode && manifest.rootMtime == source.rootMtime &&
    manifest.entries == source.entries && manifest.regularFiles == source.regularFiles &&
    manifest.logicalBytes == source.logicalBytes

/-- `kind_byte`: one byte for each kind, no two of them the same. -/
def kindByte : RawFileKind → UInt8
  | .directory => 1
  | .regularFile => 2
  | .symbolicLink => 3
  | .fifo => 4
  | .socket => 5
  | .characterDevice => 6
  | .blockDevice => 7
  | .unknown => 8

/-- What `TreeManifest::digest` hashes of one entry: each part says how long it is, or has a fixed
length, so that the bytes can be taken apart again. -/
def ManifestEntry.hashed (entry : ManifestEntry) : List UInt8 :=
  lengthAndBytes entry.path.bytes ++ [kindByte entry.kind] ++
    optionBytes (fun mode => leBytes 4 mode.toNat) entry.mode ++
    optionBytes timeBytes entry.mtime ++ leBytes 8 entry.length.toNat ++
    optionBytes (·.bytes) entry.contentDigest

variable (blake3 : List UInt8 → TreeDigest)

/-- `TreeManifest::digest`: the hash of a version tag, the root and the entries in their order.
The sums follow from the entries and are not hashed. -/
def TreeManifest.digest (manifest : TreeManifest) : TreeDigest :=
  blake3 (asBytes "thinws-tree-manifest-v1" ++ [0] ++ leBytes 4 manifest.rootMode.toNat ++
    timeBytes manifest.rootMtime ++ manifest.entries.flatMap ManifestEntry.hashed)

/-! ### The scan

The scan of the source, with one frame of the stack for each level.  A directory is compared
before and after its entries are read, so a change in between is noticed. -/

/-- `digest_file`: the file is the one its name led to, both before and after it is read, and as
many bytes were read as it is said to have. -/
def digestFile (file : Fd) (expected : RawNodeMetadata) : Scan (UInt64 × TreeDigest) := do
  let held ← nodeMetadata "inspect opened manifest file" file
  require (held = expected) sourceChanged
  let bytes ← sys "read manifest file" (call (.readAll file))
  let after ← nodeMetadata "reinspect manifest file" file
  require (after = expected ∧ saturate bytes.length = expected.size) sourceChanged
  pure (saturate bytes.length, blake3 bytes)

/-- The end of one round of `snapshot_directory`: the entry is known under its path and is the next
of the manifest. -/
def TreeSnapshot.add (snapshot : TreeSnapshot) (path : TreePath) (entry : SnapshotEntry)
    (mode : Option UInt32) (mtime : Option (ℤ × ℤ)) (length : UInt64) : TreeSnapshot :=
  { snapshot with
    entries := snapshot.entries.insert path entry
    manifest :=
      { snapshot.manifest with
        entries := snapshot.manifest.entries ++
          [⟨path, entry.metadata.kind, mode, mtime, length, entry.contentDigest⟩] } }

/-- The counters a regular file adds to; the two sums of bytes saturate, the number of files does
not. -/
def TreeManifest.count (manifest : TreeManifest) (length allocated : UInt64) : TreeManifest :=
  { manifest with
    regularFiles := manifest.regularFiles + 1
    logicalBytes := saturatingAdd manifest.logicalBytes length
    physicalBytes := saturatingAdd manifest.physicalBytes allocated }

/-- One round of `snapshot_directory`: the entry is on the device of the root, and what is recorded
is what was seen before and after.  A directory stands behind its entries. -/
def snapshotEntry (descend : Fd → TreePath → TreeSnapshot → Scan TreeSnapshot) (directory : Fd)
    (base : TreePath) (rootDevice : UInt64) (snapshot : TreeSnapshot) (name : FileName) :
    Scan TreeSnapshot := do
  let path := base ++ [name]
  let before ← nodeMetadataAt "inspect manifest entry" directory name
  require (before.device = rootDevice)
    ⟨.unsupportedSourceEntry, .invalidLayout, "reject source submount"⟩
  match before.kind with
  | .directory => do
    let child ← Program.orFail (Failure.pathOpen "open manifest directory")
      (call (.openDirectoryAt directory name))
    let opened ← nodeMetadata "reinspect manifest directory" child
    require (opened = before) sourceChanged
    let snapshot ← descend child path snapshot
    pure (snapshot.add path ⟨before, none, none⟩ (some before.mode) (some before.mtime) 0)
  | .regularFile => do
    let file ← Program.orFail (Failure.pathOpen "open manifest file")
      (call (.openFileReadAt directory name))
    let (length, digest) ← digestFile blake3 file before
    let counted :=
      { snapshot with manifest := snapshot.manifest.count length before.allocatedBytes }
    pure (counted.add path ⟨before, none, some digest⟩ (some before.mode) (some before.mtime)
      length)
  | .symbolicLink => do
    let text ← sys "read manifest symlink" (call (.readLinkAt directory name))
    let after ← nodeMetadataAt "reinspect manifest symlink" directory name
    require (after = before) sourceChanged
    pure (snapshot.add path ⟨before, some text, some (blake3 text)⟩ none none
      (saturate text.length))
  | .fifo | .socket | .characterDevice | .blockDevice | .unknown =>
    throw ⟨.unsupportedSourceEntry, .invalidData, "reject unsupported source entry"⟩

/-- `snapshot_directory`, with the frames left on the stack: the names are read once and visited in
order. -/
def snapshotDirectory (rootDevice : UInt64) :
    ℕ → Fd → TreePath → TreeSnapshot → Scan TreeSnapshot
  | 0, _, _, _ => overflowStack
  | frames + 1, directory, base, snapshot => do
    let names ← readDirectory "enumerate manifest directory" directory
    names.foldlM (snapshotEntry blake3 (snapshotDirectory rootDevice frames) directory base
      rootDevice) snapshot

/-- A snapshot before its entries: the mode and the time of the root are part of the manifest. -/
def TreeSnapshot.ofRoot (root : RawNodeMetadata) : TreeSnapshot :=
  ⟨root, ∅, ⟨root.mode, root.mtime, [], 0, 0, 0⟩⟩

/-- `snapshot_tree`: the root is a directory, and it has not changed when all of it is read. -/
def snapshotTree (frames : ℕ) (root : Fd) : Scan TreeSnapshot := do
  let rootBefore ← nodeMetadata "inspect manifest root" root
  require (rootBefore.kind = .directory)
    ⟨.invalidLayout, .invalidLayout, "require manifest root directory"⟩
  let snapshot ← snapshotDirectory blake3 rootBefore.device frames root [] (.ofRoot rootBefore)
  let rootAfter ← nodeMetadata "reinspect manifest root" root
  require (rootAfter = rootBefore) sourceChanged
  pure snapshot

end Apfs
end ThinWorkspace
