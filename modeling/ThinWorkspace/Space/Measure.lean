/-
# The measurement of a tree

Source: `crates/thinws-adapter-linux/src/space.rs` and
`crates/thinws-adapter-macos/src/space.rs`, with `raw_node_metadata` of the latter's
`ffi.rs`.  The two walk a tree alike and differ in how they read a `stat` and in the
mounts, which only Linux compares.

The programs work with any handles `H`.  The loop that reads a directory to its end is one
call, as in `Btrfs.Tree`, and the time since the start is one call.  `levels` is what is
left of the depth limit: `MAX_SCAN_DEPTH + 1 - depth`.
-/

import ThinWorkspace.Apfs.Tree
import ThinWorkspace.Lib.Checked
import ThinWorkspace.Lib.Trace

namespace ThinWorkspace
namespace Space

open ThinWorkspace.Core Lib Ports
open Linux (Errno)
open Btrfs (DirEntry ReadDirFailure u64Max)
open Apfs (RawFileKind RawNodeMetadata)

/-- `MAX_SCAN_DEPTH`: a tree that is deeper than this is reported as unknown. -/
def maxScanDepth : ℕ := 256

/-- `MAX_SCAN_ENTRIES`: a tree with more entries is reported as unknown. -/
def maxScanEntries : ℕ := 200000

/-- `MAX_SCAN_DURATION`, five seconds in nanoseconds, after which the measurement is given up. -/
def maxScanDuration : ℕ := 5000000000

/-! ### What a `stat` tells

A `stat` has signed sizes; what becomes of a negative one is where the platforms differ. -/

/-- `stat`, as far as the scan reads it; sizes and block counts are signed there. -/
structure Stat where
  device : UInt64
  inode : UInt64
  mode : UInt32
  size : Int64
  blocks : Int64
  mtimeSeconds : ℤ
  mtimeNanoseconds : ℤ
deriving DecidableEq

/-- `S_IFMT`, the bits of a mode that are its type. -/
def sIfmt : UInt32 := 61440

/-- `S_IFDIR`, the type of a directory, as a `stat` encodes it. -/
def sIfdir : UInt32 := 16384

/-- `S_IFREG`, the type of a regular file, as a `stat` encodes it. -/
def sIfreg : UInt32 := 32768

/-- `S_IFLNK`, the type of a symbolic link, as a `stat` encodes it. -/
def sIflnk : UInt32 := 40960

/-- `st_mode & S_IFMT`, the type of a file without its permissions. -/
def Stat.fileType (stat : Stat) : UInt32 := stat.mode &&& sIfmt

/-! ### Calls

The calls of a scan and its totals.  The sums are checked, an inode's blocks are added once,
and any failure makes the result unknown. -/

variable {H ε α : Type}

/-- One system call, or a look at the clock. -/
inductive SpaceCall (H : Type) where
  | elapsed
  | fstat (fd : H)
  | statAt (directory : H) (name : FileName)
  | mountId (fd : H)
  | mountIdAt (directory : H) (name : FileName)
  | openDirectory (directory : H) (name : FileName)
  | readDirectory (directory : H)

/-- What a call returns; a time is in nanoseconds. -/
@[reducible] def SpaceCall.Result : SpaceCall H → Type
  | .elapsed => ℕ
  | .fstat _ => Except Errno Stat
  | .statAt _ _ => Except Errno Stat
  | .mountId _ => Except Errno (Option UInt64)
  | .mountIdAt _ _ => Except Errno (Option UInt64)
  | .openDirectory _ _ => Except Errno H
  | .readDirectory _ => Except ReadDirFailure (List DirEntry)

/-- A measurement, or a part of one: the handles and the failures are parameters, since the
platforms differ in them. -/
abbrev Measuring (H ε α : Type) := Program (SpaceCall H) SpaceCall.Result ε α

/-- Makes a call and returns its result, whatever that is. -/
abbrev call (c : SpaceCall H) : Measuring H ε c.Result := Program.perform c

/-- `error` unless `p` holds; it makes no call. -/
def require (p : Prop) [Decidable p] (error : ε) : Measuring H ε Unit :=
  if p then pure () else throw error

/-- A value that may be missing, or the error that stands for it. -/
def orMissing (error : ε) : Option α → Measuring H ε α
  | some a => pure a
  | none => throw error

/-- The names that an enumeration yields, without `.` and `..`. -/
def readNames (f : ReadDirFailure → ε) (directory : H) : Measuring H ε (List FileName) := do
  let entries ← Program.orFail f (call (.readDirectory directory))
  pure (entries.filterMap DirEntry.name?)

/-- `Totals`, without the time of the start: the two sums, the entries counted so far, and the
inodes whose blocks are counted already. -/
structure Totals where
  logical : ℕ
  allocated : ℕ
  entries : ℕ
  seenInodes : Finset (UInt64 × UInt64)
deriving DecidableEq

/-- The totals of a measurement that begins: nothing counted and no inode seen. -/
def Totals.start : Totals := ⟨0, 0, 0, ∅⟩

/-- `limits_exceeded` and `scan_limit_exceeded`, which compare the same three numbers. -/
def limitsExceeded (depth entries elapsed : ℕ) : Bool :=
  decide (maxScanDepth < depth) || decide (maxScanEntries < entries) ||
    decide (maxScanDuration < elapsed)

/-- The check of the limits, which asks for the time first. -/
def requireLimits (error : ε) (depth : ℕ) (totals : Totals) : Measuring H ε Unit := do
  let elapsed ← call .elapsed
  require (limitsExceeded depth totals.entries elapsed = false) error

/-- `totals.entries.checked_add(1)`, which cannot overflow within the limits. -/
def countEntry (totals : Totals) : Option Totals :=
  (addWithin u64Max totals.entries 1).map fun entries => { totals with entries := entries }

/-- `totals.logical.checked_add`: the scan fails where the sum is no `u64`. -/
def addLogical (bytes : ℕ) (totals : Totals) : Option Totals :=
  (addWithin u64Max totals.logical bytes).map fun logical =>
    { totals with logical := logical }

/-- The end of `add_allocated`: an inode is added once. -/
def addInode (inode : UInt64 × UInt64) (bytes : ℕ) (totals : Totals) : Option Totals :=
  if inode ∈ totals.seenInodes then some totals
  else (addWithin u64Max totals.allocated bytes).map fun allocated =>
    { totals with allocated := allocated, seenInodes := insert inode totals.seenInodes }

/-- What `measure_root` makes of the scan: any failure is an unknown size, never a partial one. -/
def spaceOf : Except ε Totals → WorkspaceSpace
  | .ok totals => .complete (UInt64.ofNat totals.logical) (UInt64.ofNat totals.allocated)
  | .error _ => .unknown

/-! ### Linux

The scan of Linux, which fails without a reason and compares the mount of every entry. -/

namespace OnLinux

/-- A scan on Linux, or a part of one; `None` is the failure. -/
abbrev Scan (H α : Type) := Measuring H Unit α

/-- A call and `.ok()?`, which forgets why it failed. -/
abbrev ok {β : Type} (x : Scan H (Except β α)) : Scan H α := Program.orFail (fun _ => ()) x

/-- `u64::try_from` of a signed value, which refuses a negative one. -/
def tryFrom (value : Int64) : Option ℕ :=
  if 0 ≤ value.toInt then some value.toInt.toNat else none

/-- `u64::try_from(stat.st_blocks).ok()?.checked_mul(512)?`: a negative number of blocks and an
overflow have no result. -/
def blockBytes (stat : Stat) : Option ℕ :=
  (tryFrom stat.blocks).bind fun blocks =>
    if blocks * 512 ≤ u64Max then some (blocks * 512) else none

/-- `add_allocated`: the blocks of an inode are added the first time it is met. -/
def addAllocated (stat : Stat) (totals : Totals) : Option Totals :=
  (blockBytes stat).bind fun blocks => addInode (stat.device, stat.inode) blocks totals

/-- `same_identity`: the device, the inode and the type. -/
def sameIdentity (left right : Stat) : Bool :=
  left.device == right.device && left.inode == right.inode && left.fileType == right.fileType

/-- `mount_id` of a held directory, required to be there. -/
def mountId (directory : H) : Scan H UInt64 := do
  let observed ← ok (call (.mountId directory))
  orMissing () observed

/-- `mount_id` of an entry, required to be there. -/
def mountIdAt (directory : H) (name : FileName) : Scan H UInt64 := do
  let observed ← ok (call (.mountIdAt directory name))
  orMissing () observed

/-- The `match` of `scan_directory` on the type of an entry: `scanChild` is the recursive
call. -/
def scanNode (scanChild : H → Stat → Totals → Scan H Totals) (directory : H) (name : FileName)
    (before : Stat) (totals : Totals) : Scan H Totals :=
  if before.fileType = sIfdir then do
    let child ← ok (call (.openDirectory directory name))
    scanChild child before totals
  else if before.fileType = sIfreg ∨ before.fileType = sIflnk then
    orMissing () ((tryFrom before.size).bind fun size =>
      (addLogical size totals).bind (addAllocated before))
  else throw ()

/-- One turn of the loop of `scan_directory`: the entry is counted, is on the device and the mount
of its directory, and is the same before and after it is measured. -/
def scanEntry (scanChild : H → Stat → Totals → Scan H Totals) (directory : H) (expected : Stat)
    (expectedMount : UInt64) (depth : ℕ) (totals : Totals) (name : FileName) : Scan H Totals := do
  let totals ← orMissing () (countEntry totals)
  requireLimits () depth totals
  let before ← ok (call (.statAt directory name))
  require (before.device = expected.device) ()
  let mount ← mountIdAt directory name
  require (mount = expectedMount) ()
  let totals ← scanNode scanChild directory name before totals
  let after ← ok (call (.statAt directory name))
  require (sameIdentity after before = true) ()
  let mount ← mountIdAt directory name
  require (mount = expectedMount) ()
  pure totals

/-- `scan_directory` of Linux: the limits, the mount and the identity are checked before the
directory is charged, and the identity again after its entries. -/
def scanDirectory (expectedMount : UInt64) : ℕ → H → Stat → Totals → Scan H Totals
  | 0, _, _, totals => do
    requireLimits () (maxScanDepth + 1) totals
    throw ()
  | levels + 1, directory, expected, totals => do
    requireLimits () (maxScanDepth - levels) totals
    let mount ← mountId directory
    require (mount = expectedMount) ()
    let before ← ok (call (.fstat directory))
    require (sameIdentity before expected = true ∧ before.fileType = sIfdir) ()
    let totals ← orMissing () (addAllocated expected totals)
    let names ← readNames (fun _ => ()) directory
    let totals ← names.foldlM
      (scanEntry (scanDirectory expectedMount levels) directory expected expectedMount
        (maxScanDepth - levels)) totals
    let after ← ok (call (.fstat directory))
    require (sameIdentity after expected = true) ()
    let mount ← mountId directory
    require (mount = expectedMount) ()
    pure totals

/-- The scan that `measure_root` makes of a root that has to be a directory. -/
def scanRoot (root : H) (expectedMount : UInt64) : Scan H Totals := do
  let stat ← ok (call (.fstat root))
  require (stat.fileType = sIfdir) ()
  scanDirectory expectedMount (maxScanDepth + 1) root stat .start

/-- `measure_root` of Linux: whatever the scan fails with, the size is then unknown. -/
def measureRoot (root : H) (expectedMount : UInt64) : Measuring H Empty WorkspaceSpace := do
  let result ← (scanRoot root expectedMount).attempt
  pure (spaceOf result)

end OnLinux

/-! ### macOS

The scan of macOS, which fails with an error that the caller forgets, and compares devices
only. -/

namespace OnMacOs

/-- A scan on macOS, or a part of one. -/
abbrev Scan (H α : Type) := Measuring H Errno α

/-- `EOVERFLOW`, for a limit or a number that was exceeded. -/
def eoverflow : Errno := .other 84

/-- `ESTALE`, for a file that is no longer the one that was seen. -/
def estale : Errno := .other 70

/-- `EXDEV`, for an entry on another device than its directory. -/
def exdev : Errno := .other 18

/-- `ENOTSUP`, for an entry that is neither a directory nor a file nor a link. -/
def enotsup : Errno := .other 45

/-- `u64::try_from(value.max(0))`, which a signed value never fails. -/
def clamp (value : Int64) : ℕ := value.toInt.toNat

/-- The kind that `raw_node_metadata` finds in a mode. -/
def rawFileKind (stat : Stat) : RawFileKind :=
  if stat.fileType = sIfdir then .directory
  else if stat.fileType = sIfreg then .regularFile
  else if stat.fileType = sIflnk then .symbolicLink
  else if stat.fileType = 4096 then .fifo
  else if stat.fileType = 49152 then .socket
  else if stat.fileType = 8192 then .characterDevice
  else if stat.fileType = 24576 then .blockDevice
  else .unknown

/-- `raw_node_metadata`, which cuts a negative size and a negative block count off at zero. -/
def rawNodeMetadata (stat : Stat) : RawNodeMetadata where
  device := stat.device
  inode := stat.inode
  kind := rawFileKind stat
  mode := stat.mode &&& 4095
  size := UInt64.ofNat (clamp stat.size)
  allocatedBytes := UInt64.ofNat (min (clamp stat.blocks * 512) u64Max)
  modifiedSeconds := stat.mtimeSeconds
  modifiedNanoseconds := stat.mtimeNanoseconds

/-- `node_metadata`: the metadata of a held file, by its handle. -/
def nodeMetadata (fd : H) : Scan H RawNodeMetadata := do
  let stat ← Program.orFail id (call (.fstat fd))
  pure (rawNodeMetadata stat)

/-- `node_metadata_at`: the metadata of an entry, without following a link. -/
def nodeMetadataAt (directory : H) (name : FileName) : Scan H RawNodeMetadata := do
  let stat ← Program.orFail id (call (.statAt directory name))
  pure (rawNodeMetadata stat)

/-- The error of an enumeration, wherever it failed. -/
def readError : ReadDirFailure → Errno
  | .enumerate error => error
  | .entry error => error

/-- `read_directory_bounded`: a directory with more names than the limit is refused. -/
def readDirectoryBounded (directory : H) (maxEntries : ℕ) : Scan H (List FileName) := do
  let names ← readNames readError directory
  require (names.length ≤ maxEntries) eoverflow
  pure names

/-- `same_identity` of macOS, on the kinds instead of the type bits. -/
def sameIdentity (left right : RawNodeMetadata) : Bool :=
  left.device == right.device && left.inode == right.inode && left.kind == right.kind

/-- `add_allocated` of macOS, which refuses the value that stands for an overflow. -/
def addAllocated (entry : RawNodeMetadata) (totals : Totals) : Option Totals :=
  if entry.allocatedBytes.toNat = u64Max then none
  else addInode (entry.device, entry.inode) entry.allocatedBytes.toNat totals

/-- The `match` of `scan_directory` on the kind of an entry: `scanChild` is the recursive
call. -/
def scanNode (scanChild : H → RawNodeMetadata → Totals → Scan H Totals) (directory : H)
    (name : FileName) (entry : RawNodeMetadata) (totals : Totals) : Scan H Totals :=
  match entry.kind with
  | .directory => do
    let child ← Program.orFail id (call (.openDirectory directory name))
    scanChild child entry totals
  | .regularFile | .symbolicLink =>
    if entry.size.toNat = u64Max then throw eoverflow
    else orMissing eoverflow ((addLogical entry.size.toNat totals).bind (addAllocated entry))
  | _ => throw enotsup

/-- One turn of the loop of `scan_directory`: the entry is counted, is on the device of its
directory, and is the same before and after it is measured. -/
def scanEntry (scanChild : H → RawNodeMetadata → Totals → Scan H Totals) (directory : H)
    (expected : RawNodeMetadata) (depth : ℕ) (totals : Totals) (name : FileName) :
    Scan H Totals := do
  let totals ← orMissing eoverflow (countEntry totals)
  requireLimits eoverflow depth totals
  let entry ← nodeMetadataAt directory name
  require (entry.device = expected.device) exdev
  let totals ← scanNode scanChild directory name entry totals
  let after ← nodeMetadataAt directory name
  require (sameIdentity after entry = true) estale
  pure totals

/-- `scan_directory` of macOS, by recursion on the levels that are left; it compares no mounts. -/
def scanDirectory : ℕ → H → RawNodeMetadata → Totals → Scan H Totals
  | 0, _, _, totals => do
    requireLimits eoverflow (maxScanDepth + 1) totals
    throw eoverflow
  | levels + 1, directory, expected, totals => do
    requireLimits eoverflow (maxScanDepth - levels) totals
    let before ← nodeMetadata directory
    require (before.kind = .directory ∧ sameIdentity before expected = true) estale
    let totals ← orMissing eoverflow (addAllocated expected totals)
    let names ← readDirectoryBounded directory maxScanEntries
    let totals ← names.foldlM
      (scanEntry (scanDirectory levels) directory expected (maxScanDepth - levels)) totals
    let after ← nodeMetadata directory
    require (sameIdentity after expected = true) estale
    pure totals

/-- The scan that `measure_root` makes, whose errors are forgotten. -/
def scanRoot (root : H) : Measuring H Unit Totals := do
  let metadata ← (nodeMetadata root).mapError fun _ => ()
  require (metadata.kind = .directory) ()
  (scanDirectory (maxScanDepth + 1) root metadata .start).mapError fun _ => ()

/-- `measure_root` of macOS: a failure of whatever kind is reported as unknown. -/
def measureRoot (root : H) : Measuring H Empty WorkspaceSpace := do
  let result ← (scanRoot root).attempt
  pure (spaceOf result)

end OnMacOs
end Space
end ThinWorkspace
