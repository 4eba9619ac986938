/-
# What the parts of an attempt may call

Source: `crates/thinws-adapter-linux/src/tree.rs` and `materializer.rs`.  A quiet call
neither renames an object nor sets the mode or the times of one; every part of an
attempt but the publication of an entry, the preservation of its metadata and the moves
of the rollback makes quiet calls only.
-/

import ThinWorkspace.Btrfs.Rollback
import ThinWorkspace.Lib.Trace

namespace ThinWorkspace
namespace Btrfs

open ThinWorkspace.Core Lib Ports
open Program (Only only_pure only_throw only_perform only_ofExcept)

/-- A rename.  By renames entries are published in the target and moved to the trash. -/
def FsCall.Renames : FsCall → Prop
  | .renameNoReplace _ _ _ _ => True
  | _ => False

/-- A change of the mode or the times of an object. -/
def FsCall.Sets : FsCall → Prop
  | .futimens _ _ | .fchmod _ _ => True
  | _ => False

/-- Neither of them.  A quiet call may still write, but only to what is not published yet. -/
def FsCall.Quiet (c : FsCall) : Prop := ¬c.Renames ∧ ¬c.Sets

/-- A call that changes no object: it opens, looks or lists. -/
def FsCall.Reads : FsCall → Prop
  | .writeAll _ _ | .flush _ | .ficlone _ _ | .mkdir _ _ _ | .create _ _ _ | .symlink _ _ _
  | .renameNoReplace _ _ _ _ | .unlink _ _ _ | .futimens _ _ | .fchmod _ _ => False
  | _ => True

/-- What changes nothing is quiet, so a part that reads is a part that is quiet. -/
theorem FsCall.Reads.quiet {c : FsCall} (h : c.Reads) : c.Quiet := by
  cases c
  all_goals first
    | exact ⟨id, id⟩
    | exact h.elim

variable {ε α : Type} {P : FsCall → Prop}

/-- A system call of `tree.rs` makes the calls of the program it wraps; only its failure has
another type. -/
theorem only_sys {operation : String} {x : Fs (Except Linux.Errno α)} (h : Only P x) :
    Only P (sys operation x) := h.orFail

/-- A check takes no call, so it is of every kind. -/
theorem only_require {p : Prop} [Decidable p] {failure : TreeFailure} :
    Only P (require p failure) := by
  unfold require
  split <;> trivial

/-- A value that must be there takes no call. -/
theorem only_orMissing {failure : TreeFailure} {a : Option α} : Only P (orMissing failure a) := by
  cases a <;> trivial

/-- The context of a failure is added behind the calls. -/
theorem only_within {context : ExecutionContext} {x : Fs α} (h : Only P x) :
    Only P (within context x) := h.mapError

/-! ### Reading

The functions of `tree.rs` that look at a tree.  Each is a program of reading calls, and the
recursive ones are inductions on the frames that are left. -/

/-- `node` is one `fstat`, which changes nothing. -/
theorem reads_node {fd : Fd} : Only FsCall.Reads (node fd) := only_sys (only_perform trivial)

/-- `node_at` is one `statat`, which does not follow a link. -/
theorem reads_nodeAt {parent : Fd} {name : FileName} : Only FsCall.Reads (nodeAt parent name) :=
  only_sys (only_perform trivial)

/-- `mount_id` is one `statx` of a handle, which changes nothing. -/
theorem reads_mountId {fd : Fd} : Only FsCall.Reads (mountId fd) :=
  (only_sys (only_perform trivial)).bind fun _ => only_orMissing

/-- `directory_names` lists a directory and sorts what it got. -/
theorem reads_directoryNames {directory : Fd} : Only FsCall.Reads (directoryNames directory) :=
  Only.bind (Only.orFail (only_perform trivial)) fun _ => trivial

/-- `open_directory` opens for reading only, so it creates nothing. -/
theorem reads_openDirectory {parent : Fd} {name : FileName} :
    Only FsCall.Reads (openDirectory parent name) := only_sys (only_perform trivial)

/-- The directories on the way to a bound path are opened one below the other, by induction on the
names. -/
theorem reads_openSteps (names : TreePath) (current : Fd)
    (ancestry : List DirectoryIdentityEvidence) :
    Only FsCall.Reads (openSteps current names ancestry) := by
  induction names generalizing current ancestry with
  | nil => trivial
  | cons name names ih =>
    exact reads_openDirectory.bind fun _ => reads_node.bind fun _ => only_require.bind fun _ =>
      ih _ _

/-- `open_bound_directory` compares the directories on the way with those of the report. -/
theorem reads_openBoundDirectory {path : AbsolutePath} {report : PathCapabilityReport} :
    Only FsCall.Reads (openBoundDirectory path report) :=
  only_require.bind fun _ => (only_sys (only_perform trivial)).bind fun _ =>
    reads_node.bind fun _ => only_require.bind fun _ => (reads_openSteps _ _ _).bind fun ⟨_, _⟩ =>
      only_require.bind fun _ => reads_mountId.bind fun _ => only_orMissing.bind fun _ =>
        only_require.bind fun _ => (only_sys (only_perform trivial)).bind fun _ =>
          only_require.bind fun _ => Only.bind (Only.orFail (only_perform trivial)) fun _ =>
            only_require.bind fun _ => trivial

/-- `revalidate_directory` opens the path again and compares what it finds with the handle. -/
theorem reads_revalidateDirectory {path : AbsolutePath} {report : PathCapabilityReport}
    {held : Fd} : Only FsCall.Reads (revalidateDirectory path report held) :=
  reads_openBoundDirectory.bind fun _ => reads_node.bind fun _ => reads_node.bind fun _ =>
    only_require

/-- `BoundPaths::revalidate` opens all four paths again, and changes nothing. -/
theorem reads_revalidate {paths : BoundPaths} {request : MaterializeRequest} :
    Only FsCall.Reads (paths.revalidate request) :=
  reads_revalidateDirectory.bind fun _ => reads_revalidateDirectory.bind fun _ =>
    reads_revalidateDirectory.bind fun _ => reads_revalidateDirectory

/-- `ensure_empty` lists a directory, and changes nothing. -/
theorem reads_ensureEmpty {directory : Fd} : Only FsCall.Reads (ensureEmpty directory) :=
  reads_directoryNames.bind fun _ => only_require

end Btrfs
end ThinWorkspace
