/-
# The removal of a workspace

Source: `remove_workspace`, `inspect_removal_container` and what they call in
`crates/thinws-adapter-linux/src/workspace.rs`.

A removal clears the staging and the trash directory, registers the path to which the target is
isolated, renames the target there, empties it and removes it.  The parts of the two long
functions are functions of their own here, in the order of the source.
-/

import ThinWorkspace.Lifecycle.Locate

namespace ThinWorkspace
namespace Lifecycle

open ThinWorkspace.Core Lib Ports
open Linux (OperationDirectoryOwnership WorkspaceOwnership decodeWorkspaceOwnership
  encodeWorkspaceOwnership documentError absolute)
/-! ### Programs

The functions of the removal, in the order of the source.  The longer ones are cut where the
world changes: registering the isolation, moving the target, removing it, and the last look.
-/

section Programs

variable (euid : UInt32) (toml : TomlLibrary)

/-- The `kind` of `remove_operation_directory`: which of the two directories beside the target is
removed. -/
inductive OperationKind where
  | staging | trash
deriving DecidableEq

/-- What the ownership says of an operation directory. -/
def OperationKind.evidence (ownership : WorkspaceOwnership) :
    OperationKind → OperationDirectoryOwnership
  | .staging => ownership.staging
  | .trash => ownership.trash

/-- `sync_target_parent`: the entries beside the target are made to last. -/
def syncTargetParent : Handling Unit :=
  callOr .syncParent fun _ => .new .io "sync Workspace target parent"

/-- `remove_root_contents`: it verifies the scope, before each entry and first of all. -/
def removeRootContents (directory : TargetDirectory) (expectedMount : UInt64)
    (verifyScope : Handling Unit) : Handling ℕ := do
  verifyScope
  callOr (.removeContents directory expectedMount) fun e => e

/-- The `verify_scope` of `remove_operation_directory`: the target and the directory are still
those that were found, and the directory is private. -/
def verifyOperationScope (registered : RegisteredTarget) (target directory : TargetDirectory) :
    Handling Unit := do
  verifySelectedTarget toml registered target
  directory.revalidate
  requireBtrfsMount directory registered.ownership.volumeId registered.ownership.mountId
  requirePrivateOperationDirectory euid directory

/-- The end of `remove_operation_directory`, with the directory open. -/
def removeOperation (registered : RegisteredTarget) (target directory : TargetDirectory)
    (evidence : OperationDirectoryOwnership) : Handling Unit := do
  ensure (directory.identity = evidence.identity)
    (.new .invalidLayout "registered Workspace operation directory identity changed")
  requireBtrfsMount directory registered.ownership.volumeId registered.ownership.mountId
  requirePrivateOperationDirectory euid directory
  let _ ← removeRootContents directory registered.ownership.mountId
    (verifyOperationScope euid toml registered target directory)
  verifyOperationScope euid toml registered target directory
  let name ← orMissing (.new .invalidLayout "operation directory has no name")
    (Prepared.fileName evidence.path.asBytes)
  callOr (.rmdir name) fun _ => .new .io "remove Workspace operation directory"
  syncTargetParent

/-- `remove_operation_directory`: a directory that is missing has been removed before. -/
def removeOperationDirectory (registered : RegisteredTarget) (target : TargetDirectory)
    (kind : OperationKind) : Handling Unit := do
  let evidence := kind.evidence registered.ownership
  match ← openOptionalTarget evidence.path.asBytes with
  | none => pure ()
  | some directory => removeOperation euid toml registered target directory evidence

/-- The stem of the document that `persist_workspace_ownership` stages. -/
def updateStem : String := "workspace-ownership-update"

/-- The part of `persist_workspace_ownership` before the exchange; a failure drops the staged
document. -/
def requireStill (desired current : WorkspaceOwnership) (temporary : DocumentName) :
    Handling Unit :=
  let check : Handling Unit := do
    let again ← readWorkspaceOwnership toml desired.workspaceId
    ensure (again = current)
      (.new .invalidLayout "Workspace ownership changed before publication")
  check.handle fun error => do
    callOr (.dropDocument temporary) fun e => nomatch e
    throw error

/-- The part of `persist_workspace_ownership` after the exchange: the new document is in place, the
old one under the staged name, and then the old one goes. -/
def confirmExchange (desired current : WorkspaceOwnership) (temporary : DocumentName) :
    Handling Unit := do
  let published ← readWorkspaceOwnership toml desired.workspaceId
  ensure (published = desired) (.new .invalidLayout "isolated ownership publication changed")
  let found ← callOr (.readDocument temporary) fun e => e
  let old ← orMissing (.new .invalidLayout "old ownership proof is missing") found
  let displaced ← liftExcept documentError (decodeWorkspaceOwnership toml old)
  ensure (displaced = current) (.new .invalidLayout "displaced ownership proof changed")
  callOr (.removeDocument temporary) fun _ => .new .io "remove displaced ownership proof"
  callOr .syncDocuments fun e => e

/-- The ownership without the path of an isolation. -/
def unisolated (ownership : WorkspaceOwnership) : WorkspaceOwnership :=
  { ownership with isolatedPath := none }

/-- `persist_workspace_ownership`: the registered ownership is the desired one already, or differs
from it in the isolated path alone. -/
def persistWorkspaceOwnership (desired : WorkspaceOwnership) : Handling Unit := do
  let current ← readWorkspaceOwnership toml desired.workspaceId
  if current = desired then pure ()
  else do
    ensure (current = unisolated desired)
      (.new .invalidLayout "Workspace ownership changed before isolation")
    let bytes ← liftExcept documentError (encodeWorkspaceOwnership toml desired)
    let temporary ← callOr (.stageDocument updateStem bytes) fun e => e
    requireStill toml desired current temporary
    callOr (.exchangeDocument temporary (.ownership desired.workspaceId)) fun e => e
    confirmExchange toml desired current temporary

/-- The part of `remove_workspace` that registers the path of the isolation. -/
def registerIsolation (registered : RegisteredTarget) : Handling RegisteredTarget :=
  if registered.ownership.isolatedPath = none then do
    let path ← liftExcept id (absolute registered.isolatedPath)
    let desired := { registered.ownership with isolatedPath := some path }
    persistWorkspaceOwnership toml desired
    pure { registered with ownership := desired }
  else pure registered

/-- The part of `remove_workspace` that moves the target to its isolated path. -/
def isolateTarget (registered : RegisteredTarget) (target : TargetDirectory) :
    Handling TargetDirectory := do
  verifySelectedTarget toml registered target
  let targetName ← orMissing (.new .invalidLayout "registered target has no name")
    (Prepared.fileName registered.targetPath)
  let isolatedName ← orMissing (.new .invalidLayout "isolation path has no name")
    (Prepared.fileName registered.isolatedPath)
  callOr (.renameNoreplace targetName isolatedName)
    fun _ => .new .io "isolate Workspace target without replacement"
  syncTargetParent
  let moved ← openTargetDirectory registered.isolatedPath
  ensure (moved.sameIdentityAndDevice target = true)
    (.new .invalidLayout "isolated Workspace target identity changed")
  pure moved

/-- The part of `remove_workspace` that isolates the target, where it is not yet isolated. -/
def isolateOnce (registered : RegisteredTarget) (target : TargetDirectory)
    (atIsolatedPath : Bool) : Handling (RegisteredTarget × TargetDirectory) :=
  if atIsolatedPath then pure (registered, target)
  else do
    let registered ← registerIsolation toml registered
    let moved ← isolateTarget toml registered target
    pure (registered, moved)

/-- `require_missing_child`: nothing has this name, in a parent that is the same before and after
the look. -/
def requireMissingChild (parent : TargetDirectory) (name : List UInt8) : Handling Unit := do
  parent.revalidate
  match ← call (.statat name) with
  | .error .noent => parent.revalidate
  | .error _ => throw (.new .io "inspect registered operation directory")
  | .ok _ => throw (.new .invalidLayout "operation directory remains beside Ready target")

/-- The part of `remove_workspace` that removes the isolated target. -/
def removeIsolated (registered : RegisteredTarget) (isolated : TargetDirectory) :
    Handling ℕ := do
  verifySelectedTarget toml registered isolated
  let rootEntries ← removeRootContents isolated registered.ownership.mountId
    (verifySelectedTarget toml registered isolated)
  verifySelectedTarget toml registered isolated
  let isolatedName ← orMissing (.new .invalidLayout "isolation path has no name")
    (Prepared.fileName registered.isolatedPath)
  callOr (.rmdir isolatedName) fun _ => .new .io "remove isolated Workspace root"
  syncTargetParent
  pure rootEntries

/-- The checks at the end of `remove_workspace`: neither the target nor any of its siblings is
left. -/
def confirmRemoved (registered : RegisteredTarget) (id : WorkspaceId) : Handling Unit := do
  callOr .dataRootLock fun e => e
  registered.parent.revalidate
  requireBtrfsMount registered.parent registered.ownership.volumeId registered.ownership.mountId
  let isolatedName ← orMissing (.new .invalidLayout "isolation path has no name")
    (Prepared.fileName registered.isolatedPath)
  requireMissingChild registered.parent isolatedName
  let targetName ← orMissing (.new .invalidLayout "registered target has no name")
    (Prepared.fileName registered.targetPath)
  requireMissingChild registered.parent targetName
  let current ← readWorkspaceOwnership toml id
  ensure (current = registered.ownership)
    (.new .invalidLayout "Workspace ownership proof changed after deletion")
  callOr .layout fun e => e

/-- `remove_workspace`: the operation directories go first, then the target is isolated and
removed; a target that is missing is an error. -/
def removeWorkspace (layout : Layout) (reservation : WorkspaceReservation) :
    Handling WorkspaceRemoval := do
  callOr .dataRootLock fun e => e
  callOr .layout fun e => e
  let registered ← registeredTarget toml layout reservation
  let located ← locateTarget registered
  let target ← orMissing (.new .notFound "registered Workspace target is missing") located
  removeOperationDirectory euid toml registered target.1 .staging
  removeOperationDirectory euid toml registered target.1 .trash
  let isolated ← isolateOnce toml registered target.1 target.2
  let rootEntries ← removeIsolated toml isolated.1 isolated.2
  confirmRemoved toml isolated.1 reservation.workspaceId
  pure (.removed rootEntries)

/-- `inspect_removal_container`: where the target lies now, under either of its two paths; nothing
is changed. -/
def inspectRemovalContainer (layout : Layout) (reservation : WorkspaceReservation) :
    Handling (Option AbsolutePath) := do
  callOr .dataRootLock fun e => e
  callOr .layout fun e => e
  let registered ← registeredTarget toml layout reservation
  let located ← locateTarget registered
  registered.parent.revalidate
  let current ← readWorkspaceOwnership toml reservation.workspaceId
  ensure (current = registered.ownership)
    (.new .invalidLayout "Workspace ownership proof changed during removal lookup")
  match located with
  | none => do
    callOr .layout fun e => e
    callOr .dataRootLock fun e => e
    pure none
  | some (directory, _) => do
    directory.revalidate
    requireBtrfsMount directory registered.ownership.volumeId registered.ownership.mountId
    callOr .layout fun e => e
    callOr .dataRootLock fun e => e
    let path ← liftExcept id (absolute directory.path)
    pure (some path)

end Programs

end Lifecycle
end ThinWorkspace
