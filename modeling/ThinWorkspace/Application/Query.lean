/-
# The path and status queries

Source: `crates/thinws-application/src/query.rs`, and `inspect_existing` and
`inspect_current` of `lib.rs`.  A query takes no lock: it reads a snapshot of the
metadata, looks at the workspace, and reads a snapshot again.

The path is handed out only if both snapshots show the same record as Ready.  What other
processes may do in between, and what is true of the answer all the same, is the subject of
`Interleaving`.
-/

import ThinWorkspace.Application.Create

namespace ThinWorkspace
namespace Application

open ThinWorkspace.Core Lib Ports

/-! ### Results

A workspace that is not Ready has no path and no figures, so both are optional in a status.
-/

/-- `WorkspaceQuery`: the record of a workspace with the summary of how it was materialized. -/
structure WorkspaceQuery where
  record : WorkspaceRecord
  materialization : Option FinalMaterializationSummary
deriving DecidableEq

/-- `WorkspaceStatus`: the record, with what was found of its repositories and its space if the
workspace is Ready. -/
structure WorkspaceStatus where
  workspace : WorkspaceQuery
  git : Option GitInspection
  space : Option WorkspaceSpace
deriving DecidableEq

/-! ### Reading the metadata

The metadata is read without a lock: the layout and the marker are checked before and after
the snapshot. -/

/-- The epoch is not before itself, as the bounds of a time demand. -/
theorem epoch_nonneg : (0 : ℤ) ≤ 0 := Int.le_refl 0

/-- The epoch is representable, as the bounds of a time demand. -/
theorem epoch_le_i64Max : (0 : ℤ) ≤ i64Max := by decide

/-- `UnixMillis::new(0)`, the placeholder of `inspect_current`: reading the metadata ignores the
time it is given. -/
def epoch : UnixMillis := ⟨0, epoch_nonneg, epoch_le_i64Max⟩

/-- `inspect_existing`: layout, marker and metadata of the identity given, with layout and marker
checked again behind the metadata. -/
def inspectExisting (identity : InstallationIdentity) (placeholderTime : UnixMillis) :
    UseCase MetadataSnapshot := do
  port .control (call (.validateLayout identity))
  requireReadyMarker identity
  let snapshot ← port .metadata (call (.inspectMetadata ⟨identity, placeholderTime⟩))
  port .control (call .layoutRevalidate)
  requireReadyMarker identity
  pure snapshot

/-- `inspect_current`: the same, for the identity that the config names. -/
def inspectCurrent : UseCase MetadataSnapshot := do
  let identity ← readIdentity
  inspectExisting identity epoch

/-- `query_from_snapshot`: a record that is Ready without a receipt is an error of the metadata. -/
def queryFromSnapshot (record : WorkspaceRecord) (snapshot : MetadataSnapshot) :
    Except UseCaseError WorkspaceQuery :=
  let materialization := snapshot.finalMaterialization record.reservation.workspaceId
  if record.state = .ready ∧ materialization.isNone then
    .error (semanticError .metadata "Ready Workspace has no final receipt")
  else .ok ⟨record, materialization⟩

/-- `find_workspace`: the record of a name, with its receipt, out of one snapshot. -/
def findWorkspace (snapshot : MetadataSnapshot) (name : WorkspaceName) :
    Except UseCaseError WorkspaceQuery :=
  match findByName name snapshot.workspaces with
  | some record => queryFromSnapshot record snapshot
  | none => .error (semanticError .workspaceNotFound "Workspace not found")

/-- `parse_name`: a text that is no name is an error of the user. -/
def parseName (name : String) : Except UseCaseError WorkspaceName :=
  (WorkspaceName.tryFrom name).mapError fun _ => semanticError .usage "invalid Workspace name"

/-! ### The queries

Each query reads the record, does its work, and reads the record again.  What was found is
reported only if the record is the same at the end; the parts are cut where a record is
read. -/

/-- The part of `inspect_workspace` that validates the path of a Ready record. -/
def verifyPath (workspace : WorkspaceQuery) : UseCase AbsolutePath := do
  let identity ← readIdentity
  port .control (call (.validateLayout identity))
  requireReadyMarker identity
  let path ← port .layout (call (.validateReadyWorkspace workspace.record.reservation))
  unlessFail (path = workspace.record.reservation.targetPath)
    (semanticError .targetLayout "Ready Workspace path does not match metadata")
  port .layout (call .layoutRevalidate)
  pure path

/-- `inspect_workspace` from the second snapshot on: a workspace that left Ready has no path, and
one that changed otherwise is refused. -/
def confirmWorkspace (name : WorkspaceName) (workspace : WorkspaceQuery) (path : AbsolutePath) :
    UseCase (WorkspaceQuery × Option AbsolutePath) := do
  let snapshot ← inspectCurrent
  let current ← check (findWorkspace snapshot name)
  if current.record.state ≠ .ready then pure (current, none)
  else do
    unlessFail (current = workspace)
      (semanticError .targetLayout "Ready Workspace changed during path verification")
    pure (current, some path)

/-- `inspect_workspace`: the record before and after its path is verified, which must be the same
for the path to be handed out. -/
def inspectWorkspace (name : WorkspaceName) : UseCase (WorkspaceQuery × Option AbsolutePath) := do
  let snapshot ← inspectCurrent
  let workspace ← check (findWorkspace snapshot name)
  if workspace.record.state ≠ .ready then pure (workspace, none)
  else do
    let path ← verifyPath workspace
    confirmWorkspace name workspace path

/-- `workspace_path`: the path of a workspace that is Ready, or the error that it is not. -/
def workspacePath (name : String) : UseCase AbsolutePath := do
  let name ← check (parseName name)
  let (workspace, path) ← inspectWorkspace name
  orMissing ((semanticError .workspaceNotReady "Workspace is not Ready").withWorkspaceId
    workspace.record.reservation.workspaceId) path

/-- `measure_workspace_space`: behind a layout and a marker that are valid at that moment. -/
def measureWorkspaceSpace (reservation : WorkspaceReservation) : UseCase WorkspaceSpace := do
  let identity ← readIdentity
  port .control (call (.validateLayout identity))
  requireReadyMarker identity
  port .layout (call (.measureReadyWorkspaceSpace reservation))

/-- `workspace_status` from the last inspection on: what was measured is reported only if the
record is still the same. -/
def statusAfterSpace (name : WorkspaceName) (current : WorkspaceQuery)
    (inspection : GitInspection) (space : WorkspaceSpace) : UseCase WorkspaceStatus := do
  let (afterSpace, afterSpacePath) ← inspectWorkspace name
  match afterSpacePath with
  | none => pure ⟨afterSpace, none, none⟩
  | some _ => do
    unlessFail (afterSpace = current)
      (semanticError .targetLayout "Ready Workspace changed during space scan")
    pure ⟨afterSpace, some inspection, some space⟩

/-- `workspace_status` from the Git inspection on: a workspace that left Ready is reported without
a path and without results. -/
def statusAfterGit (name : WorkspaceName) (workspace : WorkspaceQuery)
    (inspection : GitInspection) : UseCase WorkspaceStatus := do
  let (current, currentPath) ← inspectWorkspace name
  match currentPath with
  | none => pure ⟨current, none, none⟩
  | some _ => do
    unlessFail (current = workspace)
      (semanticError .targetLayout "Ready Workspace changed during Git inspection")
    let space ← measureWorkspaceSpace current.record.reservation
    statusAfterSpace name current inspection space

/-- `workspace_status`: three inspections, with the search for repositories and the measuring of
the space between them. -/
def workspaceStatus (name : String) : UseCase WorkspaceStatus := do
  let name ← check (parseName name)
  let (workspace, path) ← inspectWorkspace name
  match path with
  | none => pure ⟨workspace, none, none⟩
  | some path => do
    let inspection ← call (.gitInspect path)
    statusAfterGit name workspace inspection

end Application
end ThinWorkspace
