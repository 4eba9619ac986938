/-
# Path checks of the create use case

Source: `crates/thinws-application/src/create.rs`, the functions from
`active_workspace_protected_paths` on that only compute.  Paths are compared by
their bytes, and by the identities of the directories a probe found on the way.

The three siblings of a target are named after its workspace, so that two workspaces in one
directory never share one; what the comparison means is shown in `Siblings`.
-/

import ThinWorkspace.Application.Error

namespace ThinWorkspace
namespace Application

open ThinWorkspace.Core Ports

/-! ### Derived paths

The siblings of a target carry the identifier of the workspace in their names.  The source
forms them as bytes and validates the result, and a path at the root has no such siblings.
-/

/-- `bytes.iter().rposition(|byte| *byte == b'/')`: the position of the last separator. -/
def lastSlash (bytes : List UInt8) : Option ℕ :=
  (bytes.reverse.findIdx? (· == slash)).map fun i => bytes.length - 1 - i

/-- `target_parent`: the path up to its last separator, of which a validated path has one. -/
def targetParent (target : AbsolutePath) : Except UseCaseError AbsolutePath :=
  let bytes := target.asBytes
  if bytes = [slash] then
    .error (semanticError .targetLayout "filesystem root cannot be a Workspace target")
  else
    let index := (lastSlash bytes).getD 0
    let parent := if index = 0 then [slash] else bytes.take index
    (AbsolutePath.tryFromBytes parent).mapError fun _ =>
      semanticError .targetLayout "invalid Workspace target parent"

/-- `derived_path`: a path with further components, each behind a separator; the result is
validated like any path. -/
def derivedPath (root : AbsolutePath) (components : List (List UInt8)) :
    Except UseCaseError AbsolutePath :=
  let bytes := components.foldl
    (fun bytes component => (if bytes = [slash] then bytes else bytes ++ [slash]) ++ component)
    root.asBytes
  (AbsolutePath.tryFromBytes bytes).mapError fun _ =>
    semanticError .targetLayout "invalid derived Workspace path"

/-- `format!(".thinws-staging-{workspace_id}")`: the sibling in which entries are prepared. -/
def stagingName (id : WorkspaceId) : List UInt8 := asBytes (".thinws-staging-" ++ id.toText)

/-- `format!(".thinws-trash-{workspace_id}")`: the sibling into which a rollback moves what it
takes back. -/
def trashName (id : WorkspaceId) : List UInt8 := asBytes (".thinws-trash-" ++ id.toText)

/-- `format!(".thinws-remove-{workspace_id}")`: the sibling that a workspace becomes before it is
removed. -/
def isolatedName (id : WorkspaceId) : List UInt8 := asBytes (".thinws-remove-" ++ id.toText)

/-- `provisional_materialization_paths`: source and target, with the two siblings that the attempt
will use. -/
def provisionalMaterializationPaths (source target parent : AbsolutePath) (id : WorkspaceId) :
    Except UseCaseError MaterializationPathProbeRequest := do
  let staging ← derivedPath parent [stagingName id]
  let trash ← derivedPath parent [trashName id]
  pure ⟨source, target, staging, trash⟩

/-- `active_workspace_protected_paths`: the target and the three siblings that a
cleanup may remove. -/
def activeWorkspaceProtectedPaths (reservation : WorkspaceReservation) :
    Except UseCaseError (List AbsolutePath) := do
  let parent ← targetParent reservation.targetPath
  let operation ← provisionalMaterializationPaths reservation.sourcePath reservation.targetPath
    parent reservation.workspaceId
  let isolated ← derivedPath parent [isolatedName reservation.workspaceId]
  pure [reservation.targetPath, operation.staging, operation.trash, isolated]

/-! ### Overlap

Two paths overlap when one is the other or lies below it, compared as bytes up to a
separator.  `requested_paths_overlap` compares the three paths of a request, and the check
against active rows compares the target with four paths of each. -/

/-- `contains` of `paths_overlap`: the child is the parent, or begins with it and a separator. -/
def pathContains (parent child : List UInt8) : Bool :=
  parent == [slash] || child == parent ||
    (parent.isPrefixOf child && child[parent.length]? == some slash)

/-- `paths_overlap`: one of the two paths contains the other, by their bytes alone. -/
def pathsOverlap (left right : AbsolutePath) : Bool :=
  pathContains left.asBytes right.asBytes || pathContains right.asBytes left.asBytes

/-- `requested_paths_overlap`: any two of source, target and control root overlap. -/
def requestedPathsOverlap (source target control : AbsolutePath) : Bool :=
  pathsOverlap source control || pathsOverlap target control || pathsOverlap source target

/-- `require_no_active_workspace_path_overlap`: the target is apart from every protected path of
every active workspace. -/
def requireNoActiveWorkspacePathOverlap (target : AbsolutePath) :
    List WorkspaceRecord → Except UseCaseError Unit
  | [] => .ok ()
  | record :: active => do
    let paths ← activeWorkspaceProtectedPaths record.reservation
    if paths.any fun path => pathsOverlap path target then
      throw (semanticError .targetConflict "Workspace target overlaps an active Workspace path")
    requireNoActiveWorkspacePathOverlap target active

/-! ### Identity

Names do not show that two paths lead to one directory.  The probe reports the identities of
the directories on the way, and these comparisons use them. -/

/-- The identity of the last directory of a report's ancestry. -/
def leafIdentity (report : PathCapabilityReport) : FileIdentity :=
  (report.ancestry.getLast report.ancestry_ne_nil).identity

/-- `target_enters_existing_root`: a directory on the way to the target is the other root, whatever
the two paths are called. -/
def targetEntersExistingRoot (target existing : PathCapabilityReport) : Bool :=
  target.ancestry.any fun entry => entry.identity == leafIdentity existing

/-- `paths_overlap_with_identity`: the paths overlap, or one of them leads through the directory of
the other. -/
def pathsOverlapWithIdentity (source controlled : PathCapabilityReport) : Bool :=
  pathsOverlap source.requestedPath controlled.requestedPath ||
    controlled.ancestry.any (fun entry => entry.identity == leafIdentity source) ||
    source.ancestry.any fun entry => entry.identity == leafIdentity controlled

/-- `materialization_overlaps_control`: the source overlaps the control root, or the target lies in
it. -/
def materializationOverlapsControl (source target control : PathCapabilityReport) : Bool :=
  pathsOverlapWithIdentity source control || targetEntersExistingRoot target control

/-! ### Requirements on reports

What a probe must have found for a request to go on, and the choice between the clone and
the copy. -/

/-- `require_existing_source`: a directory that can be read and searched; an unknown answer is not
taken for a yes. -/
def requireExistingSource (source : PathCapabilityReport) : Except UseCaseError Unit :=
  if source.resolution ≠ .existingDirectory then
    .error (semanticError .filesystem "source directory does not exist")
  else match source.readability with
    | .supported => .ok ()
    | .unsupported =>
      .error (semanticError .filesystem "source directory is not readable and searchable")
    | .unknown =>
      .error (semanticError .capabilityUnavailable
        "source directory access could not be determined")

/-- `require_missing_target`: nothing is there, and the one missing component lies in the expected
parent. -/
def requireMissingTarget (target : PathCapabilityReport) (expectedParent : AbsolutePath) :
    Except UseCaseError Unit :=
  if target.resolution = .existingDirectory then
    .error (semanticError .targetExists "Workspace target already exists")
  else if target.resolution ≠ .missingTarget ∨ target.nearestExistingAncestor ≠ expectedParent ∨
      target.missingComponents.length ≠ 1 then
    .error (semanticError .targetLayout "Workspace target parent must exist")
  else .ok ()

/-- `matches_reserved_volumes`: the volumes are those that the reservation was made with. -/
def matchesReservedVolumes (source target : VolumeId) (reservation : WorkspaceReservation) :
    Bool :=
  source == reservation.sourceVolumeId && target == reservation.targetVolumeId

/-- `select_plan`: a full copy where the clone is known to be unsupported and the request allows
it, otherwise a clone. -/
def selectPlan (report : MaterializationPathReport) (allowFullCopy : Bool) :
    Except UseCaseError MaterializationPlan :=
  let policy : FallbackPolicy :=
    if allowFullCopy then .allowFullCopyOnCowUnsupported else .deny
  if report.cowClone.state = .unsupported ∧ allowFullCopy then
    (MaterializationPlan.forFullCopyAfterPreflight report policy).mapError mapPlanError
  else (MaterializationPlan.forCowClone report policy).mapError mapPlanError

end Application
end ThinWorkspace
