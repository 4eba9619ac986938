/-
# Port errors and metadata summaries

Source: `crates/thinws-ports/src/error.rs` and `metadata.rs`.  A `PortError`
keeps what a caller can act on: the kind, the operation label, the conflict
category and the path role.  The boxed source error is diagnostic text only and
is left out.
-/

import ThinWorkspace.Core.Materialization

namespace ThinWorkspace
namespace Ports

open ThinWorkspace.Core

/-- `PortErrorKind`: what went wrong, as far as a caller can act on it. -/
inductive PortErrorKind where
  | notFound | conflict | invalidData | invalidLayout | unsupportedVersion
  | capabilityUnavailable | notEmpty | unavailable | timeout | io | storage
deriving DecidableEq

/-- `PortConflict`: which of the things that have to be unique, or as expected, is not. -/
inductive PortConflict where
  | installationIdentity | workspaceId | workspaceName | targetPath | expectedState
deriving DecidableEq

/-- `MaterializationPathRole`: which of the four paths of an attempt a failure is about. -/
inductive MaterializationPathRole where
  | source | targetRoot | staging | trash
deriving DecidableEq

/-- `PortError`: the kind, the label of the operation, and what a conflict or a path failure is
about. -/
structure PortError where
  kind : PortErrorKind
  operation : String
  conflictKind : Option PortConflict
  materializationPathRole : Option MaterializationPathRole
deriving DecidableEq

/-- `PortError::new`: an error that is neither a conflict nor about one of the four paths. -/
def PortError.new (kind : PortErrorKind) (operation : String) : PortError :=
  ⟨kind, operation, none, none⟩

/-- `PortError::conflict`: an error of that kind, with its category. -/
def PortError.conflict (operation : String) (conflict : PortConflict) : PortError :=
  ⟨.conflict, operation, some conflict, none⟩

/-- `FinalMaterializationSummary`: what is reported of a receipt once it is stored; the attempt
count is a `usize`. -/
structure FinalMaterializationSummary where
  requestedMode : MaterializationMode
  effectiveMode : MaterializationMode
  actualMode : MaterializationMode
  adapter : MaterializerKind
  cow : CowEvidence
  fallbackReason : Option FallbackReason
  failedAttemptCount : ℕ
deriving DecidableEq

/-- `FinalMaterializationSummary::new`, of the receipt's fields: the list of failed attempts is
reduced to its length. -/
def summaryOf (receipt : MaterializationReceipt) : FinalMaterializationSummary where
  requestedMode := receipt.requestedMode
  effectiveMode := receipt.effectiveMode
  actualMode := receipt.actualMode
  adapter := receipt.actualAdapter
  cow := receipt.cowEvidence
  fallbackReason := receipt.fallbackReason
  failedAttemptCount := receipt.failedAttempts.length

/-- `MetadataSnapshot`, without the installation row: the records and the summaries of one moment.
-/
structure MetadataSnapshot where
  workspaces : List WorkspaceRecord
  finalMaterializations : List (WorkspaceId × FinalMaterializationSummary)
deriving DecidableEq

/-- `MetadataSnapshot::final_materialization`: the summary of one workspace, which a snapshot holds
at most once. -/
def MetadataSnapshot.finalMaterialization (snapshot : MetadataSnapshot) (id : WorkspaceId) :
    Option FinalMaterializationSummary :=
  (snapshot.finalMaterializations.find? fun entry => entry.1 = id).map (·.2)

end Ports
end ThinWorkspace
