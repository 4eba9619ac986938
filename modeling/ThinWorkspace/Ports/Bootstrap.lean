/-
# What the bootstrap, probe, Git and process ports exchange

Source: `crates/thinws-ports/src/bootstrap.rs`, `git.rs`, `process.rs` and
`materialization.rs`.  `GitInspection` carries the relation between its aggregate
and the rest that `GitInspection::new`, its only constructor, establishes.

These are values only; what a port may answer is a matter of the calls in `Application/Calls`.
-/

import ThinWorkspace.Core.Removal
import ThinWorkspace.Ports.Metadata

namespace ThinWorkspace
namespace Ports

open ThinWorkspace.Core

/-! ### Control root

The marker of an installation is what the bootstrap reads first.  A marker that still says
`initializing` belongs to an installation that was not completed. -/

/-- `RootMarkerState`: whether the installation behind the marker is complete. -/
inductive RootMarkerState where
  | initializing | ready
deriving DecidableEq

/-- `RootMarker`: the identity of an installation, with the state of its publication. -/
structure RootMarker where
  identity : InstallationIdentity
  state : RootMarkerState
deriving DecidableEq

/-! ### Git inspection

An inspection carries the relation of its aggregate to its parts as a field, so no adapter
can report a clean copy with an unknown repository in it.
`GitInspection.settled_of_aggregate` is what the removal concludes from it. -/

/-- `GitInspectionIssue`; the details of a failed query are diagnostic only. -/
inductive GitInspectionIssue where
  | invalidCopyRoot | environmentUnsupported | invalidExecPath | scanFailed | scanLimitReached
  | depthLimitReached | repositoryLimitReached | unsafeRepositoryMetadata
  | externalRepositoryMetadata | unsupportedConfiguration | unsafeAttributes | hiddenIndexFlags
  | sparseCheckout | queryFailed | queryNonZeroExit (code signal : Option Int32)
  | invalidGitOutput | evidenceChanged | unsafeDescendant | budgetExpired
deriving DecidableEq

/-- `RepositoryInspection`: one repository of a copy, by its path, with what was found and why
nothing was. -/
structure RepositoryInspection where
  relativePath : List UInt8
  state : RepositoryState
  issues : List GitInspectionIssue
deriving DecidableEq

/-- The aggregate `GitInspection::new` computes: any issue of the inspection as a whole makes it
unknown. -/
def inspectionAggregate (discovery : DiscoveryCompleteness)
    (repositories : List RepositoryInspection) (issues : List GitInspectionIssue) : GitState :=
  if issues.isEmpty then aggregateGitState discovery (repositories.map (·.state)) else .unknown

/-- `GitInspection`: the last field is the relation between the aggregate and the rest, so an
inspection with another aggregate cannot be built. -/
structure GitInspection where
  discovery : DiscoveryCompleteness
  repositories : List RepositoryInspection
  aggregate : GitState
  issues : List GitInspectionIssue
  aggregate_eq : aggregate = inspectionAggregate discovery repositories issues
deriving DecidableEq

/-- `GitInspection::new`, the only constructor: it computes the aggregate and takes it from nobody.
-/
def GitInspection.new (discovery : DiscoveryCompleteness)
    (repositories : List RepositoryInspection) (issues : List GitInspectionIssue) :
    GitInspection :=
  ⟨discovery, repositories, inspectionAggregate discovery repositories issues, issues, rfl⟩

/-- Nothing in the inspection speaks against removing the copy. -/
def GitInspection.Settled (inspection : GitInspection) : Prop :=
  inspection.discovery = .complete ∧ inspection.issues = [] ∧
    ∀ repository ∈ inspection.repositories, repository.state = .clean

/-- An inspection that is neither unknown nor dirty is settled: it is complete, and every
repository in it is clean. -/
theorem GitInspection.settled_of_aggregate {inspection : GitInspection}
    (hunknown : inspection.aggregate ≠ .unknown) (hdirty : inspection.aggregate ≠ .dirty) :
    inspection.Settled := by
  rw [inspection.aggregate_eq, inspectionAggregate] at hunknown hdirty
  split at hunknown
  · rename_i hissues
    rw [if_pos hissues] at hdirty
    obtain ⟨hcomplete, hclean⟩ := aggregateGitState_settled hunknown hdirty
    refine ⟨hcomplete, List.isEmpty_iff.mp hissues, fun repository hr => ?_⟩
    exact hclean _ (List.mem_map_of_mem hr)
  · exact absurd rfl hunknown

/-! ### Removal

The values that the steps of a removal exchange and log.  They are records without
invariants of their own. -/

/-- `ProcessObservation`: what a scan found, and when. -/
structure ProcessObservation where
  observedAt : UnixMillis
  useState : ProcessUse
deriving DecidableEq

/-- `WorkspaceRemoval`: nothing was there, or so many entries were removed; the count is a `usize`.
-/
inductive WorkspaceRemoval where
  | alreadyAbsent
  | removed (rootEntries : ℕ)
deriving DecidableEq

/-- `WorkspaceSpace`: two sizes, or the admission that they are not known. -/
inductive WorkspaceSpace where
  | complete (logicalBytes allocatedBytesEstimate : UInt64)
  | unknown
deriving DecidableEq

/-- `RemovalLogEvent`: the four moments of a removal that are logged. -/
inductive RemovalLogEvent where
  | refused | started | completed | failed
deriving DecidableEq

/-- `RemovalLogRecord`: what was known of a removal at the moment of the event. -/
structure RemovalLogRecord where
  occurredAt : UnixMillis
  operationId : OperationId
  workspaceId : WorkspaceId
  event : RemovalLogEvent
  mode : RemovalMode
  gitState : GitState
  gitCheckComplete : Bool
  repositories : List RepositoryInspection
  processUse : Option ProcessUse
  protection : Option RemovalRefusal
  errorCode : Option ErrorCode
  outcome : Option WorkspaceRemoval
deriving DecidableEq

/-! ### Materialization

What is handed to a materializer and what comes back.  A failure carries its receipt, since
a failed attempt may have left objects behind. -/

/-- What `PreparedWorkspaceEvidence` exposes of a prepared workspace: its three directories, and
the identity of the target. -/
structure PreparedWorkspace where
  targetRoot : AbsolutePath
  stagingRoot : AbsolutePath
  trashRoot : AbsolutePath
  targetIdentity : FileIdentity
deriving DecidableEq

/-- `MaterializationPathProbeRequest`: the four paths that a probe looks at together. -/
structure MaterializationPathProbeRequest where
  source : AbsolutePath
  targetRoot : AbsolutePath
  staging : AbsolutePath
  trash : AbsolutePath
deriving DecidableEq

/-- `From<&MaterializeRequest> for MaterializationPathProbeRequest`: a probe of the very paths that
will be materialized. -/
def MaterializationPathProbeRequest.fromRequest (request : MaterializeRequest) :
    MaterializationPathProbeRequest :=
  ⟨request.source, request.target, request.staging, request.trash⟩

/-- `MaterializationFailure`: the error together with the receipt, which says what the attempt left
behind. -/
structure MaterializationFailure where
  error : PortError
  receipt : MaterializationReceipt
deriving DecidableEq

end Ports
end ThinWorkspace
