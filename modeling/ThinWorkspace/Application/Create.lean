/-
# The create use case

Source: `crates/thinws-application/src/create.rs`.  `createImpl` is the source's
function of that name, with its parts in order: the answer for a name that is
taken, the observations before the reservation, and `createReserved`, which does
the work under the reservation.
-/

import ThinWorkspace.Application.Paths
import ThinWorkspace.Application.Remove

namespace ThinWorkspace
namespace Application

open ThinWorkspace.Core Lib Ports

/-! ### Requests and outcomes

The request and the outcome are those of the source.  Which backends were injected is a
value as well, since a clone without a full copy beside it is one of the entry points. -/

/-- `CreateRequest`: what the user asks for, and the moment of the request. -/
structure CreateRequest where
  source : AbsolutePath
  target : AbsolutePath
  name : WorkspaceName
  allowFullCopy : Bool
  now : UnixMillis
deriving DecidableEq

/-- `CreateOutcome`: the workspace with the summary of its receipt, and whether this run created
it. -/
structure CreateOutcome where
  record : WorkspaceRecord
  materialization : FinalMaterializationSummary
  created : Bool
deriving DecidableEq

/-- The kinds of the injected materializers; `create_cow_only` has no copy. -/
structure Materializers where
  clone : MaterializerKind
  copy : Option MaterializerKind
deriving DecidableEq

/-- A computed value or its failure, `?` without a call. -/
def check {α : Type} (r : Except UseCaseError α) : UseCase α := Program.ofExcept id r

/-! ### A name that is taken

A creation whose name is taken answers from the record, if its inputs are the same, and
fails otherwise.  Nothing is reserved and nothing is written. -/

/-- The branch of `create_impl` for a record that has the requested name. -/
def createExisting (request : CreateRequest) (existing : WorkspaceRecord) :
    UseCase CreateOutcome := do
  let reservation := existing.reservation
  unlessFail (reservation.sourcePath = request.source ∧ reservation.targetPath = request.target ∧
      reservation.allowFullCopy = request.allowFullCopy)
    (semanticError .nameConflict "Workspace name is already used with different creation inputs")
  unlessFail (existing.state = .ready)
    (semanticError .workspaceIncomplete "Workspace creation is incomplete")
  port .layout (call .lockRevalidate)
  let verifiedPath ← port .layout (call (.validateReadyWorkspace reservation))
  unlessFail (verifiedPath = reservation.targetPath)
    (semanticError .targetLayout "Ready Workspace path does not match metadata")
  let found ← port .metadata (call (.finalMaterialization reservation.workspaceId))
  let summary ← orMissing (semanticError .metadata "Ready Workspace has no final receipt") found
  pure ⟨existing, summary, false⟩

/-! ### Before the reservation

What is looked at before the first write.  Lexical overlap and overlap by identity are
compared with every active row, and the joint probe fixes the volumes and the plan. -/

/-- The inner loop of `require_no_active_workspace_identity_overlap`: each path of one workspace is
looked up anew. -/
def requireNoIdentityOverlapAt (target : PathCapabilityReport) : List AbsolutePath → UseCase Unit
  | [] => pure ()
  | path :: paths => do
    let existing ← port .layout (call (.inspectPath path))
    unlessFail (¬(existing.resolution = .existingDirectory ∧
        targetEntersExistingRoot target existing = true))
      (semanticError .targetConflict "Workspace target enters an active Workspace path")
    requireNoIdentityOverlapAt target paths

/-- `require_no_active_workspace_identity_overlap`: workspaces on another volume cannot be entered
and are skipped. -/
def requireNoActiveWorkspaceIdentityOverlap (target : PathCapabilityReport)
    (targetVolumeId : VolumeId) : List WorkspaceRecord → UseCase Unit
  | [] => pure ()
  | record :: active =>
    if record.reservation.targetVolumeId ≠ targetVolumeId then
      requireNoActiveWorkspaceIdentityOverlap target targetVolumeId active
    else do
      let paths ← check (activeWorkspaceProtectedPaths record.reservation)
      requireNoIdentityOverlapAt target paths
      requireNoActiveWorkspaceIdentityOverlap target targetVolumeId active

/-- The check of the identities, made when the target's volume is known. -/
def requireNoIdentityOverlap (target : PathCapabilityReport) (active : List WorkspaceRecord) :
    UseCase Unit :=
  match target.filesystem.volumeId with
  | .known volume => requireNoActiveWorkspaceIdentityOverlap target volume active
  | .unknown _ _ => pure ()

/-- The observations that fix the reservation: they come before anything is written, and are made
again in the prepared directories. -/
def observe (request : CreateRequest) (identity : InstallationIdentity)
    (active : List WorkspaceRecord) : UseCase WorkspaceReservation := do
  check (requireNoActiveWorkspacePathOverlap request.target active)
  let source ← port .source (call (.inspectPath request.source))
  check (requireExistingSource source)
  let dataRootReport ← port .layout (call (.inspectPath identity.dataRoot))
  unlessFail (pathsOverlapWithIdentity source dataRootReport = false)
    (semanticError .targetLayout "source and control root must not overlap")
  let parent ← check (targetParent request.target)
  let workspaceId ← call .newWorkspaceId
  let probe ← check
    (provisionalMaterializationPaths request.source request.target parent workspaceId)
  let preliminary ← port .layout (call (.inspectMaterializationPaths probe))
  check (requireExistingSource preliminary.source)
  requireNoIdentityOverlap preliminary.targetRoot active
  check (requireMissingTarget preliminary.targetRoot parent)
  unlessFail (targetEntersExistingRoot preliminary.targetRoot dataRootReport = false)
    (semanticError .targetLayout "target overlaps the control root")
  let preliminaryPlan ← check (selectPlan preliminary request.allowFullCopy)
  pure
    { workspaceId := workspaceId
      instanceId := identity.instanceId
      name := request.name
      sourcePath := request.source
      targetPath := request.target
      sourceVolumeId := preliminaryPlan.sourceVolumeId
      targetVolumeId := preliminaryPlan.targetVolumeId
      allowFullCopy := request.allowFullCopy
      createdAt := request.now }

/-! ### Under the reservation

From the reservation on every failure has to be recorded in the row.  The source nests its
branches; here each stretch between two of them is a definition of its own, so that a
specification can be stated where a branch begins. -/

/-- `require_prepared_target`: the probe looked at the very directory that was prepared. -/
def requirePreparedTarget (prepared : PreparedWorkspace) (report : MaterializationPathReport) :
    UseCase Unit := do
  port .layout (call (.preparedRevalidate prepared))
  let target := report.targetRoot
  unlessFail (target.resolution = .existingDirectory ∧
      target.requestedPath = prepared.targetRoot ∧
      target.ancestry.getLast? = some ⟨prepared.targetRoot, prepared.targetIdentity⟩)
    (semanticError .targetLayout "materialization target differs from prepared Workspace root")

/-- The executor of a full copy, if one was injected. -/
def requireCopy (materializers : Materializers) (error : UseCaseError → UseCaseError) :
    UseCase Unit :=
  unlessFail (materializers.copy.isSome)
    (error (semanticError .capabilityUnavailable
      "Full Copy executor is unavailable on this platform"))

/-- The first plan of `create_reserved`, from the probe of the prepared paths. -/
def planPrepared (request : CreateRequest) (materializers : Materializers)
    (dataRoot : AbsolutePath) (reservation : WorkspaceReservation) (prepared : PreparedWorkspace)
    (probe : MaterializationPathProbeRequest) : UseCase MaterializationPlan := do
  let report ← port .layout (call (.inspectMaterializationPaths probe))
  requirePreparedTarget prepared report
  check (requireExistingSource report.source)
  let dataRootReport ← port .layout (call (.inspectPath dataRoot))
  unlessFail (materializationOverlapsControl report.source report.targetRoot dataRootReport = false)
    (semanticError .targetLayout "source or target overlaps the control root")
  let plan ← check (selectPlan report request.allowFullCopy)
  unlessFail (matchesReservedVolumes plan.sourceVolumeId plan.targetVolumeId reservation = true)
    (semanticError .targetLayout "materialization volume differs from reservation")
  unlessFail (plan.selectedAdapter = .fullCopy ∨ plan.selectedAdapter = materializers.clone)
    (semanticError .capabilityUnavailable
      "selected CoW backend does not match the injected materializer")
  pure plan

/-- The runtime fallback: what follows a clone that found CoW unavailable. -/
def fallBack (request : CreateRequest) (materializers : Materializers)
    (prepared : PreparedWorkspace) (materialize : MaterializeRequest) (plan : MaterializationPlan)
    (failure : MaterializationFailure) :
    UseCase (MaterializationPlan × MaterializationReceipt) := do
  let partialReceipt := failure.receipt
  unlessFail (partialReceipt.failureKind = some .cowUnavailable)
    ((mapMaterializationError failure.error).withPartialReceipt partialReceipt)
  unlessFail (request.allowFullCopy = true)
    ((cowNotAuthorized failure.error).withPartialReceipt partialReceipt)
  let fresh ← (call (.inspectMaterializationPaths (.fromRequest materialize))).orFail
    fun error => (mapPort .layout error).withPartialReceipt partialReceipt
  (requirePreparedTarget prepared fresh).mapError fun error =>
    error.withPartialReceipt partialReceipt
  let copyPlan ← check ((MaterializationPlan.forFullCopyAfterCowUnavailable fresh plan
    partialReceipt).mapError fun error => (mapPlanError error).withPartialReceipt partialReceipt)
  requireCopy materializers fun error => error.withPartialReceipt partialReceipt
  let receipt ← (call (.copyMaterialize materialize copyPlan)).orFail fun failure =>
    ((mapPort .layout failure.error).withPartialReceipt partialReceipt).withPartialReceipt
      failure.receipt
  pure (copyPlan, receipt)

/-- The materialization of `create_reserved`, with the plan that produced it. -/
def materializePrepared (request : CreateRequest) (materializers : Materializers)
    (prepared : PreparedWorkspace) (materialize : MaterializeRequest)
    (plan : MaterializationPlan) : UseCase (MaterializationPlan × MaterializationReceipt) :=
  if plan.selectedAdapter = .fullCopy then do
    requireCopy materializers id
    let receipt ← (call (.copyMaterialize materialize plan)).orFail fun failure =>
      (mapPort .layout failure.error).withPartialReceipt failure.receipt
    pure (plan, receipt)
  else do
    match ← call (.cloneMaterialize materialize plan) with
    | .ok receipt => pure (plan, receipt)
    | .error failure => fallBack request materializers prepared materialize plan failure

/-- `create_reserved` from the last revalidation on: the marks of an incomplete workspace are
cleared before the row becomes ready. -/
def finishReserved (request : CreateRequest) (reservation : WorkspaceReservation)
    (prepared : PreparedWorkspace) (plan : MaterializationPlan)
    (receipt : MaterializationReceipt) : UseCase CreateOutcome := do
  port .layout (call (.preparedRevalidate prepared))
  port .layout (call .layoutRevalidate)
  port .layout (call .lockRevalidate)
  port .layout (call (.clearWorkspaceIncomplete prepared))
  let record ← port .metadata
    (call (.completeMaterialization reservation.workspaceId plan receipt request.now))
  pure ⟨record, summaryOf receipt, true⟩

/-- `create_reserved`: the directories are prepared, the plan is made in them, the source is
materialized, and the workspace completed. -/
def createReserved (request : CreateRequest) (materializers : Materializers)
    (dataRoot : AbsolutePath) (reservation : WorkspaceReservation) : UseCase CreateOutcome := do
  let prepared ← port .layout
    (call (.prepareWorkspace reservation.workspaceId reservation.targetPath))
  unlessFail (prepared.targetRoot = reservation.targetPath)
    (semanticError .targetLayout "prepared target differs from reserved target")
  let materialize : MaterializeRequest :=
    ⟨request.source, reservation.targetPath, prepared.stagingRoot, prepared.trashRoot⟩
  let plan ← planPrepared request materializers dataRoot reservation prepared
    (.fromRequest materialize)
  let (plan, receipt) ← materializePrepared request materializers prepared materialize plan
  finishReserved request reservation prepared plan receipt

/-- The failure of `create_impl` once its recording failed too. -/
def recordingFailed (id : WorkspaceId) (error : UseCaseError) (recordError : PortError) :
    UseCaseError :=
  error.partialReceipts.foldl UseCaseError.withPartialReceipt
    ((mapPort .metadata recordError).withWorkspaceId id)

/-- `create_impl` from the result of `create_reserved` on: a failure is recorded in the row, and it
is the failure that is returned. -/
def recordOutcome (request : CreateRequest) (id : WorkspaceId)
    (result : Except UseCaseError CreateOutcome) : UseCase CreateOutcome :=
  match result with
  | .ok outcome => pure outcome
  | .error error => do
    match ← call (.recordFailure id .creating error.diagnostic.code request.now) with
    | .ok _ => throw error
    | .error recordError => throw (recordingFailed id error recordError)

/-- `create_impl` from the reservation on: the row is there before any directory is made. -/
def reserveAndCreate (request : CreateRequest) (materializers : Materializers)
    (identity : InstallationIdentity) (reservation : WorkspaceReservation) :
    UseCase CreateOutcome := do
  let _ ← port .metadata (call (.reserveWorkspace reservation))
  let result ← ((createReserved request materializers identity.dataRoot reservation).mapError
    fun error => error.withWorkspaceId reservation.workspaceId).attempt
  recordOutcome request reservation.workspaceId result

/-- The backends that `create_impl` accepts: a clone of either platform, and at most a full copy
beside it. -/
def Materializers.available (materializers : Materializers) : Bool :=
  (materializers.clone == .apfsFileClone || materializers.clone == .btrfsReflink) &&
    !materializers.copy.any (· != .fullCopy)

/-- `create_impl`: backends, overlap of the requested paths, and the name, in this order; a name
that is taken ends in a comparison and not in a creation. -/
def createImpl (request : CreateRequest) (materializers : Materializers) :
    UseCase CreateOutcome := do
  unlessFail (materializers.available = true)
    (semanticError .capabilityUnavailable "required materialization backend is unavailable")
  let identity ← readIdentity
  unlessFail (requestedPathsOverlap request.source request.target identity.dataRoot = false)
    (semanticError .targetLayout "source, target, and control root must not overlap")
  openMetadata identity request.now
  let active ← port .metadata (call .workspaces)
  match findByName request.name active with
  | some existing => createExisting request existing
  | none => do
    let reservation ← observe request identity active
    reserveAndCreate request materializers identity reservation

/-- The rule for a computed value: it takes no call, so the part behind it starts in the same
state. -/
theorem safe_check_bind {σ α β : Type} {env : Environment PortCall PortCall.Result σ}
    {guard : PortCall → σ → Prop} {post : Except UseCaseError β → σ → Prop} {s : σ}
    {r : Except UseCaseError α} {f : α → UseCase β}
    (hok : ∀ a, r = .ok a → Program.Safe env guard post (f a) s)
    (herror : ∀ e, r = .error e → post (.error e) s) :
    Program.Safe env guard post (check r >>= f) s := by
  cases r with
  | ok a => exact hok a rfl
  | error e => exact herror e rfl

/-! ### The parts that only observe

Everything before the reservation only observes.  These lemmas bound the calls of each part
once, and every later proof uses them to pass over the part. -/

/-- The calls that change neither the store nor a file. -/
def PortCall.observes : PortCall → Bool
  | .readConfig | .validateLayout _ | .acquireDataRoot _ | .lockRevalidate | .layoutRevalidate
  | .readRootMarker _ | .openExisting _ | .inspectMetadata _ | .workspaces
  | .finalMaterialization _ | .inspectPath _ | .inspectMaterializationPaths _
  | .preparedRevalidate _ | .validateReadyWorkspace _ | .newWorkspaceId => true
  | _ => false

/-- Opening the store only observes: it reads, takes a lock, and opens what exists. -/
theorem observes_of_opensStore (c : PortCall) (h : c.opensStore = true) : c.observes = true := by
  cases c <;> first | rfl | cases h

section Observing

open Program (Only)

variable {request : CreateRequest} {materializers : Materializers} {α : Type}
  {reservation : WorkspaceReservation} {prepared : PreparedWorkspace} {P : PortCall → Prop}

/-- A pure check makes no call. -/
theorem only_check {r : Except UseCaseError α} : Only P (check r) := Program.only_ofExcept

/-- A creation that finds its workspace only observes, so that repeating a request changes nothing.
-/
theorem only_createExisting {existing : WorkspaceRecord} :
    Only (fun c => c.observes = true) (createExisting request existing) := by
  refine Only.bind only_unlessFail fun _ => Only.bind only_unlessFail fun _ => ?_
  refine Only.bind (Only.orFail (only_call rfl)) fun _ =>
    Only.bind (Only.orFail (only_call rfl)) fun _ => ?_
  refine Only.bind only_unlessFail fun _ => Only.bind (Only.orFail (only_call rfl)) fun _ => ?_
  exact Only.bind only_orMissing fun _ => Program.only_pure

/-- The comparison with the paths of one record inspects these paths. -/
theorem only_requireNoIdentityOverlapAt {target : PathCapabilityReport}
    {paths : List AbsolutePath} (h : ∀ path, P (.inspectPath path)) :
    Only P (requireNoIdentityOverlapAt target paths) := by
  induction paths with
  | nil => exact Program.only_pure
  | cons path paths ih =>
    exact Only.bind (Only.orFail (only_call (h path))) fun _ =>
      Only.bind only_unlessFail fun _ => ih

/-- The comparison of identities inspects paths and makes no other call. -/
theorem only_requireNoIdentityOverlap {target : PathCapabilityReport}
    {active : List WorkspaceRecord} (h : ∀ path, P (.inspectPath path)) :
    Only P (requireNoIdentityOverlap target active) := by
  unfold requireNoIdentityOverlap
  split
  · rename_i volume _
    induction active with
    | nil => exact Program.only_pure
    | cons record active ih =>
      unfold requireNoActiveWorkspaceIdentityOverlap
      split
      · exact ih
      · exact Only.bind only_check fun _ =>
          Only.bind (only_requireNoIdentityOverlapAt h) fun _ => ih
  · exact Program.only_pure

/-- The observations of a creation only observe: no call before the reservation changes anything.
-/
theorem only_observe {identity : InstallationIdentity} {active : List WorkspaceRecord} :
    Only (fun c => c.observes = true) (observe request identity active) := by
  refine Only.bind only_check fun _ => Only.bind (Only.orFail (only_call rfl)) fun _ => ?_
  refine Only.bind only_check fun _ => Only.bind (Only.orFail (only_call rfl)) fun _ => ?_
  refine Only.bind only_unlessFail fun _ => Only.bind only_check fun _ => ?_
  refine Only.bind (only_call rfl) fun _ => Only.bind only_check fun _ => ?_
  refine Only.bind (Only.orFail (only_call rfl)) fun _ => Only.bind only_check fun _ => ?_
  refine Only.bind (only_requireNoIdentityOverlap fun _ => rfl) fun _ =>
    Only.bind only_check fun _ => ?_
  exact Only.bind only_unlessFail fun _ => Only.bind only_check fun _ => Program.only_pure

/-- Requiring the prepared target makes no call that writes. -/
theorem only_requirePreparedTarget {report : MaterializationPathReport} :
    Only (fun c => c.observes = true) (requirePreparedTarget prepared report) :=
  Only.bind (Only.orFail (only_call rfl)) fun _ => only_unlessFail

/-- Planning in the prepared directories only observes. -/
theorem only_planPrepared {dataRoot : AbsolutePath} {probe : MaterializationPathProbeRequest} :
    Only (fun c => c.observes = true)
      (planPrepared request materializers dataRoot reservation prepared probe) := by
  refine Only.bind (Only.orFail (only_call rfl)) fun _ =>
    Only.bind only_requirePreparedTarget fun _ => ?_
  refine Only.bind only_check fun _ => Only.bind (Only.orFail (only_call rfl)) fun _ => ?_
  refine Only.bind only_unlessFail fun _ => Only.bind only_check fun _ => ?_
  exact Only.bind only_unlessFail fun _ => Only.bind only_unlessFail fun _ => Program.only_pure

end Observing

end Application
end ThinWorkspace
