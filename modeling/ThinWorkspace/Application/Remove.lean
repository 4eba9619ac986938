/-
# The remove use case

Source: `crates/thinws-application/src/remove.rs`, and `require_ready_marker` of
`lib.rs`.  `remove` is the one public function; the other definitions are its
parts in the source's order: opening the metadata store under the lifecycle
lock, the selection of a record, the answer for a removed identifier, the
preflight closure, and what happens after the decision.
-/

import ThinWorkspace.Application.Calls

namespace ThinWorkspace
namespace Application

open ThinWorkspace.Core Lib Ports

/-! ### Opening the metadata store

Opening the store is shared by creation and removal: the identity, the ready marker, the
lock and the schema. -/

/-- `require_ready_marker`: the control root has a marker, and it is the Ready one of this
installation. -/
def requireReadyMarker (identity : InstallationIdentity) : UseCase Unit := do
  let marker ← port .control (call (.readRootMarker identity.dataRoot))
  unlessFail (marker = some ⟨identity, .ready⟩)
    (semanticError .controlLayout "control-root marker is missing, incomplete, or inconsistent")

/-- `acquire_data_root`; a refused lock is reported as a layout failure when the
layout has become invalid meanwhile. -/
def acquireLock (identity : InstallationIdentity) : UseCase Unit := do
  match ← call (.acquireDataRoot identity.dataRoot) with
  | .ok () => pure ()
  | .error error =>
    match ← call (.validateLayout identity) with
    | .error layoutError => throw (mapPort .control layoutError)
    | .ok () => throw (mapPort .lock error)

/-- The calls from the first `validate_layout` to `open_existing`, which the two
use cases share. -/
def openMetadata (identity : InstallationIdentity) (now : UnixMillis) : UseCase Unit := do
  port .control (call (.validateLayout identity))
  acquireLock identity
  port .layout (call .lockRevalidate)
  port .control (call (.validateLayout identity))
  requireReadyMarker identity
  port .metadata (call (.openExisting ⟨identity, now⟩))

/-- `read_config`, for an installation that must exist: without a config there is nothing to work
on. -/
def readIdentity : UseCase InstallationIdentity := do
  let identity ← port .control (call .readConfig)
  orMissing (semanticError .notInitialized "ThinWorkspace is not initialized") identity

/-! ### The calls that open the store

The calls of this part are of a kind that no later theorem is about, so one lemma for each
function dismisses them. -/

/-- The calls made before a store is open. -/
def PortCall.opensStore : PortCall → Bool
  | .readConfig | .validateLayout _ | .acquireDataRoot _ | .lockRevalidate | .readRootMarker _
  | .openExisting _ => true
  | _ => false

section Opening

open Program (Only)

variable {α : Type} {P : PortCall → Prop}

/-- A single call of a kind is a program of this kind. -/
theorem only_call {c : PortCall} (h : P c) : Only P (call c) := Program.only_perform h

/-- Requiring a value that was read makes no call. -/
theorem only_orMissing {error : UseCaseError} {value : Option α} :
    Only P (orMissing error value : UseCase α) := by
  cases value <;> trivial

/-- Checking a condition makes no call, so it is of every kind. -/
theorem only_unlessFail {p : Prop} [Decidable p] {error : UseCaseError} :
    Only P (unlessFail p error) := by
  unfold unlessFail
  split <;> trivial

/-- Reading the identity is part of opening the store. -/
theorem only_readIdentity : Only (fun c => c.opensStore = true) readIdentity :=
  Only.bind (Only.orFail (only_call rfl)) fun _ => only_orMissing

/-- Requiring the ready marker is part of opening the store. -/
theorem only_requireReadyMarker {identity : InstallationIdentity} :
    Only (fun c => c.opensStore = true) (requireReadyMarker identity) :=
  Only.bind (Only.orFail (only_call rfl)) fun _ => only_unlessFail

/-- Acquiring the lock is part of opening the store. -/
theorem only_acquireLock {identity : InstallationIdentity} :
    Only (fun c => c.opensStore = true) (acquireLock identity) :=
  Only.bind (only_call rfl) fun
    | .ok () => Program.only_pure
    | .error _ => Only.bind (only_call rfl) fun
      | .ok () => Program.only_throw
      | .error _ => Program.only_throw

/-- Opening the metadata is part of opening the store. -/
theorem only_openMetadata {identity : InstallationIdentity} {now : UnixMillis} :
    Only (fun c => c.opensStore = true) (openMetadata identity now) := by
  refine Only.bind (Only.orFail (only_call rfl)) fun _ => Only.bind only_acquireLock fun _ => ?_
  refine Only.bind (Only.orFail (only_call rfl)) fun _ => ?_
  refine Only.bind (Only.orFail (only_call rfl)) fun _ => ?_
  exact Only.bind only_requireReadyMarker fun _ => (Only.orFail (only_call rfl))

end Opening

/-! ### Requests and outcomes

A request names its target in one of three ways, and the outcome tells whether there was
anything to remove. -/

/-- `RemoveTarget`: what the user named; a text that is both a name and an identifier is ambiguous.
-/
inductive RemoveTarget where
  | name (name : WorkspaceName)
  | id (id : WorkspaceId)
  | ambiguous (name : WorkspaceName) (id : WorkspaceId)
deriving DecidableEq

/-- `RemoveRequest`: the target, whether the removal is forced, and the moment of the request. -/
structure RemoveRequest where
  target : RemoveTarget
  mode : RemovalMode
  now : UnixMillis
deriving DecidableEq

/-- `RemoveResult`: whether this run removed the workspace or found it removed. -/
inductive RemoveResult where
  | removed | alreadyRemoved
deriving DecidableEq

/-- `RemoveOutcome`: what is reported of a removal that succeeded, with the path of its log. -/
structure RemoveOutcome where
  workspaceId : WorkspaceId
  operationId : OperationId
  forced : Bool
  result : RemoveResult
  logPath : AbsolutePath
  warning : Option RemovalWarning
deriving DecidableEq

/-! ### Selection

The record is selected by what the request names.  An ambiguous text is looked up both ways,
and a conflict between the two is refused. -/

/-- The record of a list that has the name. -/
def findByName (name : WorkspaceName) (records : List WorkspaceRecord) : Option WorkspaceRecord :=
  records.find? fun workspace => workspace.reservation.name = name

/-- A name and an identifier written alike select two records, or a record and a
deletion. -/
def selectsTwo (byName byId : Option WorkspaceRecord) (oldId : Bool) : Bool :=
  byName.any fun named =>
    oldId || byId.any fun identified =>
      named.reservation.workspaceId != identified.reservation.workspaceId

/-- Whether the identifier without a record belonged to a removed workspace. -/
def isOldId (byId : Option WorkspaceRecord) (id : WorkspaceId) : UseCase Bool :=
  if byId.isNone then do
    let tombstone ← port .metadata (call (.deletionTombstone id))
    pure tombstone.isSome
  else pure false

/-- The record the request selects: by name among all records, by identifier directly, and for an
ambiguous text by both, which must not select two different ones. -/
def selectActive : RemoveTarget → UseCase (Option WorkspaceRecord)
  | .name name => do
    let records ← port .metadata (call .workspaces)
    pure (findByName name records)
  | .id id => port .metadata (call (.workspace id))
  | .ambiguous name id => do
    let records ← port .metadata (call .workspaces)
    let byName := findByName name records
    let byId ← port .metadata (call (.workspace id))
    let oldId ← isOldId byId id
    unlessFail (selectsTwo byName byId oldId = false)
      ((semanticError .usage "Workspace name and ID select different records").withRemediation
        "Use name:<name> or id:<full-workspace-id> to select the intended Workspace explicitly.")
    pure (byName.or byId)

/-! ### The removal log

The records of the log are made of what is known so far.  An inspection that was skipped
counts as unknown. -/

/-- The aggregate the log and the decision see; a skipped inspection is unknown. -/
def gitStateOf (inspection : Option GitInspection) : GitState :=
  inspection.elim .unknown (·.aggregate)

/-- The `RemovalLogRecord` of an attempt with what it has found out so far. -/
def removalRecord (request : RemoveRequest) (operationId : OperationId) (id : WorkspaceId)
    (inspection : Option GitInspection) (processUse : Option ProcessUse)
    (event : RemovalLogEvent) (protection : Option RemovalRefusal)
    (errorCode : Option ErrorCode) (outcome : Option WorkspaceRemoval) : RemovalLogRecord where
  occurredAt := request.now
  operationId := operationId
  workspaceId := id
  event := event
  mode := request.mode
  gitState := gitStateOf inspection
  gitCheckComplete := inspection.any fun result =>
    result.discovery = .complete ∧ result.aggregate ≠ .unknown
  repositories := inspection.elim [] (·.repositories)
  processUse := processUse
  protection := protection
  errorCode := errorCode
  outcome := outcome

/-- `append_removal_log` with the failure every caller but one gives it. -/
def appendLog (id : WorkspaceId) (record : RemovalLogRecord) : UseCase AbsolutePath :=
  (call (.appendRemovalLog record)).orFail fun error => (mapPort .layout error).withWorkspaceId id

/-! ### A removed identifier

Where no active record is found, a tombstone decides whether the request repeats an earlier
removal. -/

/-- The identifier a request may name when no record has it. -/
def RemoveTarget.absentId : RemoveTarget → Option WorkspaceId
  | .id workspaceId | .ambiguous _ workspaceId => some workspaceId
  | .name _ => none

/-- The branch of `remove` without an active record. -/
def removeAbsent (request : RemoveRequest) (identity : InstallationIdentity) :
    UseCase RemoveOutcome := do
  let id ← orMissing (semanticError .workspaceNotFound "Workspace not found")
    request.target.absentId
  let found ← port .metadata (call (.deletionTombstone id))
  let tombstone ← orMissing (semanticError .workspaceNotFound "Workspace not found") found
  unlessFail (tombstone.instanceId = identity.instanceId)
    (semanticError .metadata "deletion record belongs to another installation")
  let operationId ← call .newOperationId
  let _ ← appendLog id (removalRecord request operationId id none none .started none none none)
  let logPath ← appendLog id
    (removalRecord request operationId id none none .completed none none (some .alreadyAbsent))
  pure
    { workspaceId := id
      operationId := operationId
      forced := request.mode = .force
      result := .alreadyRemoved
      logPath := logPath
      warning := none }

/-! ### Preflight

Everything that may still stop the removal, before anything is logged as started: the
container, the repositories, and the processes. -/

/-- `inspect_removal_container` where the container must exist; a missing one is an error of the
target. -/
def locateContainer (reservation : WorkspaceReservation) : UseCase AbsolutePath := do
  let container ← (call (.inspectRemovalContainer reservation)).orFail
    (mapTargetPort reservation.workspaceId)
  orMissing (missingTarget reservation.workspaceId) container

/-- `validate_ready_workspace` with its failure, which names the workspace. -/
def validateReady (reservation : WorkspaceReservation) : UseCase AbsolutePath :=
  (call (.validateReadyWorkspace reservation)).orFail fun error =>
    (mapPort .layout error).withWorkspaceId reservation.workspaceId

/-- The Git inspection of a Ready workspace, between two validations of its path. -/
def inspectReady (reservation : WorkspaceReservation) : UseCase GitInspection := do
  let path ← validateReady reservation
  unlessFail (path = reservation.targetPath)
    ((semanticError .targetLayout "Ready Workspace path does not match metadata").withWorkspaceId
      reservation.workspaceId)
  let result ← call (.gitInspect path)
  let _ ← validateReady reservation
  pure result

/-- The Git part of the preflight, skipped unless a Ready workspace is removed
without force. -/
def inspectGit (mode : RemovalMode) (active : WorkspaceRecord) :
    UseCase (Option GitInspection) :=
  if active.state = .ready ∧ mode = .normal then do
    let result ← inspectReady active.reservation
    pure (some result)
  else pure none

/-- The process part of the preflight, on a container that is located again. -/
def inspectProcesses (reservation : WorkspaceReservation) : UseCase ProcessUse := do
  let container ← locateContainer reservation
  let observation ← (call (.processInspect container)).orFail fun error =>
    (mapPort .layout error).withWorkspaceId reservation.workspaceId
  pure observation.useState

/-- The `preflight` closure: the container is located, then its repositories and its processes are
inspected. -/
def preflight (mode : RemovalMode) (active : WorkspaceRecord) :
    UseCase (Option GitInspection × Option ProcessUse) := do
  let _ ← locateContainer active.reservation
  let inspection ← inspectGit mode active
  let processUse ← inspectProcesses active.reservation
  pure (inspection, some processUse)

/-- A failed preflight is logged; if that fails too, the log failure is reported. -/
def preflightFailed {α : Type} (request : RemoveRequest) (operationId : OperationId)
    (id : WorkspaceId) (failure : UseCaseError) : UseCase α := do
  let code := failure.diagnostic.code
  match ← call (.appendRemovalLog
      (removalRecord request operationId id none none .failed none (some code) none)) with
  | .error logError =>
    throw (((mapPort .layout logError).withWorkspaceId id).withPublicContext
      "preflight_error_code" code.asStr)
  | .ok _ => throw failure

/-! ### After the decision

The branches behind the preflight, each cut where a specification is stated.  Every failure
is logged, and a failure behind `begin_removal` is recorded in the row as well. -/

/-- `remove_workspace` and the inspection that must find nothing afterwards. -/
def removeContainer (reservation : WorkspaceReservation) : UseCase WorkspaceRemoval := do
  let outcome ← (call (.removeWorkspace reservation)).orFail
    (mapTargetPort reservation.workspaceId)
  let container ← (call (.inspectRemovalContainer reservation)).orFail fun error =>
    (mapPort .layout error).withWorkspaceId reservation.workspaceId
  unlessFail (container = none)
    ((semanticError .targetLayout
      "Workspace container reappeared before deletion completion").withWorkspaceId
        reservation.workspaceId)
  pure outcome

section Attempt

variable (request : RemoveRequest) (operationId : OperationId) (inspection : Option GitInspection)
  (processUse : Option ProcessUse) (active : WorkspaceRecord)

/-- The `append` closure of an attempt whose preflight returned. -/
def appendEvent (event : RemovalLogEvent) (protection : Option RemovalRefusal)
    (errorCode : Option ErrorCode) (outcome : Option WorkspaceRemoval) : UseCase AbsolutePath :=
  appendLog active.reservation.workspaceId
    (removalRecord request operationId active.reservation.workspaceId inspection processUse event
      protection errorCode outcome)

/-- Logs a failure and fails with it; where the record cannot be written, it fails with that
instead. -/
def failLogged {α : Type} (failure : UseCaseError) : UseCase α := do
  let _ ← appendEvent request operationId inspection processUse active .failed none
    (some failure.diagnostic.code) none
  throw failure

/-- The failure of a removal that began, recorded in the metadata. -/
def recordRemovalFailure (failure : UseCaseError) : UseCase UseCaseError := do
  match ← call (.recordFailure active.reservation.workspaceId .deleting failure.diagnostic.code
      request.now) with
  | .ok _ => pure failure
  | .error error =>
    pure ((mapPort .metadata error).withWorkspaceId active.reservation.workspaceId)

/-- `remove` from the removal of the container on. -/
def destroy (identity : InstallationIdentity) (logPath : AbsolutePath)
    (warning : Option RemovalWarning) : UseCase RemoveOutcome := do
  let id := active.reservation.workspaceId
  match ← (removeContainer active.reservation).attempt with
  | .error failure =>
    let failure ← recordRemovalFailure request active failure
    failLogged request operationId inspection processUse active failure
  | .ok removed =>
    match ← call (.completeDeletion id identity.instanceId request.now) with
    | .error error =>
      failLogged request operationId inspection processUse active
        ((mapPort .metadata error).withWorkspaceId id)
    | .ok _ =>
      let _ ← appendEvent request operationId inspection processUse active .completed none none
        (some removed)
      pure
        { workspaceId := id
          operationId := operationId
          forced := request.mode = .force
          result := .removed
          logPath := logPath
          warning := warning }

/-- `remove` from the `Started` record on: the row begins its removal, the directories are
destroyed, and the tombstone is written. -/
def beginAndDestroy (identity : InstallationIdentity) (warning : Option RemovalWarning) :
    UseCase RemoveOutcome := do
  let id := active.reservation.workspaceId
  let logPath ← appendEvent request operationId inspection processUse active .started none none
    none
  match ← call (.beginRemoval id active.state request.mode request.now) with
  | .error error =>
    failLogged request operationId inspection processUse active
      ((mapPort .metadata error).withWorkspaceId id)
  | .ok _ => destroy request operationId inspection processUse active identity logPath warning

/-- The refusal of an attempt the decision stopped. -/
def refuse {α : Type} (reason : RemovalRefusal) : UseCase α := do
  let _ ← appendEvent request operationId inspection processUse active .refused (some reason)
    (some (refusalCode reason)) none
  throw (withProcessScanWarning
    ((((semanticError (refusalCode reason) (refusalMessage reason)).withWorkspaceId
      active.reservation.workspaceId).withRemediation (refusalRemediation reason)).withGitInspection
        inspection) processUse)

/-- The refusal of an unforced removal of a workspace that is not Ready. -/
def refuseIncomplete {α : Type} : UseCase α := do
  let _ ← appendEvent request operationId inspection processUse active .failed none
    (some .workspaceIncomplete) none
  throw (withProcessScanWarning
    (((semanticError .workspaceIncomplete
      "Workspace cleanup is incomplete; explicit force is required").withWorkspaceId
        active.reservation.workspaceId).withRemediation
          "Inspect the incomplete copy, then use workspace remove <name-or-id> --force only to discard it.")
    processUse)

/-- `remove` from the end of the preflight on. -/
def decideAndRemove (identity : InstallationIdentity) : UseCase RemoveOutcome :=
  if active.state ≠ .ready ∧ request.mode = .normal then
    refuseIncomplete request operationId inspection processUse active
  else
    match decideRemoval (gitStateOf inspection) (processUse.getD .noEvidence) request.mode with
    | .refuse reason => refuse request operationId inspection processUse active reason
    | .proceed warning =>
      beginAndDestroy request operationId inspection processUse active identity warning

end Attempt

/-- The branch of `remove` with an active record. -/
def removeActive (request : RemoveRequest) (identity : InstallationIdentity)
    (active : WorkspaceRecord) : UseCase RemoveOutcome := do
  let operationId ← call .newOperationId
  match ← (preflight request.mode active).attempt with
  | .error failure =>
    preflightFailed request operationId active.reservation.workspaceId failure
  | .ok (inspection, processUse) =>
    decideAndRemove request operationId inspection processUse active identity

/-- `ThinWorkspaceService::remove`: a workspace that is still registered is removed, and one that
is not is looked up among the tombstones. -/
def remove (request : RemoveRequest) : UseCase RemoveOutcome := do
  let identity ← readIdentity
  openMetadata identity request.now
  match ← selectActive request.target with
  | none => removeAbsent request identity
  | some active => removeActive request identity active

/-! ### The calls of a removal

`PortCall.Removes` bounds the calls of a removal of one record: all of them are about that
record. -/

section Parts

open Program (Only)

variable {P : PortCall → Prop} {reservation : WorkspaceReservation}

/-- Asking whether an identifier is an old one reads its tombstone. -/
theorem only_isOldId {byId : Option WorkspaceRecord} {id : WorkspaceId}
    (hold : P (.deletionTombstone id)) : Only P (isOldId byId id) := by
  unfold isOldId
  split
  · exact Only.bind (Only.orFail (only_call hold)) fun _ => Program.only_pure
  · exact Program.only_pure

/-- The selection reads the records and the tombstones, so it is of every kind that these reads are
of. -/
theorem only_selectActive {target : RemoveTarget} (hlist : P .workspaces)
    (hread : ∀ id, P (.workspace id)) (hold : ∀ id, P (.deletionTombstone id)) :
    Only P (selectActive target) := by
  cases target with
  | name name => exact Only.bind (Only.orFail (only_call hlist)) fun _ => Program.only_pure
  | id id => exact Only.orFail (only_call (hread id))
  | ambiguous name id =>
    refine Only.bind (Only.orFail (only_call hlist)) fun _ => ?_
    refine Only.bind (Only.orFail (only_call (hread id))) fun _ => ?_
    refine Only.bind (only_isOldId (hold id)) fun _ => ?_
    exact Only.bind only_unlessFail fun _ => Program.only_pure

/-- Locating the container is one call, so it is of the kind of this call. -/
theorem only_locateContainer (h : P (.inspectRemovalContainer reservation)) :
    Only P (locateContainer reservation) :=
  Only.bind (Only.orFail (only_call h)) fun _ => only_orMissing

/-- Validating a Ready workspace is one call, so it is of the kind of this call. -/
theorem only_validateReady (h : P (.validateReadyWorkspace reservation)) :
    Only P (validateReady reservation) :=
  Only.orFail (only_call h)

end Parts

/-- The calls of a removal of an active record. -/
def PortCall.Removes (active : WorkspaceRecord) : PortCall → Prop
  | .newOperationId | .gitInspect _ | .processInspect _ => True
  | .inspectRemovalContainer reservation | .validateReadyWorkspace reservation
  | .removeWorkspace reservation => reservation = active.reservation
  | .beginRemoval id _ _ _ | .recordFailure id _ _ _ | .completeDeletion id _ _ =>
    id = active.reservation.workspaceId
  | .appendRemovalLog record => record.workspaceId = active.reservation.workspaceId
  | _ => False

section Removes

open Program (Only)

variable {α : Type} {request : RemoveRequest} {operationId : OperationId}
  {inspection : Option GitInspection} {processUse : Option ProcessUse} {active : WorkspaceRecord}
  {identity : InstallationIdentity} {warning : Option RemovalWarning} {logPath : AbsolutePath}

/-- The preflight of a removal is about its record. -/
theorem removes_preflight {mode : RemovalMode} :
    Only (PortCall.Removes active) (preflight mode active) := by
  refine Only.bind (only_locateContainer rfl) fun _ => Only.bind ?_ fun _ => ?_
  · unfold inspectGit
    split
    · refine Only.bind ?_ fun _ => Program.only_pure
      refine Only.bind (only_validateReady rfl) fun _ => Only.bind only_unlessFail fun _ => ?_
      exact Only.bind (only_call trivial) fun _ =>
        Only.bind (only_validateReady rfl) fun _ => Program.only_pure
    · exact Program.only_pure
  · refine Only.bind (Only.bind (only_locateContainer rfl) fun _ => ?_) fun _ => Program.only_pure
    exact Only.bind (Only.orFail (only_call trivial)) fun _ => Program.only_pure

/-- A log record of a removal is about its record. -/
theorem removes_appendEvent {event : RemovalLogEvent} {protection : Option RemovalRefusal}
    {errorCode : Option ErrorCode} {outcome : Option WorkspaceRemoval} :
    Only (PortCall.Removes active) (appendEvent request operationId inspection processUse active
      event protection errorCode outcome) :=
  Only.orFail (only_call rfl)

/-- So is a failure that is logged: the record is about the active workspace. -/
theorem removes_failLogged {failure : UseCaseError} : Only (PortCall.Removes active)
    (failLogged request operationId inspection processUse active failure : UseCase α) :=
  Only.bind removes_appendEvent fun _ => Program.only_throw

/-- So is the destruction: each of its calls is about the active workspace. -/
theorem removes_destroy : Only (PortCall.Removes active)
    (destroy request operationId inspection processUse active identity logPath warning) := by
  refine Only.bind (Only.attempt ?_) fun
    | .error failure => ?_
    | .ok removed => ?_
  · refine Only.bind (Only.orFail (only_call rfl)) fun _ => ?_
    refine Only.bind (Only.orFail (only_call rfl)) fun _ => ?_
    exact Only.bind only_unlessFail fun _ => Program.only_pure
  · refine Only.bind (Only.bind (only_call rfl) fun
      | .ok _ => Program.only_pure
      | .error _ => Program.only_pure) fun _ => removes_failLogged
  · refine Only.bind (only_call rfl) fun
      | .error _ => removes_failLogged
      | .ok _ => Only.bind removes_appendEvent fun _ => Program.only_pure

/-- So is everything from the decision on, refusals included. -/
theorem removes_decideAndRemove : Only (PortCall.Removes active)
    (decideAndRemove request operationId inspection processUse active identity) := by
  unfold decideAndRemove
  split
  · exact Only.bind removes_appendEvent fun _ => Program.only_throw
  · split
    · exact Only.bind removes_appendEvent fun _ => Program.only_throw
    · refine Only.bind removes_appendEvent fun _ => ?_
      exact Only.bind (only_call rfl) fun
        | .error _ => removes_failLogged
        | .ok _ => removes_destroy

/-- **A removal of a record is about this record only**, in whatever way it ends. -/
theorem removes_removeActive :
    Only (PortCall.Removes active) (removeActive request identity active) := by
  refine Only.bind (only_call trivial) fun operationId => ?_
  refine Only.bind removes_preflight.attempt fun
    | .error failure => ?_
    | .ok _ => removes_decideAndRemove
  refine Only.bind (only_call rfl) fun
    | .error _ => Program.only_throw
    | .ok _ => Program.only_throw

end Removes

end Application
end ThinWorkspace
