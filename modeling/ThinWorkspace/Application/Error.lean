/-
# Use-case errors

Source: `crates/thinws-application/src/lib.rs` (`UseCaseError`, `Stage`,
`map_port`, `semantic_error`), `remove.rs` and `create.rs` (the error helpers)
and `CoreError` of `crates/thinws-core/src/diagnostic.rs`.

An error has a code, a message and what is said of the circumstances; the failure of a port
is kept as its source.  The texts are those of the source, since a caller sees them.
-/

import ThinWorkspace.Ports.Bootstrap

namespace ThinWorkspace
namespace Application

open ThinWorkspace.Core Ports

/-! ### Diagnostics

A diagnostic is a code, a message, a context and some advice, and a use-case error carries
with it what was done before the failure.  The constructors only add;
`code_withPartialReceipt` and `code_withWorkspaceId` say that the code is not touched. -/

/-- `ContextValue`: a text with the mark that says whether it may be shown to everyone. -/
structure ContextValue where
  value : String
  isSensitive : Bool
deriving DecidableEq

/-- `ContextValue::public`: a text that may be shown. -/
def ContextValue.shown (value : String) : ContextValue := ⟨value, false⟩

/-- `BTreeMap::insert`, on the sorted list of the map's entries. -/
def insertContext (key : String) (value : ContextValue) :
    List (String × ContextValue) → List (String × ContextValue)
  | [] => [(key, value)]
  | (k, v) :: rest =>
    if key < k then (key, value) :: (k, v) :: rest
    else if key = k then (key, value) :: rest
    else (k, v) :: insertContext key value rest

/-- `CoreError`: the code, the message, what is said of the circumstances, and what the user can
do. -/
structure CoreError where
  code : ErrorCode
  message : String
  context : List (String × ContextValue)
  remediation : Option String
deriving DecidableEq

/-- `CoreError::new`: a code and a message, and nothing else yet. -/
def CoreError.new (code : ErrorCode) (message : String) : CoreError := ⟨code, message, [], none⟩

/-- `CoreError::with_context`: one more key; a key that is there already has its value replaced. -/
def CoreError.withContext (self : CoreError) (key : String) (value : ContextValue) : CoreError :=
  { self with context := insertContext key value self.context }

/-- `UseCaseError`: the diagnostic together with what was done before the failure, so that the
caller can report both. -/
structure UseCaseError where
  diagnostic : CoreError
  source : Option PortError
  partialReceipts : List MaterializationReceipt
  gitInspection : Option GitInspection
deriving DecidableEq

namespace UseCaseError

/-- `with_partial_receipt`: one more attempt, with the summary of all attempts so far in the
context. -/
def withPartialReceipt (self : UseCaseError) (receipt : MaterializationReceipt) : UseCaseError :=
  let receipts := self.partialReceipts ++ [receipt]
  let incomplete := receipts.any fun attempt => attempt.rollback.status = .incomplete
  let unconfirmedStaging := receipts.any fun attempt => attempt.unconfirmedStaging.isSome
  { self with
    partialReceipts := receipts
    diagnostic := ((self.diagnostic.withContext "materialization_attempt_count"
        (.shown (toString receipts.length))).withContext "rollback_incomplete"
          (.shown (toString incomplete))).withContext "unconfirmed_staging"
            (.shown (toString unconfirmedStaging)) }

/-- `with_public_context`: one more key whose value may be shown. -/
def withPublicContext (self : UseCaseError) (key value : String) : UseCaseError :=
  { self with diagnostic := self.diagnostic.withContext key (.shown value) }

/-- `with_workspace_id`: the workspace that the error is about. -/
def withWorkspaceId (self : UseCaseError) (workspaceId : WorkspaceId) : UseCaseError :=
  self.withPublicContext "workspace_id" workspaceId.toText

/-- `with_remediation`: what the user can do, in place of anything said before. -/
def withRemediation (self : UseCaseError) (remediation : String) : UseCaseError :=
  { self with diagnostic := { self.diagnostic with remediation := some remediation } }

/-- `with_git_inspection`: the inspection that led to the refusal. -/
def withGitInspection (self : UseCaseError) (inspection : Option GitInspection) : UseCaseError :=
  { self with gitInspection := inspection }

/-- A partial receipt does not change the code of an error. -/
@[simp] theorem code_withPartialReceipt (e : UseCaseError) (receipt : MaterializationReceipt) :
    (e.withPartialReceipt receipt).diagnostic.code = e.diagnostic.code := rfl

/-- A workspace identity does not change the code of an error. -/
@[simp] theorem code_withWorkspaceId (e : UseCaseError) (workspaceId : WorkspaceId) :
    (e.withWorkspaceId workspaceId).diagnostic.code = e.diagnostic.code := rfl

end UseCaseError

/-- `semantic_error`: an error of the use case itself, behind which no port failed. -/
def semanticError (code : ErrorCode) (message : String) : UseCaseError :=
  ⟨.new code message, none, [], none⟩

/-! ### Port failures

One table maps the failures of ports to codes: the stage in which the port failed and the
kind of its failure decide.  The message belongs to the code, and what the port has to say
is kept as the source of the error. -/

/-- `Stage`: the part of a use case in which a port failed; the same failure means different things
in different parts. -/
inductive Stage where
  | control | lock | layout | source | metadata
deriving DecidableEq

/-- The public code of a port failure; first arm of `map_port`. -/
def portCode (stage : Stage) (error : PortError) : ErrorCode :=
  match error.kind with
  | .timeout => .lockTimeout
  | .capabilityUnavailable => .capabilityUnavailable
  | .conflict =>
    if error.conflictKind = some .targetPath then .targetConflict else otherCode stage
  | .notEmpty =>
    match stage with
    | .control => .controlNotEmpty
    | .layout => .targetExists
    | .metadata => .metadata
    | .lock | .source => .filesystem
  | .unavailable =>
    if stage = .source ∨ error.materializationPathRole = some .source then .filesystem
    else if stage = .layout then .targetLayout
    else .controlUnavailable
  | .invalidLayout =>
    match stage with
    | .control => .controlLayout
    | .metadata => .metadata
    | .lock | .layout | .source => .targetLayout
  | .io => .filesystem
  | .storage => if stage = .metadata then .metadata else .filesystem
  | .invalidData | .unsupportedVersion | .notFound => otherCode stage
where
  /-- The arms that conflicts and invalid data share. -/
  otherCode : Stage → ErrorCode
    | .metadata => .metadata
    | .control => .controlLayout
    | .layout => .targetLayout
    | .lock | .source => .filesystem

/-- The message of a port failure: one text for each code, whatever the port itself has to say. -/
def portMessage : ErrorCode → String
  | .lockTimeout => "lifecycle lock wait timed out"
  | .capabilityUnavailable => "required platform capability is unavailable"
  | .controlNotEmpty => "control directory is not empty"
  | .controlUnavailable => "fixed control directory is unavailable"
  | .controlLayout => "control directory identity or layout is invalid"
  | .targetLayout => "target path, volume, or ownership layout is invalid"
  | .targetConflict => "target path belongs to another active Workspace"
  | .targetExists => "target path already exists"
  | .metadata => "metadata database validation failed"
  | _ => "filesystem operation failed"

/-- `map_port`: the code and the message follow from the stage and the kind, and the failure itself
is kept as the source. -/
def mapPort (stage : Stage) (error : PortError) : UseCaseError :=
  ⟨.new (portCode stage error) (portMessage (portCode stage error)), some error, [], none⟩

/-! ### Helpers of the remove use case

The errors that only a removal has.  Some of them replace a failure of a port, where the
failure means that the target is gone or is another directory. -/

/-- `missing_target`: the directory of a registered workspace is gone; the registration is kept. -/
def missingTarget (id : WorkspaceId) : UseCaseError :=
  (semanticError .targetMissing
    "registered Workspace target is missing; association is retained").withWorkspaceId id

/-- `missing_target_with_source`: the same, with the failure of the port that noticed it. -/
def missingTargetWithSource (id : WorkspaceId) (source : PortError) : UseCaseError :=
  { missingTarget id with source := some source }

/-- `map_target_port`: a target that is not found is missing, one that is not what was registered
has another identity, and the rest is as for any port. -/
def mapTargetPort (id : WorkspaceId) (error : PortError) : UseCaseError :=
  match error.kind with
  | .notFound | .unavailable => missingTargetWithSource id error
  | .invalidLayout | .invalidData | .conflict =>
    { (semanticError .targetIdentity
        "registered Workspace target identity does not match; association is retained").withWorkspaceId
          id with source := some error }
  | _ => (mapPort .layout error).withWorkspaceId id

/-- `with_process_scan_warning`: an error behind an incomplete scan of the processes says so. -/
def withProcessScanWarning (error : UseCaseError) (processUse : Option ProcessUse) :
    UseCaseError :=
  if processUse = some .scanIncomplete then
    error.withPublicContext "process_use" "scan-incomplete"
  else error

/-- `refusal_code`: one code for each reason to refuse a removal. -/
def refusalCode : RemovalRefusal → ErrorCode
  | .confirmedInUse => .workspaceBusy
  | .gitCheckIncomplete => .gitCheckIncomplete
  | .trackedChanges => .workspaceDirty

/-- `refusal_message`: one message for each reason to refuse a removal. -/
def refusalMessage : RemovalRefusal → String
  | .confirmedInUse => "Workspace is occupied by another process"
  | .gitCheckIncomplete => "tracked-change check is incomplete"
  | .trackedChanges => "Workspace has tracked changes"

/-- `refusal_remediation`: one piece of advice for each reason; only confirmed use cannot be
forced. -/
def refusalRemediation : RemovalRefusal → String
  | .confirmedInUse =>
    "Stop processes using the Workspace and retry; --force does not bypass confirmed use."
  | .gitCheckIncomplete =>
    "Resolve the Git check or use workspace remove <name-or-id> --force to discard the copy."
  | .trackedChanges =>
    "Preserve and commit required work, or use workspace remove <name-or-id> --force to discard the copy."

/-! ### Helpers of the create use case

The errors that only a creation has: plans that cannot be made, and materializations that
failed. -/

/-- `map_plan_error`: what the user is told when no plan can be made for the paths. -/
def mapPlanError : MaterializationPlanError → UseCaseError
  | .candidateUnsupported =>
    semanticError .cowUnavailable "CoW clone is unavailable and Full Copy was not authorized"
  | .fullCopyUnavailable =>
    semanticError .capabilityUnavailable "Full Copy is unavailable for this path combination"
  | .unknownVolume =>
    semanticError .capabilityUnavailable "materialization volume identity is unknown"
  | .wrongFilesystem | .differentVolume | .differentMount =>
    semanticError .targetLayout
      "materialization paths do not satisfy the selected filesystem layout"
  | .unknownMount =>
    semanticError .capabilityUnavailable "materialization mount identity is unknown"
  | _ => semanticError .filesystem "materialization plan cannot be completed"

/-- The refusal of a clone that may not fall back. -/
def cowNotAuthorized (error : PortError) : UseCaseError :=
  { semanticError .cowUnavailable "CoW clone is unavailable and Full Copy was not authorized" with
    source := some error }

/-- `map_materialization_error`, whose first argument is the kind of its second. -/
def mapMaterializationError (error : PortError) : UseCaseError :=
  if error.kind = .capabilityUnavailable then cowNotAuthorized error else mapPort .layout error

end Application
end ThinWorkspace
