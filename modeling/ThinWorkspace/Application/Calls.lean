/-
# The port calls of the use cases

A use case is a `Program` over `PortCall`: every call it makes on the bootstrap
store, the lifecycle lock, the metadata store, the probe, the materializers, the
Git inspector, the process probe and the identifier generator.  The descriptors
behind a lock, a layout or a prepared workspace are held by the adapter and only
handed back to it, so a call names what the use case knows of them.

`portEnvironment` is the world the use cases are judged in.  A metadata call is a
session of `ThinWorkspace.Metadata` on the database, or fails without effect;
every other call may have any result.  The world also keeps the list of the calls
made so far with their results.
-/

import ThinWorkspace.Application.Error
import ThinWorkspace.Lib.Program
import ThinWorkspace.Metadata.Change

namespace ThinWorkspace
namespace Application

open ThinWorkspace.Core Lib Ports
open Metadata (Store Database)

/-- One call of a port with its arguments. -/
inductive PortCall where
  | readConfig
  | validateLayout (identity : InstallationIdentity)
  | acquireDataRoot (dataRoot : AbsolutePath)
  | lockRevalidate
  | layoutRevalidate
  | readRootMarker (dataRoot : AbsolutePath)
  | openExisting (expected : InstallationRecord)
  | inspectMetadata (expected : InstallationRecord)
  | workspaces
  | workspace (id : WorkspaceId)
  | deletionTombstone (id : WorkspaceId)
  | finalMaterialization (id : WorkspaceId)
  | reserveWorkspace (reservation : WorkspaceReservation)
  | completeMaterialization (id : WorkspaceId) (plan : MaterializationPlan)
      (receipt : MaterializationReceipt) (recordedAt : UnixMillis)
  | recordFailure (id : WorkspaceId) (expected : WorkspaceState) (code : ErrorCode)
      (updatedAt : UnixMillis)
  | beginRemoval (id : WorkspaceId) (expected : WorkspaceState) (mode : RemovalMode)
      (updatedAt : UnixMillis)
  | completeDeletion (id : WorkspaceId) (instanceId : InstanceId) (deletedAt : UnixMillis)
  | inspectPath (path : AbsolutePath)
  | inspectMaterializationPaths (request : MaterializationPathProbeRequest)
  | prepareWorkspace (id : WorkspaceId) (target : AbsolutePath)
  | preparedRevalidate (prepared : PreparedWorkspace)
  | clearWorkspaceIncomplete (prepared : PreparedWorkspace)
  | cloneMaterialize (request : MaterializeRequest) (plan : MaterializationPlan)
  | copyMaterialize (request : MaterializeRequest) (plan : MaterializationPlan)
  | validateReadyWorkspace (reservation : WorkspaceReservation)
  | measureReadyWorkspaceSpace (reservation : WorkspaceReservation)
  | inspectRemovalContainer (reservation : WorkspaceReservation)
  | appendRemovalLog (record : RemovalLogRecord)
  | removeWorkspace (reservation : WorkspaceReservation)
  | gitInspect (copyRoot : AbsolutePath)
  | processInspect (container : AbsolutePath)
  | newOperationId
  | newWorkspaceId
deriving DecidableEq

/-- What a call returns. -/
@[reducible] def PortCall.Result : PortCall → Type
  | .readConfig => Except PortError (Option InstallationIdentity)
  | .validateLayout _ => Except PortError Unit
  | .acquireDataRoot _ => Except PortError Unit
  | .lockRevalidate => Except PortError Unit
  | .layoutRevalidate => Except PortError Unit
  | .readRootMarker _ => Except PortError (Option RootMarker)
  | .openExisting _ => Except PortError Unit
  | .inspectMetadata _ => Except PortError MetadataSnapshot
  | .workspaces => Except PortError (List WorkspaceRecord)
  | .workspace _ => Except PortError (Option WorkspaceRecord)
  | .deletionTombstone _ => Except PortError (Option DeletionTombstone)
  | .finalMaterialization _ => Except PortError (Option FinalMaterializationSummary)
  | .reserveWorkspace _ => Except PortError WorkspaceRecord
  | .completeMaterialization _ _ _ _ => Except PortError WorkspaceRecord
  | .recordFailure _ _ _ _ => Except PortError WorkspaceRecord
  | .beginRemoval _ _ _ _ => Except PortError WorkspaceRecord
  | .completeDeletion _ _ _ => Except PortError DeletionTombstone
  | .inspectPath _ => Except PortError PathCapabilityReport
  | .inspectMaterializationPaths _ => Except PortError MaterializationPathReport
  | .prepareWorkspace _ _ => Except PortError PreparedWorkspace
  | .preparedRevalidate _ => Except PortError Unit
  | .clearWorkspaceIncomplete _ => Except PortError Unit
  | .cloneMaterialize _ _ => Except MaterializationFailure MaterializationReceipt
  | .copyMaterialize _ _ => Except MaterializationFailure MaterializationReceipt
  | .validateReadyWorkspace _ => Except PortError AbsolutePath
  | .measureReadyWorkspaceSpace _ => Except PortError WorkspaceSpace
  | .inspectRemovalContainer _ => Except PortError (Option AbsolutePath)
  | .appendRemovalLog _ => Except PortError AbsolutePath
  | .removeWorkspace _ => Except PortError WorkspaceRemoval
  | .gitInspect _ => GitInspection
  | .processInspect _ => Except PortError ProcessObservation
  | .newOperationId => OperationId
  | .newWorkspaceId => WorkspaceId

/-- A use case, or a part of one. -/
abbrev UseCase (α : Type) := Program PortCall PortCall.Result UseCaseError α

/-- Makes a call. -/
abbrev call (c : PortCall) : UseCase c.Result := Program.perform c

/-- `.map_err(|error| map_port(stage, error))?` after a call. -/
abbrev port {α : Type} (stage : Stage) (x : UseCase (Except PortError α)) : UseCase α :=
  x.orFail (mapPort stage)

/-- A value that may be missing, or the failure that stands for it. -/
def orMissing {α : Type} (error : UseCaseError) : Option α → UseCase α
  | some a => pure a
  | none => throw error

/-- An early `return Err(error)` unless `p` holds. -/
def unlessFail (p : Prop) [Decidable p] (error : UseCaseError) : UseCase Unit :=
  if p then pure () else throw error

/-! ### The world

The world is the database and the history of the calls.  A call on the metadata has the
effect its session has, or fails with that effect or with none; every other call may answer
anything of its type and leaves the database.  So a theorem about all runs here covers every
answer that a port could give. -/

/-- A call that was made, with its result. -/
structure Event where
  call : PortCall
  result : call.Result

/-- The database, and the calls made so far. -/
structure World where
  db : Database
  history : List Event

/-- A metadata call: it returns what its session returns, or fails, with the
effect its session had or with none. -/
inductive StoreStep {α : Type} (session : Store α) (db : Database) :
    Except PortError α → Database → Prop
  | returned {faults : List Bool} {a : α} {c : Connection Database}
      (run : session ⟨db, faults⟩ = .ok a c) : StoreStep session db (.ok a) c.data
  | interrupted {faults : List Bool} {e : PortError} {c : Connection Database}
      (run : session ⟨db, faults⟩ = .error e c) : StoreStep session db (.error e) c.data
  | refused {e : PortError} : StoreStep session db (.error e) db

variable (json : JsonLibrary) (installation : InstallationRecord)

/-- `MetadataStoreFactory::inspect`, as the snapshot that a use case reads. -/
def inspectSnapshot : Store MetadataSnapshot := do
  let (workspaces, finalMaterializations) ← Metadata.inspect json
  pure ⟨workspaces, finalMaterializations⟩

/-- What a call may do to the database. -/
def PortCall.effect (db : Database) : (c : PortCall) → c.Result → Database → Prop
  | .inspectMetadata _ => StoreStep (inspectSnapshot json) db
  | .workspaces => StoreStep Metadata.workspaces db
  | .workspace id => StoreStep (Metadata.readWorkspace id) db
  | .deletionTombstone id => StoreStep (Metadata.deletionTombstone installation id) db
  | .finalMaterialization id => StoreStep (Metadata.finalMaterialization json id) db
  | .reserveWorkspace reservation =>
    StoreStep (Metadata.reserveWorkspace installation reservation) db
  | .completeMaterialization id plan receipt recordedAt =>
    StoreStep (Metadata.completeMaterialization json id plan receipt recordedAt) db
  | .recordFailure id expected code updatedAt =>
    StoreStep (Metadata.recordFailure id expected code updatedAt) db
  | .beginRemoval id expected mode updatedAt =>
    StoreStep (Metadata.beginRemoval id expected mode updatedAt) db
  | .completeDeletion id instanceId deletedAt =>
    StoreStep (Metadata.completeDeletion id instanceId deletedAt) db
  | _ => fun _ db' => db' = db

/-- The world of the use cases. -/
def portEnvironment : Environment PortCall PortCall.Result World where
  step w c r w' := w'.history = w.history ++ [⟨c, r⟩] ∧ c.effect json installation w.db r w'.db

end Application
end ThinWorkspace
