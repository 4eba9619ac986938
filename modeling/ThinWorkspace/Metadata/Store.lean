/-
# The metadata store

Source: `crates/thinws-metadata-sqlite/src/lib.rs`, the `MetadataStore` methods
and the row decoder.  Each method is a session on the database of
`ThinWorkspace.Metadata.Schema`: its statements in the source's order, each of
which may also fail for input/output reasons, with the two methods that take an
explicit transaction written as one.

A `PortError` of a method carries the source's kind, operation label and
conflict category.
-/

import ThinWorkspace.Lib.Session
import ThinWorkspace.Metadata.ReceiptJson
import ThinWorkspace.Metadata.Schema

namespace ThinWorkspace
namespace Metadata

open ThinWorkspace.Core Lib Ports

/-- A method of the store: a session on the database, which may fail with a port error and then
leaves what its transactions leave. -/
abbrev Store (α : Type) := Session Database PortError α

/-- `storage_error`: the database itself failed, whatever it was asked. -/
def storageError (operation : String) : PortError := .new .storage operation

/-- `invalid_data`: what was read is not what the program writes. -/
def invalidData (operation : String) : PortError := .new .invalidData operation

/-- `update_error`: a constraint reports invalid data, anything else storage. -/
def updateError (operation : String) : SqlError → PortError
  | .constraint => invalidData operation
  | .storage => storageError operation

/-! ### Row decoding

The decoder of a row, column by column in the order of the source, with the label of the
operation in the error of each.  The rows that the store writes are defined beside it. -/

/-- A decoded column, or the refusal labelled with its operation. -/
def decoded {ε α : Type} (operation : String) : Except ε α → Except PortError α
  | .ok a => .ok a
  | .error _ => .error (invalidData operation)

/-- `decoded`, for a parser without an error value: the failure says which field could not be
decoded. -/
def decodedOption {α : Type} (operation : String) : Option α → Except PortError α
  | some a => .ok a
  | none => .error (invalidData operation)

/-- The stored form of a Boolean: one, or zero, and nothing else. -/
def decodeAllowFullCopy (value : ℤ) : Except PortError Bool :=
  if value = 0 then .ok false
  else if value = 1 then .ok true
  else .error (invalidData "decode full-copy permission")

/-- The stored error code, `Option::transpose` included: no code is no failure, and an unknown code
is one. -/
def decodeErrorCode : Option String → Except PortError (Option ErrorCode)
  | none => .ok none
  | some value => (decodedOption "decode Workspace error code" (ErrorCode.fromStr value)).map some

/-- `RawWorkspace::into_record`: every column is decoded in the order of the source, and the record
is built by its own constructor, so that its relations are checked too. -/
def WorkspaceRow.intoRecord (row : WorkspaceRow) : Except PortError WorkspaceRecord := do
  let workspaceId ← decoded "decode Workspace ID" (WorkspaceId.fromText row.workspaceId)
  let instanceId ← decoded "decode instance ID" (UuidV7.fromText row.instanceId)
  let name ← decoded "decode Workspace name" (WorkspaceName.tryFrom row.name)
  let sourcePath ← decoded "decode source path" (AbsolutePath.tryFromBytes row.sourcePath)
  let targetPath ← decoded "decode target path" (AbsolutePath.tryFromBytes row.targetPath)
  let sourceVolumeId ← decodedOption "decode source volume" (VolumeId.fromText row.sourceVolumeId)
  let targetVolumeId ← decodedOption "decode target volume" (VolumeId.fromText row.targetVolumeId)
  let allowFullCopy ← decodeAllowFullCopy row.allowFullCopy
  let createdAt ← decodedOption "decode creation timestamp" (UnixMillis.new row.createdAt)
  let state ← decodedOption "decode Workspace state" (WorkspaceState.fromStr row.state)
  let lastErrorCode ← decodeErrorCode row.lastErrorCode
  let updatedAt ← decodedOption "decode update timestamp" (UnixMillis.new row.updatedAt)
  decoded "validate Workspace row"
    (WorkspaceRecord.new
      { workspaceId, instanceId, name, sourcePath, targetPath, sourceVolumeId, targetVolumeId,
        allowFullCopy, createdAt }
      state lastErrorCode updatedAt)

/-- The columns an `INSERT INTO workspaces` binds: a new workspace is being created, without an
error, and was last changed when it was made. -/
def reservationRow (reservation : WorkspaceReservation) : WorkspaceRow where
  workspaceId := reservation.workspaceId.toText
  instanceId := reservation.instanceId.toText
  name := reservation.name.asStr
  sourcePath := reservation.sourcePath.asBytes
  targetPath := reservation.targetPath.asBytes
  sourceVolumeId := reservation.sourceVolumeId.toText
  targetVolumeId := reservation.targetVolumeId.toText
  allowFullCopy := if reservation.allowFullCopy then 1 else 0
  state := "creating"
  lastErrorCode := none
  createdAt := reservation.createdAt.get
  updatedAt := reservation.createdAt.get

/-- The columns a guarded `UPDATE workspaces` sets; all the others stay as they are. -/
def WorkspaceRow.stamped (row : WorkspaceRow) (state : WorkspaceState) (code : Option ErrorCode)
    (updatedAt : UnixMillis) : WorkspaceRow :=
  { row with
    state := state.asStr, lastErrorCode := code.map ErrorCode.asStr, updatedAt := updatedAt.get }

/-- The `installation` row written by `apply_v2`, from which every later call reads the identity
back. -/
def installationRow (installation : InstallationRecord) : InstallationRow where
  instanceId := installation.identity.instanceId.toText
  controlRoot := installation.identity.dataRoot.asBytes
  controlVolumeId := installation.identity.volumeId.toText
  createdAt := installation.createdAt.get

/-- The database `initialize_empty_database` leaves: the installation, and three empty tables. -/
def Database.initialized (installation : InstallationRecord) : Database where
  installation := installationRow installation
  workspaces := []
  receipts := []
  tombstones := []

/-! ### Reads

The reading methods.  Each reads its rows in one statement, and fails as a whole when one
row cannot be decoded. -/

/-- `read_workspace`: the record of an identifier, if there is a row; a row that cannot be decoded
is a failure. -/
def readWorkspace (workspaceId : WorkspaceId) : Store (Option WorkspaceRecord) := do
  match ← Session.query (storageError "read Workspace")
      fun db => db.selectWorkspace workspaceId.toText with
  | none => pure none
  | some row => Session.ofExcept (row.intoRecord.map some)

/-- The order of a list: `ORDER BY name COLLATE BINARY, workspace_id`. -/
def WorkspaceRow.listedBefore (a b : WorkspaceRow) : Bool :=
  a.name < b.name || (a.name == b.name && a.workspaceId ≤ b.workspaceId)

/-- `MetadataStore::workspaces`; one row that cannot be decoded fails the list. -/
def workspaces : Store (List WorkspaceRecord) := do
  let rows ← Session.query (storageError "query Workspace list")
    fun db => db.workspaces.mergeSort WorkspaceRow.listedBefore
  Session.ofExcept (rows.mapM WorkspaceRow.intoRecord)

/-- `MetadataStore::deletion_tombstone`: a tombstone of another installation is a conflict and is
not handed out. -/
def deletionTombstone (installation : InstallationRecord) (workspaceId : WorkspaceId) :
    Store (Option DeletionTombstone) := do
  match ← Session.query (storageError "read Workspace deletion tombstone")
      fun db => db.selectTombstone workspaceId.toText with
  | none => pure none
  | some row => Session.ofExcept do
    let instanceId ← decoded "parse deletion instance ID" (UuidV7.fromText row.instanceId)
    if instanceId ≠ installation.identity.instanceId then
      throw (.conflict "read Workspace deletion tombstone" .installationIdentity)
    let deletedAt ← decodedOption "parse deletion time" (UnixMillis.new row.deletedAt)
    pure (some ⟨workspaceId, instanceId, deletedAt⟩)

/-- `read_final_materialization`: the summary of the stored document, for the volume that the
workspace lies on. -/
def readFinalMaterialization (json : JsonLibrary) (workspaceId : WorkspaceId)
    (volumeId : VolumeId) : Store (Option FinalMaterializationSummary) := do
  match ← Session.query (storageError "read final receipt")
      fun db => db.selectReceipt workspaceId.toText with
  | none => pure none
  | some row =>
    Session.ofExcept
      ((decodeFinalSummary json row.receiptSchemaVersion row.receiptJson volumeId).map some)

/-- `read_workspaces_by_workspace_id`: all records in the order of their identifiers; one that
cannot be decoded fails the whole. -/
def readWorkspacesByWorkspaceId : Store (List WorkspaceRecord) := do
  let rows ← Session.query (storageError "query Workspace snapshot")
    fun db => db.workspaces.mergeSort fun a b => decide (a.workspaceId ≤ b.workspaceId)
  Session.ofExcept (rows.mapM WorkspaceRow.intoRecord)

/-- The loop of `inspect`: the summaries of the listed workspaces. -/
def readSummaries (json : JsonLibrary) :
    List WorkspaceRecord → Store (List (WorkspaceId × FinalMaterializationSummary))
  | [] => pure []
  | workspace :: rest => do
    let workspaceId := workspace.reservation.workspaceId
    match ← readFinalMaterialization json workspaceId workspace.reservation.targetVolumeId with
    | some summary => do
      let summaries ← readSummaries json rest
      pure ((workspaceId, summary) :: summaries)
    | none => do
      Session.require (workspace.state ≠ .ready)
        (invalidData "Ready workspace is missing its final receipt")
      readSummaries json rest

/-- The transaction of `MetadataStoreFactory::inspect`, once the schema and the
installation are validated. -/
def inspect (json : JsonLibrary) :
    Store (List WorkspaceRecord × List (WorkspaceId × FinalMaterializationSummary)) :=
  Session.transaction (storageError "begin read-only metadata snapshot")
    (storageError "finish read-only metadata snapshot") do
  let workspaces ← readWorkspacesByWorkspaceId
  let finalMaterializations ← readSummaries json workspaces
  pure (workspaces, finalMaterializations)

/-- `MetadataStore::final_materialization`: the volume of the target, which the summary is checked
against, comes from the row. -/
def finalMaterialization (json : JsonLibrary) (workspaceId : WorkspaceId) :
    Store (Option FinalMaterializationSummary) := do
  match ← readWorkspace workspaceId with
  | none => pure none
  | some workspace =>
    readFinalMaterialization json workspaceId workspace.reservation.targetVolumeId

/-! ### Reservation

The insertion is one statement.  Where it is refused, further queries find out which of the
unique values is taken, so that the caller can be told. -/

/-- `classify_reservation_error`: which resource a refused insertion collided
with.  The query that finds out may itself fail, and then nothing is known. -/
def classifyReservationError (reservation : WorkspaceReservation) {α : Type} :
    SqlError → Store α
  | .storage => throw (storageError "reserve workspace")
  | .constraint => do
    let conflict : Option PortConflict ← Session.handle
      (Session.query () fun db =>
        if db.workspaces.any (fun r => r.workspaceId == reservation.workspaceId.toText) ||
            db.tombstones.any (fun t => t.workspaceId == reservation.workspaceId.toText) then
          some .workspaceId
        else if db.workspaces.any fun r => r.name == reservation.name.asStr then
          some .workspaceName
        else if db.workspaces.any fun r => r.targetPath == reservation.targetPath.asBytes then
          some .targetPath
        else none)
      fun _ => pure none
    match conflict with
    | some conflict => throw (.conflict "reserve workspace" conflict)
    | none => throw (invalidData "reserve workspace")

/-- `MetadataStore::reserve_workspace`: the row is inserted, and a refused insert is classified by
what is in its way. -/
def reserveWorkspace (installation : InstallationRecord) (reservation : WorkspaceReservation) :
    Store WorkspaceRecord := do
  Session.require (reservation.instanceId = installation.identity.instanceId ∧
      reservation.sourceVolumeId = reservation.targetVolumeId)
    (.conflict "reserve workspace" .installationIdentity)
  Session.handle
    (Session.exec .storage fun db => db.insertWorkspace (reservationRow reservation))
    (classifyReservationError reservation)
  Session.ofExcept (decoded "build reserved workspace"
    (WorkspaceRecord.new reservation .creating none reservation.createdAt))

/-! ### Completion

A completion checks plan and receipt against the record, prints the document, and writes the
receipt and the state in one transaction. -/

/-- The five checks of `complete_materialization` on plan and receipt. -/
def receiptAccepted (reservation : WorkspaceReservation) (plan : MaterializationPlan)
    (receipt : MaterializationReceipt) : Bool :=
  ((plan.sourcePath, plan.targetPath, plan.sourceVolumeId, plan.targetVolumeId) ==
      (reservation.sourcePath, reservation.targetPath, reservation.sourceVolumeId,
        reservation.targetVolumeId)) &&
    (plan.fallbackReason.isNone || reservation.allowFullCopy) &&
    ((receipt.probeEvidenceDigest, receipt.requestedMode, receipt.effectiveMode,
        receipt.actualMode, receipt.actualAdapter, receipt.sourceVolumeId,
        receipt.targetVolumeId, receipt.fallbackReason, receipt.failedAttempts) ==
      (plan.probeEvidenceDigest, plan.requestedMode, plan.effectiveMode,
        plan.effectiveMode, plan.selectedAdapter, some plan.sourceVolumeId,
        some plan.targetVolumeId, plan.fallbackReason, plan.failedAttempts)) &&
    (receipt.outcome == .succeeded && receipt.failureKind.isNone &&
      receipt.unconfirmedStaging.isNone && receipt.rollback.status == .notNeeded) &&
    (receipt.sourceManifestDigest.isSome &&
      receipt.sourceManifestDigest == receipt.targetManifestDigest)

/-- `MetadataStore::complete_materialization`: receipt and state change in one transaction, and the
record is read back inside it. -/
def completeMaterialization (json : JsonLibrary) (workspaceId : WorkspaceId)
    (plan : MaterializationPlan) (receipt : MaterializationReceipt) (recordedAt : UnixMillis) :
    Store WorkspaceRecord :=
  Session.transaction (storageError "begin final receipt transaction")
    (storageError "commit final receipt transaction") do
  match ← readWorkspace workspaceId with
  | none => throw (.new .notFound "complete materialization")
  | some record =>
    Session.require (record.state = .creating)
      (.conflict "complete materialization" .expectedState)
    let _ ← Session.ofExcept (decoded "validate Ready transition"
      (record.state.transition .materialized))
    Session.require (receiptAccepted record.reservation plan receipt = true)
      (invalidData "validate final receipt against Workspace and Plan")
    Session.mapError (updateError "insert final receipt")
      (Session.exec .storage fun db => db.insertReceipt json.jsonValid
        { workspaceId := workspaceId.toText
          receiptSchemaVersion := receiptSchemaVersion
          receiptJson := json.toText (finalReceiptJson receipt)
          recordedAt := recordedAt.get })
    let changed ← Session.mapError (updateError "complete materialization")
      (Session.exec .storage fun db => db.updateWorkspace workspaceId.toText "creating"
        fun row => row.stamped .ready none recordedAt)
    Session.require (changed = 1) (.conflict "complete materialization" .expectedState)
    match ← readWorkspace workspaceId with
    | none => throw (.conflict "read Ready Workspace" .expectedState)
    | some ready => pure ready

/-! ### Guarded updates

The two guarded transitions share one update that expects a state, and a read of the row
behind it.  The update is not part of a transaction; the theorem on atomicity is about this.
-/

/-- `finish_expected_update`: an update that changed no row found none, or one in another state;
behind one that did, the record is read again. -/
def finishExpectedUpdate (workspaceId : WorkspaceId) (expected : WorkspaceState)
    (operation : String) (changed : ℕ) : Store WorkspaceRecord := do
  if changed = 0 then
    match ← readWorkspace workspaceId with
    | none => throw (.new .notFound operation)
    | some _ => throw (.conflict operation .expectedState)
  else
    match ← readWorkspace workspaceId with
    | none => throw (.conflict operation .expectedState)
    | some record =>
      Session.require (record.state ≠ expected) (.conflict operation .expectedState)
      pure record

/-- `require_expected`: the record in the expected state, where a transition changes nothing. -/
def requireExpected (workspaceId : WorkspaceId) (expected : WorkspaceState)
    (operation : String) : Store WorkspaceRecord := do
  match ← readWorkspace workspaceId with
  | none => throw (.new .notFound operation)
  | some record =>
    Session.require (record.state = expected) (.conflict operation .expectedState)
    pure record

/-- The `UPDATE workspaces … WHERE workspace_id = ? AND state = ?` the two guarded
transitions share, with the read-back that follows it. -/
def expectedUpdate (workspaceId : WorkspaceId) (expected : WorkspaceState) (operation : String)
    (assign : WorkspaceRow → WorkspaceRow) : Store WorkspaceRecord := do
  let changed ← Session.mapError (updateError operation)
    (Session.exec .storage fun db =>
      db.updateWorkspace workspaceId.toText expected.asStr assign)
  finishExpectedUpdate workspaceId expected operation changed

/-- `MetadataStore::record_failure`: the state machine is asked first, so a transition it refuses
reaches no statement. -/
def recordFailure (workspaceId : WorkspaceId) (expected : WorkspaceState)
    (errorCode : ErrorCode) (updatedAt : UnixMillis) : Store WorkspaceRecord := do
  let _ ← Session.ofExcept (decoded "validate failure transition" (expected.transition .failed))
  expectedUpdate workspaceId expected "record Workspace failure" fun row =>
    row.stamped .error (some errorCode) updatedAt

/-- `MetadataStore::begin_removal`: a removal that has begun before is confirmed without an update.
-/
def beginRemoval (workspaceId : WorkspaceId) (expected : WorkspaceState) (mode : RemovalMode)
    (updatedAt : UnixMillis) : Store WorkspaceRecord := do
  let next ← Session.ofExcept (decoded "validate removal transition"
    (expected.transition (.beginRemoval mode)))
  if next = expected then requireExpected workspaceId expected "reaffirm Workspace removal"
  else
    expectedUpdate workspaceId expected "begin Workspace removal" fun row =>
      row.stamped .deleting none updatedAt

/-! ### Deletion

A deletion writes the tombstone, deletes the row and looks at the counts, in one
transaction. -/

/-- `MetadataStore::complete_deletion`: the tombstone is written and the row deleted in one
transaction. -/
def completeDeletion (workspaceId : WorkspaceId) (instanceId : InstanceId)
    (deletedAt : UnixMillis) : Store DeletionTombstone :=
  Session.transaction (storageError "begin deletion transaction")
    (storageError "commit deletion transaction") do
  match ← Session.query (storageError "read deleting Workspace")
      fun db => db.selectWorkspace workspaceId.toText with
  | none => throw (.new .notFound "complete Workspace deletion")
  | some row =>
    Session.require (row.instanceId = instanceId.toText)
      (.conflict "complete Workspace deletion" .installationIdentity)
    Session.require (row.state = WorkspaceState.deleting.asStr)
      (.conflict "complete Workspace deletion" .expectedState)
    Session.mapError (fun _ => storageError "write deletion tombstone")
      (Session.exec .storage fun db => db.insertTombstone
        { workspaceId := workspaceId.toText
          instanceId := instanceId.toText
          deletedAt := deletedAt.get })
    let deleted ← Session.mapError (fun _ => storageError "delete active Workspace row")
      (Session.exec .storage fun db => db.deleteWorkspace workspaceId.toText)
    Session.require (deleted = 1) (.conflict "delete active Workspace row" .expectedState)
    pure ⟨workspaceId, instanceId, deletedAt⟩

end Metadata
end ThinWorkspace
