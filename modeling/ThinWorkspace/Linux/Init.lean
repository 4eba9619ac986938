/-
# Initialization

Source: `ThinWorkspaceService::init` and `inspect_existing` of
`crates/thinws-application/src/lib.rs`, with the Linux adapter as its bootstrap
store, and `initialize` and `inspect` of `crates/thinws-metadata-sqlite/src/lib.rs`
as far as they concern the installation.

The order is that of the source: the marker claims the control root, the layout and the
database follow, then the Ready marker, and the config is last, so that a run that stops
leaves nothing that a later one would take for an installation.
-/

import ThinWorkspace.Application.Error
import ThinWorkspace.Linux.Publication

namespace ThinWorkspace
namespace Linux

open ThinWorkspace.Core Lib Ports
open Application (Stage UseCaseError mapPort semanticError)

/-! ### Metadata

The store decides by the pragmas of the database whether to initialize or to validate.  In
either case the installation is read back at the end. -/

/-- The decision of `open_or_initialize`: an empty database is initialized, one of this program and
version is opened, and everything else is refused by what it seems to be. -/
def initializes (applicationId userVersion : ℤ) (userTableCount : ℕ) : Except PortError Bool :=
  if applicationId = 0 ∧ userVersion = 0 ∧ userTableCount = 0 then .ok true
  else if applicationId = sqliteApplicationId ∧ userVersion = sqliteSchemaVersion then .ok false
  else if applicationId = sqliteApplicationId ∧ sqliteSchemaVersion < userVersion then
    .error (.new .unsupportedVersion "open future metadata schema")
  else if applicationId = 0 then
    .error (.new .unsupportedVersion "refuse unowned metadata database")
  else if applicationId = sqliteApplicationId then
    .error (.new .invalidData "validate metadata schema version")
  else .error (.new .unsupportedVersion "refuse foreign metadata database")

/-- `validate_existing_database`: program, version, catalog and installation, each of which may be
refused by itself. -/
def validateExistingDatabase (expected : InstallationRecord) : Control Unit := do
  let applicationId ← callOr .readApplicationId id
  let userVersion ← callOr .readUserVersion id
  ensure (applicationId = sqliteApplicationId)
    (.new .unsupportedVersion "validate SQLite application ID")
  ensure (userVersion = sqliteSchemaVersion)
    (.new (if sqliteSchemaVersion < userVersion then .unsupportedVersion else .invalidData)
      "validate SQLite schema version")
  callOr .validateSchemaCatalog id
  let actual ← callOr .readInstallation id
  ensure (actual.identity = expected.identity)
    (.conflict "validate installation identity" .installationIdentity)

/-- The two ways of `open_or_initialize`: the schema is written in one transaction, or what is
there is validated before the connection is configured. -/
def migrateOrValidate (installation : InstallationRecord) : Bool → Control Unit
  | true => do
    callOr .configureConnection id
    callOr (.migrate installation) id
  | false => do
    validateExistingDatabase installation
    callOr .configureConnection id

/-- `open_or_initialize`: whichever way was taken, the installation is read back and compared. -/
def openOrInitialize (installation : InstallationRecord) : Control InstallationRecord := do
  let applicationId ← callOr .readApplicationId id
  let userVersion ← callOr .readUserVersion id
  let userTableCount ← callOr .readUserTableCount id
  let fresh ← liftExcept id (initializes applicationId userVersion userTableCount)
  migrateOrValidate installation fresh
  let actual ← callOr .readInstallation id
  ensure (actual.identity = installation.identity)
    (.conflict "validate installation identity" .installationIdentity)
  pure actual

/-- `MetadataStoreFactory::initialize`: the layout is revalidated around the opening of the
database and again at the end. -/
def initializeMetadata (expected : InstallationRecord) : Control InstallationRecord := do
  callOr .layoutRevalidate id
  callOr .openDatabase id
  callOr .layoutRevalidate id
  let installation ← openOrInitialize expected
  callOr .layoutRevalidate id
  pure installation

/-- `MetadataStoreFactory::inspect`, as the installation of its snapshot; nothing is written. -/
def inspectInstallation (expected : InstallationRecord) : Control InstallationRecord := do
  callOr .layoutRevalidate id
  callOr .openDatabase id
  callOr .layoutRevalidate id
  validateExistingDatabase expected
  let installation ← callOr .readInstallation id
  callOr .readSnapshotRows id
  callOr .layoutRevalidate id
  pure installation

/-! ### The use case

The use case, with the adapters' functions as its parts.  The metadata are filled first,
then the Ready marker is published, and the config last. -/

/-- `InitRequest`: where the installation is to be, and the moment of the request. -/
structure InitRequest where
  dataRoot : AbsolutePath
  now : UnixMillis

/-- `InitResult`: whether this run made the installation or found it. -/
inductive InitResult where
  | initialized | alreadyInitialized
deriving DecidableEq

/-- `InitOutcome`: the result, with the installation that is there in either case. -/
structure InitOutcome where
  result : InitResult
  installation : InstallationRecord

/-- The use case, or a part of it: the calls are those of the adapters, the errors those of the
application. -/
abbrev Init (α : Type) := Program ControlCall ControlCall.Result UseCaseError α

/-- `.map_err(|error| map_port(stage, error))?`: a part of an adapter, whose failure is reported
for the stage it occurred in. -/
abbrev atStage {α : Type} (stage : Stage) (x : Control α) : Init α := x.mapError (mapPort stage)

/-- `error` unless `p` holds: a check of the use case itself, behind which no port failed. -/
def require (p : Prop) [Decidable p] (error : UseCaseError) : Init Unit :=
  if p then pure () else throw error

variable (euid : UInt32) (controlRoot : AbsolutePath) (toml : TomlLibrary)

/-- `require_ready_marker`: the marker is there, complete, and names this installation. -/
def requireReadyMarker (identity : InstallationIdentity) : Init Unit := do
  let marker ← atStage .control (readRootMarker controlRoot toml identity.dataRoot)
  require (marker = some ⟨identity, .ready⟩)
    (semanticError .controlLayout "control-root marker is missing, incomplete, or inconsistent")

/-- `inspect_existing`, as the installation of its snapshot: layout and marker are checked before
and after the metadata are read. -/
def inspectExisting (identity : InstallationIdentity) (placeholderTime : UnixMillis) :
    Init InstallationRecord := do
  let _ ← atStage .control (callOr (.validateLayout identity) id)
  requireReadyMarker controlRoot toml identity
  let installation ← atStage .metadata (inspectInstallation ⟨identity, placeholderTime⟩)
  atStage .control (callOr .layoutRevalidate id)
  requireReadyMarker controlRoot toml identity
  pure installation

/-- `init` of a registered control root: the config names the location asked for, and everything
behind it fits together. -/
def verifyExisting (request : InitRequest) (identity : InstallationIdentity) :
    Init InitOutcome := do
  require (identity.dataRoot = request.dataRoot)
    (semanticError .controlLayout "registered control root does not match the fixed location")
  let installation ← inspectExisting controlRoot toml identity request.now
  pure ⟨.alreadyInitialized, installation⟩

/-- `init` from the metadata on: the database is filled first, the Ready marker follows, and the
config comes last. -/
def publishInstallation (lock : LockGuard) (proof : InitializingProof)
    (expected : InstallationRecord) : Init InitOutcome := do
  let installation ← atStage .metadata (initializeMetadata expected)
  atStage .control (callOr .layoutRevalidate id)
  let ready ← atStage .control (publishReady euid controlRoot toml lock proof)
  require (ready.state = .ready ∧ ready.identity = installation.identity)
    (semanticError .controlLayout "published root marker does not match metadata")
  let _ ← atStage .control (publishConfig euid controlRoot toml lock installation.identity)
  pure ⟨.initialized, installation⟩

/-- `init` of a control root without a config: a fresh identifier, the initializing marker, the
layout, and then the publication. -/
def initializeNew (request : InitRequest) (lock : LockGuard) : Init InitOutcome := do
  let prepared ← atStage .control (prepareDataRoot euid controlRoot request.dataRoot)
  match ← (Program.perform .newUuid : Init _) with
  | .error e => nomatch e
  | .ok instanceId => do
    let identity : InstallationIdentity := ⟨instanceId, prepared.dataRoot, prepared.volumeId⟩
    let proof ← atStage .control (createInitializing euid controlRoot toml lock prepared identity)
    atStage .control (initializeLayout euid controlRoot toml lock proof)
    publishInstallation euid controlRoot toml lock proof ⟨identity, request.now⟩

/-- `ThinWorkspaceService::init`: under the bootstrap lock, and by what the config says at that
moment. -/
def init (request : InitRequest) : Init InitOutcome := do
  let _ ← atStage .control (callOr .preparePrivateDirectory id)
  let lock ← atStage .control (callOr .acquireBootstrap id)
  let current ← atStage .control (readConfig controlRoot toml)
  atStage .control (callOr (.lockRevalidate lock) id)
  match current with
  | some identity => verifyExisting controlRoot toml request identity
  | none => initializeNew euid controlRoot toml request lock

end Linux
end ThinWorkspace
