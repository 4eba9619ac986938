/-
# Publication of the control documents

Source: `crates/thinws-adapter-linux/src/publication.rs` and the parts of
`control.rs` it uses.  A document is written under a temporary name, synced, and
published by a rename that replaces nothing, or by an exchange with the document it
succeeds.  A temporary file that is dropped while it is active removes itself.
-/

import ThinWorkspace.Linux.Control

namespace ThinWorkspace
namespace Linux

open ThinWorkspace.Core Lib Ports

/-- Makes a call.  Its failure is a value of the answer, so that the program can react to it as the
source does with a `match`. -/
abbrev call (c : ControlCall) : Control c.Result := Program.perform c

/-- A call whose failure ends the program, reported in the terms of the caller: the source's
`map_err` followed by `?`. -/
abbrev callOr (c : ControlCall) (f : c.Error → PortError) : Control c.Value :=
  Program.orFail f (call c)

/-- `error` unless `p` holds: the form of the source's checks that return early, with the text and
the field of the error at hand. -/
def ensure (p : Prop) [Decidable p] (error : PortError) : Control Unit :=
  if p then pure () else throw error

/-- A value that may be missing, or the failure that stands for it: the source's `ok_or` on an
optional document or directory. -/
def orMissing {α : Type} (error : PortError) : Option α → Control α
  | some a => pure a
  | none => throw error

/-- A computed value, with its failure as the failure of the program: encoding and decoding take no
call and need no answer. -/
def liftExcept {α ε : Type} (f : ε → PortError) (r : Except ε α) : Control α :=
  Program.ofExcept f r

/-- Runs the cleanup when the part fails, and fails as it did: what the source reaches by dropping
a guard on the way out of an error. -/
def onFailure {α : Type} (cleanup : Control Unit) (x : Control α) : Control α :=
  x.handle fun error => do
    cleanup
    throw error

/-- `document_error`: a document of another version is reported as such, and every other failure to
decode as invalid data. -/
def documentError (error : DocumentError) : PortError :=
  .new (if error = .unsupportedVersion then .unsupportedVersion else .invalidData)
    "decode Linux control document"

/-! ### Directories

The helpers on directories: open, look again, make last. -/

/-- `open_private_directory`: the optional open of `control.rs`, where a missing directory is a
failure as well. -/
def openPrivateDirectory (path : List UInt8) : Control PrivateDirectory := do
  let found ← callOr (.openPrivateDirectoryOptional path) id
  orMissing (.new .notFound "open private directory") found

/-- `revalidate_private_directory`: the path is opened again, and has to lead to the identity that
is held. -/
def revalidatePrivateDirectory (directory : PrivateDirectory) : Control Unit := do
  let current ← openPrivateDirectory directory.path
  ensure (current.identity = directory.identity)
    (.new .invalidLayout "private directory identity changed")

/-- `sync_directory`: the names of the held directory are made to last before anything relies on
them. -/
def syncDirectory : Control Unit :=
  callOr .syncDirectory fun _ => .new .io "sync Linux control directory"

/-- `Path::join` with one name: a separator is added unless the path is the root and ends in one
already. -/
def joinPath (path : List UInt8) (name : String) : List UInt8 :=
  (if path = [slash] then path else path ++ [slash]) ++ asBytes name

/-! ### Private files

A file is created under a fresh name, filled and synced before it is given its final name.
What is not published is removed again where this is possible, and a failure of that removal
is ignored as the source ignores it. -/

variable (euid : UInt32)

/-- `private_file_facts_match`: the file that is held and the file of the name are one and the same
regular file, owned by the caller, of mode 0600 and with a single name. -/
def privateFileFactsMatch (held named : Stat) (expected : FileIdentity) : Bool :=
  held.identity = expected && named.identity = expected && held.kind = .regular &&
    named.kind = .regular && held.mode = 0o600 && named.mode = 0o600 && held.uid = euid &&
    named.uid = held.uid && held.nlink = 1 && named.nlink = 1

/-- `validate_private_file`, of the file created as `file`: its facts are checked between two looks
at the parent, so that the name was found in the directory that is held. -/
def validatePrivateFile (parent : PrivateDirectory) (file name : String)
    (expected : FileIdentity) : Control Unit := do
  revalidatePrivateDirectory parent
  let held ← callOr (.fstat file) fun _ => .new .io "inspect held Linux private file"
  let named ← callOr (.statat name) fun _ => .new .invalidLayout "inspect named Linux private file"
  ensure (privateFileFactsMatch euid held named expected)
    (.new .invalidLayout "Linux private file identity or mode changed")
  revalidatePrivateDirectory parent

/-- `PrivateTemp`: the name and the identity of a staged document.  Whether it is active is where
it is dropped. -/
structure PrivateTemp where
  name : String
  identity : FileIdentity

/-- `Drop` of an active `PrivateTemp`: the name is removed only where it still leads to the staged
file, and a failure of the removal is not reported. -/
def PrivateTemp.drop (temporary : PrivateTemp) : Control Unit := do
  match ← call (.statat temporary.name) with
  | .error _ => pure ()
  | .ok named =>
    if named.identity = temporary.identity then do
      let _ ← call (.unlink temporary.name)
      let _ ← call .syncDirectory
      pure ()
    else pure ()

/-- The part of `PrivateTemp::create` that fills the staged file: it is written, synced together
with its directory, and checked. -/
def PrivateTemp.fill (parent : PrivateDirectory) (temporary : PrivateTemp) (bytes : List UInt8) :
    Control Unit := do
  callOr (.write temporary.name bytes) fun _ => .new .io "write staged Linux control document"
  callOr (.sync temporary.name) fun _ => .new .io "sync staged Linux control document"
  syncDirectory
  validatePrivateFile euid parent temporary.name temporary.name temporary.identity

/-- `PrivateTemp::create` once a name is taken: from here on a failure removes the staged file
again. -/
def PrivateTemp.adopt (parent : PrivateDirectory) (name : String) (bytes : List UInt8) :
    Control PrivateTemp := do
  let stat ← callOr (.fstat name) fun _ => .new .io "inspect staged Linux control document"
  let temporary : PrivateTemp := ⟨name, stat.identity⟩
  onFailure temporary.drop (temporary.fill euid parent bytes)
  pure temporary

/-- The name of a staged document: hidden, with the stem that says what it holds, and with a fresh
identifier that keeps two attempts apart. -/
def stagedName (stem : String) (id : UuidV7) : String := "." ++ stem ++ ".tmp-" ++ id.toText

/-- The attempts of `PrivateTemp::create`: a name that is taken leads to the next attempt, and any
other failure ends them. -/
def PrivateTemp.stage (parent : PrivateDirectory) (stem : String) (bytes : List UInt8) :
    ℕ → Control PrivateTemp
  | 0 => throw (.new .io "allocate Linux control document staging name")
  | attempts + 1 => do
    match ← call .newUuid with
    | .error e => nomatch e
    | .ok id =>
      match ← call (.create (stagedName stem id)) with
      | .error .exist => stage parent stem bytes attempts
      | .error _ => throw (.new .io "stage Linux control document")
      | .ok _ => adopt euid parent (stagedName stem id) bytes

/-- `PrivateTemp::create`: at most 32 names are tried in a directory that has just been
revalidated. -/
def PrivateTemp.create (parent : PrivateDirectory) (stem : String) (bytes : List UInt8) :
    Control PrivateTemp := do
  revalidatePrivateDirectory parent
  callOr .duplicate fun _ => .new .io "duplicate Linux control directory"
  stage euid parent stem bytes 32

/-- `PrivateTemp::publish_noreplace`: the staged file takes the name of the target if nobody has
it, and is dropped where the rename fails. -/
def PrivateTemp.publishNoreplace (temporary : PrivateTemp) (target : String) : Control Unit := do
  match ← call (.renameNoreplace temporary.name target) with
  | .error .exist => do
    temporary.drop
    throw (.conflict "publish Linux control document without replacement" .installationIdentity)
  | .error _ => do
    temporary.drop
    throw (.new .io "publish Linux control document")
  | .ok _ => syncDirectory

/-- `PrivateTemp::exchange_with`, with the drop that follows its failure: the two names change
places in one step, so that at no moment the target is missing. -/
def PrivateTemp.exchangeWith (temporary : PrivateTemp) (target : String) : Control Unit := do
  match ← call (.renameExchange temporary.name target) with
  | .error _ => do
    temporary.drop
    throw (.new .io "exchange Linux control marker")
  | .ok _ => syncDirectory

/-! ### Control root

Who may claim the control root, and what its two documents say.  Nothing is written here. -/

variable (controlRoot : AbsolutePath)

/-- One entry of `require_unclaimed_control_root`: it has to be the lifecycle lock, a private
regular file of the caller with one name. -/
def requireUnclaimedEntry (name : String) : Control Unit := do
  ensure (name = lockName) (.new .notEmpty "unclaimed Linux control root contains another entry")
  let lock ← callOr (.statat lockName) fun _ => .new .invalidLayout "inspect lifecycle lock entry"
  ensure (lock.kind = .regular ∧ lock.mode = 0o600 ∧ lock.uid = euid ∧ lock.nlink = 1)
    (.new .invalidLayout "unclaimed lifecycle lock metadata is unsafe")

/-- The entries of `require_unclaimed_control_root`, one after the other: the first that is not the
lock is refused. -/
def requireUnclaimedEntries : List String → Control Unit
  | [] => pure ()
  | name :: names => do
    requireUnclaimedEntry euid name
    requireUnclaimedEntries names

/-- `require_unclaimed_control_root`: nobody has begun an installation here.  The entries `.` and
`..` are not among the names read. -/
def requireUnclaimedControlRoot (directory : PrivateDirectory) : Control Unit := do
  let names ← callOr .readDirectory fun _ => .new .io "inspect unclaimed Linux control root"
  requireUnclaimedEntries euid names
  revalidatePrivateDirectory directory

/-- `LinuxPreparedDataRoot`: a directory that was found fit for an installation, with the volume
and the mount it was seen on. -/
structure PreparedDataRoot where
  dataRoot : AbsolutePath
  volumeId : VolumeId
  mountId : UInt64
  directory : PrivateDirectory

/-- `LinuxPreparedDataRoot::revalidate`: the directory is the one that was prepared, and it lies on
the same volume and mount. -/
def PreparedDataRoot.revalidate (prepared : PreparedDataRoot) : Control Unit := do
  revalidatePrivateDirectory prepared.directory
  let current ← callOr (.controlFilesystemIdentity prepared.directory) id
  ensure (current = (prepared.volumeId, prepared.mountId))
    (.new .invalidLayout "control-root filesystem identity changed")

/-- `prepare_data_root`: the fixed control root and no other, unclaimed, with its filesystem
identity read twice. -/
def prepareDataRoot (dataRoot : AbsolutePath) : Control PreparedDataRoot := do
  ensure (controlRoot = dataRoot)
    (.conflict "prepare fixed Linux control root" .installationIdentity)
  let directory ← callOr .preparePrivateDirectory id
  requireUnclaimedControlRoot euid directory
  let (volumeId, mountId) ← callOr (.controlFilesystemIdentity directory) id
  let prepared : PreparedDataRoot := ⟨dataRoot, volumeId, mountId, directory⟩
  prepared.revalidate
  pure prepared

variable (toml : TomlLibrary)

/-- Decodes a document that may be missing: an absent one stays absent, and one that is present has
to decode. -/
def decodeOptional {α : Type} (decode : List UInt8 → Except DocumentError α) :
    Option (List UInt8) → Control (Option α)
  | none => pure none
  | some bytes => do
    let value ← liftExcept documentError (decode bytes)
    pure (some value)

/-- `read_config`: the identity that the config names; neither a missing directory nor a missing
document is a failure. -/
def readConfig : Control (Option InstallationIdentity) := do
  match ← callOr (.openPrivateDirectoryOptional controlRoot.asBytes) id with
  | none => pure none
  | some directory => do
    let found ← callOr (.readPrivateDocument directory configName) id
    decodeOptional (decodeConfig toml) found

/-- `read_root_marker`: the marker of the fixed control root, read in the same way as the config.
-/
def readRootMarker (dataRoot : AbsolutePath) : Control (Option RootMarker) := do
  ensure (controlRoot = dataRoot) (.new .invalidLayout "read fixed Linux control marker")
  match ← callOr (.openPrivateDirectoryOptional controlRoot.asBytes) id with
  | none => pure none
  | some directory => do
    let found ← callOr (.readPrivateDocument directory markerName) id
    decodeOptional (decodeMarker toml) found

/-- `validate_bootstrap_lock`: the lock is the bootstrap lock of this very control root, and it is
still held. -/
def validateBootstrapLock (lock : LockGuard) (directory : PrivateDirectory) : Control Unit := do
  ensure (lock.bootstrap ∧ directory.path = controlRoot.asBytes ∧ lock.parent = directory)
    (.new .invalidLayout "require matching Linux bootstrap lock")
  callOr (.lockRevalidate lock) id

/-! ### The initializing marker

The initializing marker claims the control root; whoever holds the proof knows that it was
this run that published it. -/

/-- `LinuxInitializingProof`: what a run holds between its two markers.  The marker file is held
under the name it was staged as. -/
structure InitializingProof where
  directory : PrivateDirectory
  markerFile : String
  markerIdentity : FileIdentity
  marker : RootMarker

/-- `LinuxInitializingProof::revalidate`: directory, file and content of the marker are those that
this run published. -/
def InitializingProof.revalidate (proof : InitializingProof) : Control Unit := do
  revalidatePrivateDirectory proof.directory
  validatePrivateFile euid proof.directory proof.markerFile markerName proof.markerIdentity
  let found ← callOr (.readPrivateDocument proof.directory markerName) id
  let bytes ← orMissing (.new .invalidLayout "initializing marker is missing") found
  let marker ← liftExcept documentError (decodeMarker toml bytes)
  ensure (marker = proof.marker)
    (.conflict "initializing marker content changed" .installationIdentity)

/-- `create_initializing`: publishes the marker that claims the control root.  The rename replaces
nothing, so a marker that is in place stays. -/
def createInitializing (lock : LockGuard) (prepared : PreparedDataRoot)
    (identity : InstallationIdentity) : Control InitializingProof := do
  validateBootstrapLock controlRoot lock prepared.directory
  prepared.revalidate
  ensure (prepared.dataRoot = identity.dataRoot ∧ prepared.volumeId = identity.volumeId)
    (.conflict "validate prepared Linux control root" .installationIdentity)
  requireUnclaimedControlRoot euid prepared.directory
  let marker : RootMarker := ⟨identity, .initializing⟩
  let bytes ← liftExcept documentError (encodeMarker toml marker)
  let temporary ← PrivateTemp.create euid prepared.directory "root-marker" bytes
  temporary.publishNoreplace markerName
  let proof : InitializingProof := ⟨prepared.directory, temporary.name, temporary.identity, marker⟩
  proof.revalidate euid toml
  pure proof

/-! ### Layout

The directories of the installation are staged and renamed like the documents, and the
database file is created empty. -/

/-- `cleanup_staged_child`: removes the staged directory if the name still leads to it; like the
drop of a file, it reports no failure. -/
def cleanupStagedChild (name : String) (expected : FileIdentity) : Control Unit := do
  match ← call (.statat name) with
  | .error _ => pure ()
  | .ok named =>
    if named.identity = expected ∧ named.kind = .directory then do
      let _ ← call (.rmdir name)
      let _ ← call .syncDirectory
      pure ()
    else pure ()

/-- `create_private_child` once a staged directory is made: it is opened, and takes its final name
without replacing anything. -/
def publishChild (parent : PrivateDirectory) (staged name : String) : Control PrivateDirectory := do
  syncDirectory
  let child ← openPrivateDirectory (joinPath parent.path staged)
  revalidatePrivateDirectory parent
  match ← call (.renameNoreplace staged name) with
  | .error e => do
    cleanupStagedChild staged child.identity.file
    throw (if e = .exist then .new .notEmpty "Linux control child already exists"
      else .new .io "publish Linux control directory")
  | .ok _ => do
    let published : PrivateDirectory := ⟨joinPath parent.path name, child.identity⟩
    syncDirectory
    revalidatePrivateDirectory published
    revalidatePrivateDirectory parent
    pure published

/-- The attempts of `create_private_child`: as for a staged file, only a name that is taken leads
to another attempt. -/
def stageChild (parent : PrivateDirectory) (name : String) : ℕ → Control PrivateDirectory
  | 0 => throw (.new .io "allocate Linux control directory staging name")
  | attempts + 1 => do
    match ← call .newUuid with
    | .error e => nomatch e
    | .ok id =>
      match ← call (.mkdir (stagedName "thinws-dir" id)) with
      | .error .exist => stageChild parent name attempts
      | .error _ => throw (.new .io "stage Linux control directory")
      | .ok _ => publishChild parent (stagedName "thinws-dir" id) name

/-- `create_private_child`: a private directory under its final name, staged under one of at most
32 names. -/
def createPrivateChild (parent : PrivateDirectory) (name : String) : Control PrivateDirectory := do
  revalidatePrivateDirectory parent
  stageChild parent name 32

/-- The database file, from the control directory: the fixed layout keeps it in the directory of
the metadata. -/
def databaseName : String := "metadata/state.db"

/-- `create_database_file`: an empty private file, which must not exist before; it is checked and
synced before anything opens it as a database. -/
def createDatabaseFile (metadata : PrivateDirectory) : Control Unit := do
  revalidatePrivateDirectory metadata
  callOr .createDatabase fun _ => .new .io "create Linux control database"
  let stat ← callOr (.fstat databaseName) fun _ =>
    .new .io "inspect created Linux control database"
  validatePrivateFile euid metadata databaseName databaseName stat.identity
  callOr (.sync databaseName) fun _ => .new .io "sync created Linux control database"
  syncDirectory

/-- `initialize_layout`: the two directories and the database file are made under the lock, and the
layout that is then validated has to consist of exactly these. -/
def initializeLayout (lock : LockGuard) (proof : InitializingProof) : Control Unit := do
  validateBootstrapLock controlRoot lock proof.directory
  proof.revalidate euid toml
  let metadata ← createPrivateChild proof.directory metadataName
  let logs ← createPrivateChild proof.directory logsName
  createDatabaseFile euid metadata
  let layout ← callOr (.validateLayout proof.marker.identity) id
  let created ← callOr (.fstat databaseName) fun _ => .new .io "inspect created Linux database"
  ensure (layout.metadata.identity = metadata.identity ∧ layout.logs.identity = logs.identity ∧
    created.identity = layout.database)
    (.new .invalidLayout "new Linux control layout identity changed")
  callOr .layoutRevalidate id
  proof.revalidate euid toml

/-! ### The Ready marker and the config

The exchange of the markers, with everything that is checked behind it, and the publication
of the config, which is reconciled with a config that another run has published. -/

/-- `exchanged_marker_contents_match`: what stands under the marker's name is the Ready marker, and
what stands under the staged name is the marker it replaced. -/
def exchangedMarkerContentsMatch (published displaced : List UInt8)
    (ready initializing : RootMarker) : Except DocumentError Bool := do
  let publishedMarker ← decodeMarker toml published
  if publishedMarker ≠ ready then pure false
  else do
    let displacedMarker ← decodeMarker toml displaced
    pure (displacedMarker = initializing)

/-- The checks of `publish_ready` after the exchange: both files are the two that were exchanged,
and both contents are as expected. -/
def verifyExchange (proof : InitializingProof) (temporary : PrivateTemp) (ready : RootMarker) :
    Control Unit := do
  validatePrivateFile euid proof.directory proof.markerFile temporary.name proof.markerIdentity
  validatePrivateFile euid proof.directory temporary.name markerName temporary.identity
  let published ← callOr (.readPrivateDocument proof.directory markerName) id
  let published ← orMissing (.new .invalidLayout "ready marker is missing") published
  let displaced ← callOr (.readPrivateDocument proof.directory temporary.name) id
  let displaced ← orMissing (.new .invalidLayout "old marker is missing") displaced
  let same ← liftExcept documentError
    (exchangedMarkerContentsMatch toml published displaced ready proof.marker)
  ensure same (.new .invalidLayout "exchanged Linux marker content changed")

/-- `publish_ready`: the Ready marker takes the place of the initializing one by an exchange, and
the old marker is removed only after the checks. -/
def publishReady (lock : LockGuard) (proof : InitializingProof) : Control RootMarker := do
  validateBootstrapLock controlRoot lock proof.directory
  proof.revalidate euid toml
  ensure (proof.marker.state = .initializing)
    (.conflict "publish non-initializing Linux marker" .installationIdentity)
  let ready : RootMarker := ⟨proof.marker.identity, .ready⟩
  let bytes ← liftExcept documentError (encodeMarker toml ready)
  let temporary ← PrivateTemp.create euid proof.directory "root-marker-ready" bytes
  temporary.exchangeWith markerName
  verifyExchange euid toml proof temporary ready
  validateBootstrapLock controlRoot lock proof.directory
  callOr (.unlink temporary.name) fun _ => .new .io "remove old Linux control marker"
  syncDirectory
  pure ready

/-- `PublishResult`: whether this run published the config, or found the same one in place. -/
inductive PublishResult where
  | published | alreadyCurrent
deriving DecidableEq

/-- `reconcile_config_publication_error`: a conflict is forgiven where the config in place names
the same identity; any other failure stands. -/
def reconcileConfigPublicationError (error : PortError) (identity : InstallationIdentity) :
    Control PublishResult := do
  ensure (error.kind = .conflict) error
  let current ← readConfig controlRoot toml
  ensure (current = some identity) error
  pure .alreadyCurrent

/-- `publish_config` from the staged document on: published, checked and read back, or reconciled
with what another run published. -/
def publishStagedConfig (lock : LockGuard) (identity : InstallationIdentity)
    (directory : PrivateDirectory) (temporary : PrivateTemp) : Control PublishResult := do
  match ← (temporary.publishNoreplace configName).attempt with
  | .error error => reconcileConfigPublicationError controlRoot toml error identity
  | .ok _ => do
    validateBootstrapLock controlRoot lock directory
    validatePrivateFile euid directory temporary.name configName temporary.identity
    let current ← readConfig controlRoot toml
    ensure (current = some identity)
      (.new .invalidLayout "published Linux config content changed")
    pure .published

/-- `publish_config`: only behind a Ready marker of the same identity, and never over a config that
names another one. -/
def publishConfig (lock : LockGuard) (identity : InstallationIdentity) :
    Control PublishResult := do
  let directory ← openPrivateDirectory controlRoot.asBytes
  validateBootstrapLock controlRoot lock directory
  ensure (directory.path = identity.dataRoot.asBytes)
    (.conflict "publish config for different Linux control root" .installationIdentity)
  let marker ← readRootMarker controlRoot toml identity.dataRoot
  ensure (marker = some ⟨identity, .ready⟩)
    (.conflict "publish Linux config before Ready marker" .installationIdentity)
  match ← readConfig controlRoot toml with
  | some current => do
    ensure (current = identity)
      (.conflict "publish different Linux bootstrap config" .installationIdentity)
    pure .alreadyCurrent
  | none => do
    let bytes ← liftExcept documentError (encodeConfig toml identity)
    let temporary ← PrivateTemp.create euid directory "bootstrap-config" bytes
    publishStagedConfig euid controlRoot toml lock identity directory temporary

end Linux
end ThinWorkspace
