/-
# The Btrfs materializer

Source: `crates/thinws-adapter-linux/src/materializer.rs` without the rollback.

An attempt binds its four directories (`bindPaths`), copies the source entry by entry
through staging (`materializeDirectory`) and verifies the result
(`materializeBound`).  An `Attempt` is a part of it that changes the
`ExecutionContext`: it returns the context with its value and fails with the context
as it was then, as the `&mut` of the source leaves it.
-/

import ThinWorkspace.Btrfs.Tree
import ThinWorkspace.Core.Receipt

namespace ThinWorkspace
namespace Btrfs

open ThinWorkspace.Core Lib Ports

/-- `Backend`: whether the blocks of a file are shared or copied; everything else of an attempt is
the same for both. -/
inductive Backend where
  | cow | fullCopy
deriving DecidableEq

/-- `stale_plan`: what is found differs from what the plan was made for. -/
def stalePlan : TreeFailure :=
  ⟨.planStale, .invalidLayout, "Btrfs materialization plan changed"⟩

/-- The adapter and the mode of a backend, as the plan names them. -/
def Backend.selection : Backend → MaterializerKind × MaterializationMode
  | .cow => (.btrfsReflink, .cowClone)
  | .fullCopy => (.fullCopy, .fullCopy)

/-- `validate_request_plan`: the plan is one for this backend and for the four paths of the
request. -/
def validateRequestPlan (request : MaterializeRequest) (plan : MaterializationPlan)
    (backend : Backend) : Fs Unit :=
  require (plan.selectedAdapter = backend.selection.1 ∧ plan.effectiveMode = backend.selection.2 ∧
    request.source = plan.sourcePath ∧ request.target = plan.targetPath ∧
    request.staging = plan.stagingPath ∧ request.trash = plan.trashPath) stalePlan

/-! ### The four directories

The source, the target, the staging directory and the trash are opened name by name and
held.  What is held is revalidated by walking the path again and comparing. -/

/-- `BoundPaths`: the four directories of an attempt, held open, with what was seen of them and the
report they were found by. -/
structure BoundPaths where
  source : Fd
  target : Fd
  staging : Fd
  trash : Fd
  targetBaseline : Node
  report : MaterializationPathReport

/-- The components of a path are proper names, so that each can be opened below the directory
before it. -/
theorem normal_components (path : AbsolutePath) : ∀ c ∈ path.components, AbsolutePath.Normal c :=
  fun _ => AbsolutePath.normal_of_mem

/-- The names below the root that a path goes through. -/
def pathNames (path : AbsolutePath) : TreePath :=
  path.components.pmap FileName.mk (normal_components path)

/-- The rest of `open_bound_directory` below a directory that is open: a step for every
name, and the evidence that is left over. -/
def openSteps : Fd → TreePath → List DirectoryIdentityEvidence →
    Fs (Fd × List DirectoryIdentityEvidence)
  | current, [], ancestry => pure (current, ancestry)
  | current, name :: names, ancestry => do
    let child ← openDirectory current name
    let opened ← node child
    require (ancestry.head?.map (·.identity) = some opened.identity) stalePlan
    openSteps child names ancestry.tail

/-- `BTRFS_SUPER_MAGIC`: the type that `fstatfs` reports of a Btrfs filesystem. -/
def btrfsSuperMagic : UInt64 := 2435016766

/-- `open_bound_directory`: the path is walked name by name, each directory with the identity of
the report, and ends on the mount, the filesystem type and the volume of the report. -/
def openBoundDirectory (path : AbsolutePath) (report : PathCapabilityReport) : Fs Fd := do
  require (report.requestedPath = path ∧ report.resolution = .existingDirectory) stalePlan
  let root ← sys "open Btrfs filesystem root" (call .openRoot)
  let opened ← node root
  require (report.ancestry.head?.map (·.identity) = some opened.identity) stalePlan
  let (current, ancestry) ← openSteps root (pathNames path) report.ancestry.tail
  require (ancestry = []) stalePlan
  let mount ← mountId current
  let expected ← orMissing stalePlan report.mount.mountId
  require (mount = expected) stalePlan
  let filesystem ← sys "inspect Btrfs filesystem type" (call (.fstatfs current))
  require (filesystem = btrfsSuperMagic ∧ report.filesystem.typeName = "btrfs") stalePlan
  let fsid ← Program.orFail (fun _ => ⟨.planStale, .invalidLayout, "inspect Btrfs FSID"⟩)
    (call (.fsid current))
  require (report.filesystem.volumeId.known? = some ⟨fsid⟩) stalePlan
  pure current

/-- `BoundPaths::open`: the four directories of the request, all on the mount of the source. -/
def BoundPaths.open (request : MaterializeRequest) (report : MaterializationPathReport) :
    Fs BoundPaths := do
  let source ← openBoundDirectory request.source report.source
  let target ← openBoundDirectory request.target report.targetRoot
  let staging ← openBoundDirectory request.staging report.staging
  let trash ← openBoundDirectory request.trash report.trash
  let targetBaseline ← node target
  let expectedMount ← mountId source
  let targetMount ← mountId target
  let stagingMount ← mountId staging
  let trashMount ← mountId trash
  require (targetMount = expectedMount ∧ stagingMount = expectedMount ∧
    trashMount = expectedMount) stalePlan
  pure { source, target, staging, trash, targetBaseline, report }

/-- One directory of `revalidate`: the path is walked again and leads to the directory that is
held. -/
def revalidateDirectory (path : AbsolutePath) (report : PathCapabilityReport) (held : Fd) :
    Fs Unit := do
  let reopened ← openBoundDirectory path report
  let current ← node reopened
  let kept ← node held
  require (current.identity = kept.identity) stalePlan

/-- `BoundPaths::revalidate_target_trash`: the two directories that a rollback changes. -/
def BoundPaths.revalidateTargetTrash (paths : BoundPaths) (request : MaterializeRequest) :
    Fs Unit := do
  revalidateDirectory request.target paths.report.targetRoot paths.target
  revalidateDirectory request.trash paths.report.trash paths.trash

/-- `BoundPaths::revalidate`: all four directories, in the order in which they were opened. -/
def BoundPaths.revalidate (paths : BoundPaths) (request : MaterializeRequest) : Fs Unit := do
  revalidateDirectory request.source paths.report.source paths.source
  revalidateDirectory request.target paths.report.targetRoot paths.target
  revalidateDirectory request.staging paths.report.staging paths.staging
  revalidateDirectory request.trash paths.report.trash paths.trash

/-- `ensure_empty`: a directory without entries; `directory_names` leaves out only `.` and `..`. -/
def ensureEmpty (directory : Fd) : Fs Unit := do
  let names ← directoryNames directory
  require (names = []) ⟨.invalidLayout, .notEmpty, "require empty Btrfs target"⟩

/-! ### What an attempt keeps

The context of an attempt: what has been created, what is staged, and what has been
measured.  Every failure carries it, since the rollback and the receipt depend on it. -/

/-- The kind of node an entry of the receipt is. -/
def entryNodeKind : MaterializedEntryKind → NodeKind
  | .directory => .directory
  | .regularFile => .file
  | .symbolicLink => .symlink

/-- `TrackedCreated` of an entry of the target; its kind is one that is created. -/
structure TrackedCreated where
  path : TreePath
  nonempty : path ≠ []
  kind : MaterializedEntryKind
  identity : Option FileIdentity

/-- `TrackedCreated::evidence`: a published entry under its path in the target. -/
def TrackedCreated.evidence (entry : TrackedCreated) : CreatedObjectEvidence :=
  ⟨entry.path.relative entry.nonempty, entry.kind, entry.identity⟩

/-- `TrackedCreated` of the staged object, whose path is its staging name. -/
structure ActiveStaging where
  name : FileName
  kind : MaterializedEntryKind
  identity : Option FileIdentity

/-- `TrackedCreated::evidence` of the staged object, under its name in the staging directory. -/
def ActiveStaging.evidence (staged : ActiveStaging) : CreatedObjectEvidence :=
  ⟨TreePath.relative [staged.name] (List.cons_ne_nil _ _), staged.kind, staged.identity⟩

/-- `ExecutionContext`: what an attempt has done so far, as the rollback and the receipt of a
failure need it. -/
structure ExecutionContext where
  created : List TrackedCreated
  activeStaging : Option ActiveStaging
  cloneCalls : UInt64
  targetModified : Bool
  sourceManifest : Option TreeDigest
  targetManifest : Option TreeDigest
  regularFiles : Option UInt64
  logicalBytes : Option UInt64
  physicalBytes : Option UInt64

/-- `ExecutionContext::default`: nothing created, nothing staged, and none of the digests and sums
known. -/
def ExecutionContext.default : ExecutionContext :=
  ⟨[], none, 0, false, none, none, none, none, none⟩

/-- A part of an attempt, which fails with the context as it is then. -/
abbrev Attempt (α : Type) := Program FsCall FsCall.Result (TreeFailure × ExecutionContext) α

/-- A part that leaves the context as it is. -/
def within {α : Type} (context : ExecutionContext) (x : Fs α) : Attempt α :=
  x.mapError fun failure => (failure, context)

/-! ### One entry

An entry is made in the staging directory under a fresh name, filled, checked, and renamed
into the target without replacing anything. -/

/-- `ensure_identity`: the entry is the one that was made, and of its kind. -/
def ensureIdentity (observed : Node) (expected : FileIdentity) (kind : NodeKind) : Fs Unit :=
  require (observed.identity = expected ∧ observed.kind = kind) .targetChanged

/-- `set_preserved_metadata`: the time and the mode of the source, set through the open handle and
read back. -/
def setPreservedMetadata (target : Fd) (identity : FileIdentity) (source : Node) : Fs Unit := do
  let current ← node target
  ensureIdentity current identity source.kind
  sys "preserve Btrfs entry modification time" (call (.futimens target source.mtime))
  sys "preserve Btrfs entry permissions" (call (.fchmod target source.mode))
  let after ← node target
  ensureIdentity after identity source.kind
  require (after.mode = source.mode ∧ after.mtime = source.mtime)
    ⟨.manifestMismatch, .invalidData, "verify Btrfs entry metadata"⟩

/-- The beginning of a staging name is neither `.` nor `..` and has no slash and no NUL. -/
theorem stagingStem : 2 < (asBytes ".thinws-materialize").length ∧
    slash ∉ asBytes ".thinws-materialize" ∧ (0 : UInt8) ∉ asBytes ".thinws-materialize" := by
  decide

/-- The staging name of `stage_and_publish`: the process and a sequence number keep two names
apart. -/
def stagingName (processId : UInt32) (sequence : UInt64) : FileName :=
  ⟨numbered (asBytes ".thinws-materialize") [processId.toNat, sequence.toNat],
    normal_numbered _ stagingStem⟩

/-- The attempts of `stage_and_publish` to create a staged object. -/
def createStaged (create : FileName → Fs (Except Linux.Errno Unit)) : ℕ → Fs FileName
  | 0 => throw ⟨.filesystem, .io, "reserve Btrfs staging name"⟩
  | attempts + 1 => do
    let sequence ← call .nextSequence
    let processId ← call .processId
    match ← create (stagingName processId sequence) with
    | .ok _ => pure (stagingName processId sequence)
    | .error .exist => createStaged create attempts
    | .error error => throw (.io "create staged Btrfs entry" error)

/-- The rename of `stage_and_publish`, which replaces nothing: a name that is taken means that
somebody else changed the target. -/
def publishStaged (staging : Fd) (stagedName : FileName) (target : Fd) (targetName : FileName) :
    Fs Unit := do
  match ← call (.renameNoReplace staging stagedName target targetName) with
  | .ok _ => pure ()
  | .error .exist => throw .targetChanged
  | .error error => throw (.io "publish staged Btrfs entry" error)

/-- `stage_and_publish`, for the entry `base ++ [name]`: it is made and filled in staging, checked,
renamed into the target, and checked there.  From the rename on it counts as created. -/
def stageAndPublish (staging target : Fd) (base : TreePath) (name : FileName)
    (kind : MaterializedEntryKind) (create : FileName → Fs (Except Linux.Errno Unit))
    (prepare : FileName → Fs UInt64) (context : ExecutionContext) :
    Attempt (FileIdentity × ExecutionContext) := do
  let stagedName ← within context (createStaged create 128)
  let context := { context with activeStaging := some ⟨stagedName, kind, none⟩ }
  let staged ← within context (nodeAt staging stagedName)
  within context (require (staged.kind = entryNodeKind kind) .targetChanged)
  let identity := staged.identity
  let context := { context with activeStaging := some ⟨stagedName, kind, some identity⟩ }
  let cloneCalls ← within context (prepare stagedName)
  let context := { context with cloneCalls := saturatingAdd context.cloneCalls cloneCalls }
  let prepared ← within context (nodeAt staging stagedName)
  within context (ensureIdentity prepared identity (entryNodeKind kind))
  within context (publishStaged staging stagedName target name)
  let context := { context with
    activeStaging := none
    created := context.created ++
      [⟨base ++ [name], List.concat_ne_nil name base, kind, some identity⟩]
    targetModified := true }
  let published ← within context (nodeAt target name)
  within context (ensureIdentity published identity (entryNodeKind kind))
  pure (identity, context)

/-- `EOPNOTSUPP`, `ENOTTY` and `EINVAL`: the answers of a filesystem that cannot share blocks. -/
def cloneUnsupported : List Linux.Errno := [.other 95, .other 25, .other 22]

/-- `EXDEV`: source and target lie on different filesystems. -/
def exdev : Linux.Errno := .other 18

/-- `classify_clone_error`: only an unsupported clone is reported as an unavailable capability,
which is what allows a fallback. -/
def classifyCloneError (error : Linux.Errno) : TreeFailure :=
  let (kind, portKind) :=
    if error ∈ cloneUnsupported then
      (MaterializationFailureKind.cowUnavailable, PortErrorKind.capabilityUnavailable)
    else if error = exdev then (.invalidLayout, .invalidLayout)
    else if error = enospc then (.noSpace, .io)
    else (.filesystem, .io)
  ⟨kind, portKind, "clone Btrfs file with FICLONE"⟩

/-- A failure of `copy_file_bytes` that is never `NoSpace`, whatever its errno. -/
def filesystemFailure (operation : String) (_ : Linux.Errno) : TreeFailure :=
  ⟨.filesystem, .io, operation⟩

/-- `copy_file_bytes`: the bytes its reads give are those its writes take. -/
def copyFileBytes (source destination : Fd) : Fs Unit := do
  let duplicate ← sys "duplicate Btrfs source file" (call (.dup source))
  let bytes ← Program.orFail (filesystemFailure "read Btrfs source file")
    (call (.readAll duplicate))
  sys "write Btrfs staged file" (call (.writeAll destination bytes))
  Program.orFail (filesystemFailure "flush Btrfs staged file") (call (.flush destination))

/-- The `prepare` of a staged file: its bytes, and the clone calls that took. -/
def prepareFile (backend : Backend) (source staging : Fd) (stagedName : FileName) : Fs UInt64 := do
  let destination ← sys "open staged Btrfs file" (call (.openStaged staging stagedName))
  match backend with
  | .cow => do
    Program.orFail classifyCloneError (call (.ficlone source destination))
    pure 1
  | .fullCopy => do
    copyFileBytes source destination
    pure 0

/-! ### The walk

One round for each name of a source directory, by the kind of the entry.  The entry must
still be the one of the first scan. -/

/-- `UnsupportedSourceEntry` of a source entry: devices, sockets and pipes are not copied. -/
def rejectUnsupportedSource : TreeFailure :=
  ⟨.unsupportedSourceEntry, .invalidData, "reject unsupported source entry"⟩

variable (backend : Backend) (expected : TreeSnapshot) (staging : Fd)

/-- The round of `materialize_directory` for a directory; `descend` copies what is in
it. -/
def materializeChild (descend : Fd → Fd → TreePath → ExecutionContext → Attempt ExecutionContext)
    (source target : Fd) (base : TreePath) (name : FileName) (before : Node)
    (context : ExecutionContext) : Attempt ExecutionContext := do
  let sourceChild ← within context (openDirectory source name)
  let opened ← within context (node sourceChild)
  within context (require (opened = before) .sourceChanged)
  let (identity, context) ← stageAndPublish staging target base name .directory
    (fun stagedName => call (.mkdir staging stagedName 0o700)) (fun _ => pure 0) context
  let targetChild ← within context (openDirectory target name)
  let published ← within context (node targetChild)
  within context (ensureIdentity published identity .directory)
  let context ← descend sourceChild targetChild (base ++ [name]) context
  within context (setPreservedMetadata targetChild identity before)
  let after ← within context (node sourceChild)
  within context (require (after = before) .sourceChanged)
  pure context

/-- The round of `materialize_directory` for a regular file: the source is the file of the snapshot
before and after its blocks are taken. -/
def materializeFile (source target : Fd) (base : TreePath) (name : FileName) (before : Node)
    (context : ExecutionContext) : Attempt ExecutionContext := do
  let sourceFile ← within context (openFile source name)
  let opened ← within context (node sourceFile)
  within context (require (opened = before) .sourceChanged)
  let (identity, context) ← stageAndPublish staging target base name .regularFile
    (fun stagedName => call (.create staging stagedName 0o600))
    (prepareFile backend sourceFile staging) context
  let targetFile ← within context (openFile target name)
  let published ← within context (node targetFile)
  within context (ensureIdentity published identity .file)
  within context (setPreservedMetadata targetFile identity before)
  let after ← within context (node sourceFile)
  within context (require (after = before) .sourceChanged)
  pure context

/-- The round of `materialize_directory` for a symbolic link: its text is that of the snapshot, and
no block is cloned for it. -/
def materializeSymlink (source target : Fd) (base : TreePath) (name : FileName)
    (entry : SnapshotEntry) (context : ExecutionContext) : Attempt ExecutionContext := do
  let text ← within context (sys "read source symbolic link" (call (.readlink source name)))
  within context (require (entry.linkText = some text) .sourceChanged)
  let after ← within context (nodeAt source name)
  within context (require (after = entry.node) .sourceChanged)
  let (_, context) ← stageAndPublish staging target base name .symbolicLink
    (fun stagedName => call (.symlink text staging stagedName)) (fun _ => pure 0) context
  pure context

/-- One round of `materialize_directory`: the entry is the one that the first scan recorded under
this path. -/
def materializeEntry (descend : Fd → Fd → TreePath → ExecutionContext → Attempt ExecutionContext)
    (source target : Fd) (base : TreePath) (context : ExecutionContext) (name : FileName) :
    Attempt ExecutionContext := do
  let entry ← within context (orMissing .sourceChanged (expected.entries.lookup (base ++ [name])))
  let before ← within context (nodeAt source name)
  within context (require (before = entry.node) .sourceChanged)
  match before.kind with
  | .directory => materializeChild staging descend source target base name before context
  | .file => materializeFile backend staging source target base name before context
  | .symlink => materializeSymlink staging source target base name entry context
  | .unsupported => within context (throw rejectUnsupportedSource)

/-- `materialize_directory`, with the frames left on the stack: the names of the source, one round
for each. -/
def materializeDirectory : ℕ → Fd → Fd → TreePath → ExecutionContext → Attempt ExecutionContext
  | 0, _, _, _, _ => overflowStack
  | frames + 1, source, target, base, context => do
    let names ← within context (directoryNames source)
    names.foldlM (materializeEntry backend expected staging (materializeDirectory frames) source
      target base) context

/-! ### The attempt

The whole attempt: binding, first scan, walk, second scan of the source, scan of the target,
and the receipt. -/

/-- `created_matches_target`: the entries of the target are exactly those that this attempt made,
by path, kind and identity. -/
def createdMatchesTarget (target : TreeSnapshot) (created : List TrackedCreated) : Bool :=
  target.entries.keys.card == created.length &&
    created.all fun entry =>
      (target.entries.lookup entry.path).any fun observed =>
        observed.node.kind == entryNodeKind entry.kind &&
          entry.identity == some observed.node.identity

/-- The confirmation of one quarantined object in `clear_confirmed_prior_quarantine`: it is the
object that the failed attempt made, and a directory is empty. -/
def confirmQuarantined (paths : BoundPaths) (attempt : FailedMaterializationAttempt)
    (removed quarantine : RelativePath) : Fs (FileName × NodeKind) := do
  let created ← orMissing stalePlan (attempt.created.find? fun entry => entry.path == removed)
  let identity ← orMissing stalePlan created.identity
  let kind := entryNodeKind created.kind
  let name ← orMissing stalePlan quarantine.name?
  let observed ← nodeAt paths.trash name
  ensureIdentity observed identity kind
  if kind = .directory then do
    let directory ← openDirectory paths.trash name
    ensureEmpty directory
    pure (name, kind)
  else pure (name, kind)

/-- The end of `clear_confirmed_prior_quarantine`: the confirmed objects are removed, and the trash
has to be empty behind them. -/
def removeQuarantined (paths : BoundPaths) : List (FileName × NodeKind) → Fs Unit
  | [] => ensureEmpty paths.trash
  | (name, kind) :: confirmed => do
    sys "clear confirmed Btrfs rollback quarantine"
      (call (.unlink paths.trash name (kind = .directory)))
    removeQuarantined paths confirmed

/-- `clear_confirmed_prior_quarantine` of an attempt that restored the baseline: the trash holds
the confirmed objects and nothing else. -/
def clearConfirmed (paths : BoundPaths) (attempt : FailedMaterializationAttempt) : Fs Unit := do
  require (attempt.rollback.status = .confirmedBaseline ∧
    attempt.rollback.unconfirmedQuarantined = [] ∧
    attempt.rollback.removed.length = attempt.rollback.quarantined.length) stalePlan
  let confirmed ← (attempt.rollback.removed.zip attempt.rollback.quarantined).mapM
    fun (removed, quarantine) => confirmQuarantined paths attempt removed quarantine
  let actual ← directoryNames paths.trash
  require (actual.length = confirmed.length ∧
    ∀ name ∈ actual, name ∈ confirmed.map (·.1)) .targetChanged
  removeQuarantined paths confirmed

/-- `clear_confirmed_prior_quarantine`: an attempt that needed no rollback left nothing behind, and
more than one earlier attempt is refused. -/
def clearConfirmedPriorQuarantine (paths : BoundPaths) (plan : MaterializationPlan) : Fs Unit :=
  match plan.failedAttempts with
  | [] => ensureEmpty paths.trash
  | [attempt] =>
    if attempt.rollback.status = .notNeeded then do
      require (attempt.created = [] ∧ attempt.rollback.removed = [] ∧
        attempt.rollback.quarantined = [] ∧ attempt.rollback.unconfirmedQuarantined = []) stalePlan
      ensureEmpty paths.trash
    else clearConfirmed paths attempt
  | _ => throw stalePlan

variable (blake3 : List UInt8 → TreeDigest) (frames : ℕ)

/-- The digest a fallback at run time must find the source with. -/
def priorSourceDigest (plan : MaterializationPlan) : Option TreeDigest :=
  plan.failedAttempts.head?.bind (·.evidence.sourceManifestDigest)

/-- The check of the trash, which only a clone makes. -/
def ensureEmptyTrash (backend : Backend) (trash : Fd) : Fs Unit :=
  if backend = .cow then ensureEmpty trash else pure ()

/-- The part of `materialize_with_hook` before its directories are bound. -/
def bindPaths (request : MaterializeRequest) (plan : MaterializationPlan) (backend : Backend) :
    Fs (BoundPaths × TreeSnapshot) := do
  validateRequestPlan request plan backend
  let fresh ← Program.orFail
    (fun _ => ⟨.planStale, .invalidLayout, "revalidate Btrfs materialization paths"⟩)
    (call (.inspectMaterializationPaths (.fromRequest request)))
  require (fresh.evidenceDigest = plan.probeEvidenceDigest ∧
    (match backend with
      | .cow => fresh.cowClone.state
      | .fullCopy => fresh.fullCopy.state) ≠ .unsupported) stalePlan
  let paths ← BoundPaths.open request fresh
  ensureEmpty paths.target
  ensureEmpty paths.staging
  ensureEmptyTrash backend paths.trash
  let source ← snapshot blake3 frames paths.source
  require (¬(backend = .fullCopy ∧ plan.fallbackReason = some .cloneUnavailableAtRuntime ∧
    priorSourceDigest plan ≠ some (source.manifest.digest blake3))) .sourceChanged
  pure (paths, source)

/-- The context when the directories have just been bound. -/
def ExecutionContext.bound (source : TreeSnapshot) : ExecutionContext :=
  { ExecutionContext.default with
    sourceManifest := some (source.manifest.digest blake3)
    regularFiles := some source.manifest.regularFiles
    logicalBytes := some source.manifest.logicalBytes }

/-- The receipt of a success: the constructor of its mode, with the digests of both scans. -/
def successReceipt (plan : MaterializationPlan) (source target : TreeSnapshot)
    (context : ExecutionContext) (elapsed : UInt64) :
    Except MaterializationReceiptError MaterializationReceipt :=
  let created := context.created.map TrackedCreated.evidence
  match backend with
  | .cow =>
    MaterializationReceipt.successfulCowClone plan source.manifest.regularFiles
      context.cloneCalls created (source.manifest.digest blake3) (target.manifest.digest blake3)
      elapsed source.manifest.logicalBytes (some target.manifest.physicalBytes)
  | .fullCopy =>
    MaterializationReceipt.successfulFullCopy plan source.manifest.regularFiles created
      (source.manifest.digest blake3) (target.manifest.digest blake3) elapsed
      source.manifest.logicalBytes (some target.manifest.physicalBytes)

/-- A failure of a later snapshot, as `materialize_with_hook` reports it. -/
def changed (kind : MaterializationFailureKind) (portKind : PortErrorKind) (operation : String)
    (x : Fs TreeSnapshot) : Fs TreeSnapshot :=
  x.mapError fun _ => ⟨kind, portKind, operation⟩

/-- The part of `materialize_with_hook` once its directories are bound. -/
def materializeBound (request : MaterializeRequest) (plan : MaterializationPlan)
    (backend : Backend) (paths : BoundPaths) (source : TreeSnapshot)
    (context : ExecutionContext) : Attempt MaterializationReceipt := do
  let context ← materializeDirectory backend source paths.staging frames paths.source
    paths.target [] context
  let context := { context with targetModified := true }
  let root ← within context (node paths.target)
  within context (setPreservedMetadata paths.target root.identity source.root)
  let sourceAfter ← within context (changed .sourceChanged .invalidData
    "revalidate Btrfs source tree" (snapshot blake3 frames paths.source))
  within context (require (sourceAfter = source) .sourceChanged)
  let targetAfter ← within context (changed .targetChanged .invalidLayout
    "revalidate Btrfs target tree" (snapshot blake3 frames paths.target))
  let context := { context with
    targetManifest := some (targetAfter.manifest.digest blake3)
    physicalBytes := some targetAfter.manifest.physicalBytes }
  within context (require (targetAfter.manifest.matchesPromised source.manifest = true ∧
    createdMatchesTarget targetAfter context.created = true)
    ⟨.manifestMismatch, .invalidData, "verify Btrfs target manifest"⟩)
  within context (paths.revalidate request)
  within context (if backend = .fullCopy then clearConfirmedPriorQuarantine paths plan else pure ())
  let elapsed ← call .elapsedMillis
  within context (Program.ofExcept
    (fun _ => ⟨.manifestMismatch, .invalidData, "construct Btrfs materialization receipt"⟩)
    (successReceipt backend blake3 plan source targetAfter context elapsed))

end Btrfs
end ThinWorkspace
