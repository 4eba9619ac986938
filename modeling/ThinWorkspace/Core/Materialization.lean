/-
# Materialization evidence, plans and receipts

Source: `crates/thinws-core/src/materialization.rs`.  A probe yields one
`MaterializationPathReport`; one of three constructors turns it into a
`MaterializationPlan`; an attempt under a plan yields a `MaterializationReceipt`.
The fields of a plan are private in the source, so every plan is the result of
one of the three constructors: `MaterializationPlan.Built` says so, and
`Built.cases` is what a constructor can return.

A receipt reaches the use case from an adapter, and its fields are taken as
arbitrary there; the constructors the adapters use are at the end.
-/

import ThinWorkspace.Core.Workspace
import ThinWorkspace.Lib.Except

namespace ThinWorkspace
namespace Core

open Lib.Fallible (refuseIf bind_eq_ok refuseIf_eq_ok)

/-! ### Vocabulary

Each enumeration of the source is a type here, with its constructors in the order of the
source.  Several of them keep an unknown apart from a no: `unknown` support, a failure that
is not the lack of support, evidence that is missing. -/

/-- `SupportState`: whether a probe found a capability supported; `unknown` is neither answer. -/
inductive SupportState where
  | supported | unsupported | unknown
deriving DecidableEq

/-- `MaterializerKind`: the two clones of the platforms, and the copy that any platform can make.
-/
inductive MaterializerKind where
  | apfsFileClone | btrfsReflink | fullCopy
deriving DecidableEq

/-- `MaterializationMode`: a clone that shares blocks, or a copy of every byte. -/
inductive MaterializationMode where
  | cowClone | fullCopy
deriving DecidableEq

/-- `FallbackPolicy`: whether a request allows a full copy where the clone is not supported. -/
inductive FallbackPolicy where
  | deny | allowFullCopyOnCowUnsupported
deriving DecidableEq

/-- `FallbackReason`: whether the clone was given up before it was tried or after. -/
inductive FallbackReason where
  | cloneUnsupportedAtPreflight | cloneUnavailableAtRuntime
deriving DecidableEq

/-- `MaterializationOutcome`: what became of an attempt; `partialWork` left objects behind. -/
inductive MaterializationOutcome where
  | succeeded | partialWork | failed
deriving DecidableEq

/-- `CowEvidence`: what an attempt can say about shared blocks. -/
inductive CowEvidence where
  | confirmed | notUsed | unknown
deriving DecidableEq

/-- `RollbackStatus`: whether a rollback was needed, and whether it saw the target as it was
before. -/
inductive RollbackStatus where
  | notNeeded | confirmedBaseline | incomplete
deriving DecidableEq

/-- `PathResolution`: whether the requested path exists, or only some ancestor of it. -/
inductive PathResolution where
  | existingDirectory | missingTarget
deriving DecidableEq

/-- `MaterializedEntryKind`: the kinds of entries that a materializer makes. -/
inductive MaterializedEntryKind where
  | directory | regularFile | symbolicLink
deriving DecidableEq

/-- `MaterializationFailureKind`: why an attempt failed; only `cowUnavailable` allows a fallback.
-/
inductive MaterializationFailureKind where
  | planStale | invalidLayout | unsupportedSourceEntry | sourceChanged | targetChanged
  | cowUnavailable | noSpace | manifestMismatch | filesystem
deriving DecidableEq

/-! ### Probe evidence

What a probe reports of a path is a value with its own consistency: `PathCapabilityReport`
carries the three relations of its constructor as fields, so every report that a plan is
made from satisfies them.  The texts and numbers that the digest of a report covers are all
kept. -/

/-- `Evidence<T>`: a value, or why there is none. -/
inductive Evidence (T : Type) where
  | known (value : T)
  | unknown (reason : String) (errno : Option Int32)
deriving DecidableEq

/-- `Evidence::known`: the value that was found, if there is one. -/
def Evidence.known? {T : Type} : Evidence T → Option T
  | .known value => some value
  | .unknown _ _ => none

/-- `FileIdentity`: what tells a file from every other one at a moment. -/
structure FileIdentity where
  device : UInt64
  inode : UInt64
deriving DecidableEq

/-- `DirectoryIdentityEvidence`: a directory on the way to a path, with the identity it was seen
with. -/
structure DirectoryIdentityEvidence where
  path : AbsolutePath
  identity : FileIdentity
deriving DecidableEq

/-- `FileSystemIdentity`: the type, the numbers and, where it could be found, the volume of a
filesystem. -/
structure FileSystemIdentity where
  typeName : String
  fsid : Int32 × Int32
  volumeId : Evidence VolumeId
deriving DecidableEq

/-- `MountEvidence`: the flags of a mount, and its number on platforms that have one. -/
structure MountEvidence where
  rawFlags : UInt32
  writable : Bool
  mountId : Option UInt64
deriving DecidableEq

/-- `CandidateEvidence`: a materializer with what the probe found of it, and why. -/
structure CandidateEvidence where
  kind : MaterializerKind
  state : SupportState
  reasons : List String
deriving DecidableEq

/-- A 32-byte digest, the payload of `ProbeEvidenceDigest` and `TreeDigest`. -/
structure Digest where
  bytes : List UInt8
  length_bytes : bytes.length = 32
deriving DecidableEq

/-- `ProbeEvidenceDigest`: the hash of everything a probe reported. -/
abbrev ProbeEvidenceDigest := Digest

/-- `TreeDigest`: the hash of a file or of the manifest of a tree. -/
abbrev TreeDigest := Digest

/-- `PathCapabilityReportError`: which of the three relations between the fields of a report fails.
-/
inductive PathCapabilityReportError where
  | missingAncestry | resolutionMismatch | ancestorMismatch
deriving DecidableEq

/-- `PathCapabilityReport`, with the three relations its constructor checks. -/
structure PathCapabilityReport where
  requestedPath : AbsolutePath
  resolution : PathResolution
  nearestExistingAncestor : AbsolutePath
  missingComponents : List (List UInt8)
  ancestry : List DirectoryIdentityEvidence
  filesystem : FileSystemIdentity
  mount : MountEvidence
  readability : SupportState
  writability : SupportState
  cowClone : SupportState
  ancestry_ne_nil : ancestry ≠ []
  existing_iff : resolution = .existingDirectory ↔ missingComponents = []
  last_ancestry : ancestry.getLast?.map (·.path) = some nearestExistingAncestor
deriving DecidableEq

/-- `PathCapabilityReport::new`, the only way to make a report: its three relations are checked,
and are then fields of the report. -/
def PathCapabilityReport.new (requestedPath : AbsolutePath) (resolution : PathResolution)
    (nearestExistingAncestor : AbsolutePath) (missingComponents : List (List UInt8))
    (ancestry : List DirectoryIdentityEvidence) (filesystem : FileSystemIdentity)
    (mount : MountEvidence) (readability writability cowClone : SupportState) :
    Except PathCapabilityReportError PathCapabilityReport :=
  if h₁ : ancestry = [] then .error .missingAncestry
  else if h₂ : resolution = .existingDirectory ↔ missingComponents = [] then
    if h₃ : ancestry.getLast?.map (·.path) = some nearestExistingAncestor then
      .ok { requestedPath, resolution, nearestExistingAncestor, missingComponents, ancestry,
            filesystem, mount, readability, writability, cowClone,
            ancestry_ne_nil := h₁, existing_iff := h₂, last_ancestry := h₃ }
    else .error .ancestorMismatch
  else .error .resolutionMismatch

/-- `MaterializationPathReport`: the four path roles and the two candidates. -/
structure MaterializationPathReport where
  source : PathCapabilityReport
  targetRoot : PathCapabilityReport
  staging : PathCapabilityReport
  trash : PathCapabilityReport
  cowClone : CandidateEvidence
  fullCopy : CandidateEvidence
  evidenceDigest : ProbeEvidenceDigest
deriving DecidableEq

/-! ### Receipts

A receipt says what an attempt did, whether it succeeded or not: what it created, what a
rollback removed, moved or left, and what it counted.  The fields are those of the source;
which combinations can occur is a matter of its constructors, in
`ThinWorkspace.Core.Receipt`. -/

/-- `RelativePathError` is the one refusal of `RelativePath::try_from_bytes`. -/
def validateRelativePath (bytes : List UInt8) : Bool :=
  !(bytes == [] || bytes.head? == some slash || bytes.contains 0) &&
    !(bytes.splitOn slash).any isSpecialComponent

/-- `RelativePath`: the bytes of a path that passed its validation. -/
structure RelativePath where
  asBytes : List UInt8
  valid : validateRelativePath asBytes = true
deriving DecidableEq

/-- `RelativePath::try_from_bytes`, with its one reason to refuse left out. -/
def RelativePath.tryFromBytes (bytes : List UInt8) : Option RelativePath :=
  if h : validateRelativePath bytes = true then some ⟨bytes, h⟩ else none

/-- `CreatedObjectEvidence`: an entry that an attempt made, with its identity where it was seen. -/
structure CreatedObjectEvidence where
  path : RelativePath
  kind : MaterializedEntryKind
  identity : Option FileIdentity
deriving DecidableEq

/-- `RollbackEvidence`: what a rollback removed, what it moved to the trash, and what it left. -/
structure RollbackEvidence where
  status : RollbackStatus
  removed : List RelativePath
  quarantined : List RelativePath
  unconfirmedQuarantined : List RelativePath
  remaining : List CreatedObjectEvidence
deriving DecidableEq

/-- `RollbackEvidence::new`: evidence of a rollback that moved nothing to the trash. -/
def RollbackEvidence.new (status : RollbackStatus) (removed : List RelativePath)
    (remaining : List CreatedObjectEvidence) : RollbackEvidence :=
  ⟨status, removed, [], [], remaining⟩

/-- `MaterializationAttemptEvidence`: the counts and digests of an attempt, as far as it got. -/
structure MaterializationAttemptEvidence where
  logicalBytes : Option UInt64
  physicalBytes : Option UInt64
  regularFileCount : Option UInt64
  cloneCallsSucceeded : UInt64
  sourceManifestDigest : Option TreeDigest
  targetManifestDigest : Option TreeDigest
deriving DecidableEq

/-- `FailedMaterializationAttempt`: a failed attempt as it is kept in the plan of the fallback. -/
structure FailedMaterializationAttempt where
  probeEvidenceDigest : ProbeEvidenceDigest
  attemptedMode : MaterializationMode
  actualAdapter : MaterializerKind
  outcome : MaterializationOutcome
  failureKind : MaterializationFailureKind
  sourceVolumeId : Option VolumeId
  targetVolumeId : Option VolumeId
  created : List CreatedObjectEvidence
  rollback : RollbackEvidence
  elapsedMillis : UInt64
  evidence : MaterializationAttemptEvidence
deriving DecidableEq

/-- `MaterializationReceipt`: what an attempt reports, whether it succeeded or not. -/
structure MaterializationReceipt where
  probeEvidenceDigest : ProbeEvidenceDigest
  requestedMode : MaterializationMode
  effectiveMode : MaterializationMode
  actualMode : MaterializationMode
  actualAdapter : MaterializerKind
  outcome : MaterializationOutcome
  cowEvidence : CowEvidence
  sourceVolumeId : Option VolumeId
  targetVolumeId : Option VolumeId
  created : List CreatedObjectEvidence
  unconfirmedStaging : Option CreatedObjectEvidence
  rollback : RollbackEvidence
  elapsedMillis : UInt64
  logicalBytes : Option UInt64
  physicalBytes : Option UInt64
  regularFileCount : Option UInt64
  cloneCallsSucceeded : UInt64
  sourceManifestDigest : Option TreeDigest
  targetManifestDigest : Option TreeDigest
  failureKind : Option MaterializationFailureKind
  fallbackReason : Option FallbackReason
  failedAttempts : List FailedMaterializationAttempt
deriving DecidableEq

/-- `MaterializeRequest`: the source, the target and the two operation directories of an attempt.
-/
structure MaterializeRequest where
  source : AbsolutePath
  target : AbsolutePath
  staging : AbsolutePath
  trash : AbsolutePath
deriving DecidableEq

/-! ### Plans

The checks of the three constructors, each under the name that it has in the source and in
the order of the code.  `phase1VolumeLayout` and `receiptMatchesPlan` are the two that
compare many fields. -/

/-- `MaterializationPlanError`: why a constructor refused to make a plan. -/
inductive MaterializationPlanError where
  | wrongCandidate | candidateUnsupported | unknownVolume | wrongFilesystem | unknownMount
  | differentMount | differentVolume | wrongFullCopyCandidate | fullCopyUnavailable
  | fallbackDenied | fallbackNotEligible | previousAttemptNotClean | previousAttemptMismatch
deriving DecidableEq

/-- `MaterializationPlan`; `pathEvidence` holds the four reports in the order
source, target, staging, trash. -/
structure MaterializationPlan where
  requestedMode : MaterializationMode
  effectiveMode : MaterializationMode
  selectedAdapter : MaterializerKind
  fallbackPolicy : FallbackPolicy
  probeEvidenceDigest : ProbeEvidenceDigest
  pathEvidence : List PathCapabilityReport
  sourcePath : AbsolutePath
  targetPath : AbsolutePath
  stagingPath : AbsolutePath
  trashPath : AbsolutePath
  sourceVolumeId : VolumeId
  targetVolumeId : VolumeId
  fallbackReason : Option FallbackReason
  failedAttempts : List FailedMaterializationAttempt
deriving DecidableEq

/-- `require_fallback_policy`: a fallback has to be allowed by the request. -/
def requireFallbackPolicy (policy : FallbackPolicy) : Except MaterializationPlanError Unit :=
  if policy = .allowFullCopyOnCowUnsupported then .ok () else .error .fallbackDenied

/-- `require_cow_backend`: a full copy is not a clone. -/
def requireCowBackend : MaterializerKind → Except MaterializationPlanError Unit
  | .apfsFileClone | .btrfsReflink => .ok ()
  | .fullCopy => .error .wrongCandidate

/-- `require_candidate_kinds`: the report has a clone and a full copy in their places. -/
def requireCandidateKinds (report : MaterializationPathReport) :
    Except MaterializationPlanError Unit := do
  requireCowBackend report.cowClone.kind
  refuseIf (report.fullCopy.kind ≠ .fullCopy) .wrongFullCopyCandidate

/-- `require_full_copy_supported`: the probe found the full copy supported. -/
def requireFullCopySupported (report : MaterializationPathReport) :
    Except MaterializationPlanError Unit :=
  if report.fullCopy.state = .supported then .ok () else .error .fullCopyUnavailable

/-- `materialization.rs::volume_id`: a path whose volume is not known cannot be planned for. -/
def volumeIdOf (report : PathCapabilityReport) : Except MaterializationPlanError VolumeId :=
  match report.filesystem.volumeId.known? with
  | some id => .ok id
  | none => .error .unknownVolume

/-- The four path roles, in the source's order. -/
def MaterializationPathReport.paths (report : MaterializationPathReport) :
    List PathCapabilityReport :=
  [report.source, report.targetRoot, report.staging, report.trash]

/-- The loop over the mount identities of `phase1_volume_layout`. -/
def requireMount (first : UInt64) : List PathCapabilityReport → Except MaterializationPlanError Unit
  | [] => .ok ()
  | path :: rest =>
    match path.mount.mountId with
    | none => .error .unknownMount
    | some mountId => if mountId ≠ first then .error .differentMount else requireMount first rest

/-- The `expected_type` of `phase1_volume_layout`: each clone works on its own filesystem only. -/
def expectedFilesystem : MaterializerKind → Except MaterializationPlanError String
  | .apfsFileClone => .ok "apfs"
  | .btrfsReflink => .ok "btrfs"
  | .fullCopy => .error .wrongCandidate

/-- The mount check of `phase1_volume_layout`, made for Btrfs only. -/
def requireOneMount (report : MaterializationPathReport) (backend : MaterializerKind) :
    Except MaterializationPlanError Unit :=
  if backend = .btrfsReflink then
    match report.source.mount.mountId with
    | none => .error .unknownMount
    | some first => requireMount first [report.targetRoot, report.staging, report.trash]
  else .ok ()

/-- `phase1_volume_layout`: all four paths are on the filesystem of the clone and on one volume. -/
def phase1VolumeLayout (report : MaterializationPathReport) (backend : MaterializerKind) :
    Except MaterializationPlanError (VolumeId × VolumeId) := do
  requireCowBackend backend
  let sourceType := report.source.filesystem.typeName
  let expectedType ← expectedFilesystem backend
  refuseIf (sourceType ≠ expectedType ∨
      [report.targetRoot, report.staging, report.trash].any
        (fun path => path.filesystem.typeName ≠ sourceType)) .wrongFilesystem
  let sourceVolumeId ← volumeIdOf report.source
  let targetVolumeId ← volumeIdOf report.targetRoot
  let stagingVolumeId ← volumeIdOf report.staging
  let trashVolumeId ← volumeIdOf report.trash
  refuseIf ([targetVolumeId, stagingVolumeId, trashVolumeId].any (· ≠ sourceVolumeId))
    .differentVolume
  requireOneMount report backend
  pure (sourceVolumeId, targetVolumeId)

/-- One comparison of `report_paths_match_plan`: everything but the access facts. -/
def pathEvidenceMatches (fresh frozen : PathCapabilityReport) : Bool :=
  fresh.requestedPath == frozen.requestedPath && fresh.resolution == frozen.resolution &&
    fresh.nearestExistingAncestor == frozen.nearestExistingAncestor &&
    fresh.missingComponents == frozen.missingComponents && fresh.ancestry == frozen.ancestry &&
    fresh.filesystem == frozen.filesystem && fresh.mount == frozen.mount

/-- `report_paths_match_plan`: the fresh report is about the paths that the plan was made for. -/
def reportPathsMatchPlan (report : MaterializationPathReport) (plan : MaterializationPlan) : Bool :=
  (report.paths.zip plan.pathEvidence).all fun (fresh, frozen) => pathEvidenceMatches fresh frozen

/-- `receipt_matches_plan`: the receipt is one of a failed attempt under this very plan. -/
def receiptMatchesPlan (receipt : MaterializationReceipt) (plan : MaterializationPlan) : Bool :=
  receipt.probeEvidenceDigest == plan.probeEvidenceDigest &&
    receipt.requestedMode == plan.requestedMode &&
    receipt.effectiveMode == plan.effectiveMode &&
    receipt.actualMode == .cowClone &&
    receipt.actualAdapter == plan.selectedAdapter &&
    receipt.sourceVolumeId == some plan.sourceVolumeId &&
    receipt.targetVolumeId == some plan.targetVolumeId &&
    receipt.fallbackReason == plan.fallbackReason &&
    receipt.failedAttempts == plan.failedAttempts &&
    receipt.outcome != .succeeded

/-- `receipt_restored_baseline`: the receipt says that the attempt left nothing in the target. -/
def receiptRestoredBaseline (receipt : MaterializationReceipt) : Bool :=
  if receipt.unconfirmedStaging.isSome then false
  else
    let rollbackIsEmpty :=
      receipt.rollback.remaining.isEmpty && receipt.rollback.unconfirmedQuarantined.isEmpty
    match receipt.rollback.status with
    | .confirmedBaseline => rollbackIsEmpty
    | .notNeeded =>
      rollbackIsEmpty && receipt.rollback.removed.isEmpty &&
        receipt.rollback.quarantined.isEmpty && receipt.outcome == .failed &&
        receipt.created.isEmpty && receipt.cloneCallsSucceeded == 0
    | .incomplete => false

/-! ### What the checks of a plan compare

Each computed check has a reading that does not compute: `OneLayout` for the layout,
`SameEvidence` for two reports of a path, `ReceiptMatches` and `LeftNothing` for the receipt
of the attempt before.  The lemmas that end in `_eq_ok` and `_iff` are equivalences, so
nothing is lost between the check and its reading.  The constructors stand behind them. -/

/-- The paths lie on one volume.  Each is on a filesystem of the type that the backend clones
on (`apfs` or `btrfs`), each is known to lie on `volume`, and under Btrfs all of them share one
known mount. -/
structure OneLayout (backend : MaterializerKind) (paths : List PathCapabilityReport)
    (volume : VolumeId) : Prop where
  filesystem : (backend = .apfsFileClone ∧ ∀ path ∈ paths, path.filesystem.typeName = "apfs") ∨
    (backend = .btrfsReflink ∧ ∀ path ∈ paths, path.filesystem.typeName = "btrfs")
  volumes : ∀ path ∈ paths, path.filesystem.volumeId.known? = some volume
  mounts : backend = .btrfsReflink → ∃ mountId, ∀ path ∈ paths, path.mount.mountId = some mountId

/-- Two reports of one path that differ in the access facts at most. -/
structure SameEvidence (fresh frozen : PathCapabilityReport) : Prop where
  requestedPath : fresh.requestedPath = frozen.requestedPath
  resolution : fresh.resolution = frozen.resolution
  nearestExistingAncestor : fresh.nearestExistingAncestor = frozen.nearestExistingAncestor
  missingComponents : fresh.missingComponents = frozen.missingComponents
  ancestry : fresh.ancestry = frozen.ancestry
  filesystem : fresh.filesystem = frozen.filesystem
  mount : fresh.mount = frozen.mount

/-- The receipt is that of an attempt to clone under this plan which did not succeed: it names
the plan's digest, modes, adapter, volumes, reason and attempts. -/
structure ReceiptMatches (receipt : MaterializationReceipt) (plan : MaterializationPlan) :
    Prop where
  digest : receipt.probeEvidenceDigest = plan.probeEvidenceDigest
  requested : receipt.requestedMode = plan.requestedMode
  effective : receipt.effectiveMode = plan.effectiveMode
  actual : receipt.actualMode = .cowClone
  adapter : receipt.actualAdapter = plan.selectedAdapter
  source : receipt.sourceVolumeId = some plan.sourceVolumeId
  target : receipt.targetVolumeId = some plan.targetVolumeId
  reason : receipt.fallbackReason = plan.fallbackReason
  attempts : receipt.failedAttempts = plan.failedAttempts
  outcome : receipt.outcome ≠ .succeeded

/-- An attempt that left no created object in its target.  Either its rollback confirmed the
target to be as it was, or none was needed: then the attempt failed before it had created
anything, no clone call had succeeded, and nothing was removed or moved aside.  In both cases
no object is left and none that was moved aside is unconfirmed. -/
structure LeftNothing (outcome : MaterializationOutcome) (created : List CreatedObjectEvidence)
    (cloneCallsSucceeded : UInt64) (rollback : RollbackEvidence) : Prop where
  remaining : rollback.remaining = []
  unconfirmed : rollback.unconfirmedQuarantined = []
  settled : rollback.status = .confirmedBaseline ∨
    (rollback.status = .notNeeded ∧ outcome = .failed ∧ created = [] ∧ cloneCallsSucceeded = 0 ∧
      rollback.removed = [] ∧ rollback.quarantined = [])

/-- A volume identity is returned exactly where it is known. -/
theorem volumeIdOf_eq_ok {path : PathCapabilityReport} {volume : VolumeId} :
    volumeIdOf path = .ok volume ↔ path.filesystem.volumeId.known? = some volume := by
  unfold volumeIdOf
  split
  · next hknown => simp [hknown]
  · next hunknown => simp [hunknown]

/-- The loop over the mounts compares each with the first. -/
theorem requireMount_eq_ok {first : UInt64} {paths : List PathCapabilityReport} :
    requireMount first paths = .ok () ↔ ∀ path ∈ paths, path.mount.mountId = some first := by
  induction paths with
  | nil => simp [requireMount]
  | cons path rest ih =>
    rw [requireMount, List.forall_mem_cons, ← ih]
    split
    · next hnone => simp [hnone]
    · next mountId hmount =>
      by_cases hsame : mountId = first
      · simp [hmount, hsame]
      · simp [hmount, hsame]

/-- Under Btrfs, and only there, the paths must share one known mount. -/
theorem requireOneMount_eq_ok {report : MaterializationPathReport} {backend : MaterializerKind} :
    requireOneMount report backend = .ok () ↔ (backend = .btrfsReflink →
      ∃ mountId, ∀ path ∈ report.paths, path.mount.mountId = some mountId) := by
  rw [requireOneMount]
  by_cases hbackend : backend = .btrfsReflink
  · rw [if_pos hbackend]
    simp only [hbackend, true_imp_iff, MaterializationPathReport.paths, List.forall_mem_cons]
    split
    · next hnone => simp [hnone]
    · next first hfirst =>
      rw [requireMount_eq_ok]
      simp [hfirst]
  · simp [hbackend]

/-- **The layout check looks at all four paths.**  It returns two volumes exactly where they
are one, on which all four paths are laid out. -/
theorem phase1VolumeLayout_eq_ok {report : MaterializationPathReport}
    {backend : MaterializerKind} {source target : VolumeId} :
    phase1VolumeLayout report backend = .ok (source, target) ↔
      target = source ∧ OneLayout backend report.paths source := by
  simp only [phase1VolumeLayout, bind_eq_ok, refuseIf_eq_ok, volumeIdOf_eq_ok,
    List.any_cons, List.any_nil, Bool.or_false, Bool.or_eq_true,
    decide_eq_true_eq, not_or, not_not, ne_eq]
  constructor
  · rintro ⟨_, -, typeName, htype, _, ⟨hsourceType, htargetType, hstagingType, htrashType⟩,
      sourceId, hsource, _, htarget, _, hstaging, _, htrash, _, ⟨rfl, rfl, rfl⟩, _, hmounts, he⟩
    cases he
    refine ⟨rfl, ?_, by simp [MaterializationPathReport.paths, hsource, htarget, hstaging, htrash],
      requireOneMount_eq_ok.mp hmounts⟩
    have htypes : ∀ path ∈ report.paths, path.filesystem.typeName = typeName := by
      simp [MaterializationPathReport.paths, hsourceType, htargetType, hstagingType, htrashType]
    cases backend with
    | apfsFileClone =>
      cases htype
      exact .inl ⟨rfl, htypes⟩
    | btrfsReflink =>
      cases htype
      exact .inr ⟨rfl, htypes⟩
    | fullCopy => cases htype
  · rintro ⟨rfl, hfilesystem, hvolumes, hmounts⟩
    have hknown : ∃ typeName, requireCowBackend backend = .ok () ∧
        expectedFilesystem backend = .ok typeName ∧
        ∀ path ∈ report.paths, path.filesystem.typeName = typeName := by
      rcases hfilesystem with ⟨rfl, htypes⟩ | ⟨rfl, htypes⟩
      · exact ⟨"apfs", rfl, rfl, htypes⟩
      · exact ⟨"btrfs", rfl, rfl, htypes⟩
    obtain ⟨typeName, hbackend, htype, htypes⟩ := hknown
    simp only [MaterializationPathReport.paths, List.forall_mem_cons] at htypes hvolumes
    obtain ⟨hsourceType, htargetType, hstagingType, htrashType, -⟩ := htypes
    obtain ⟨hsource, htarget, hstaging, htrash, -⟩ := hvolumes
    exact ⟨(), hbackend, typeName, htype, (), ⟨hsourceType, htargetType.trans hsourceType.symm,
      hstagingType.trans hsourceType.symm, htrashType.trans hsourceType.symm⟩, target, hsource,
      target, htarget, target, hstaging, target, htrash, (), ⟨rfl, rfl, rfl⟩, (),
      requireOneMount_eq_ok.mpr hmounts, rfl⟩

/-- One comparison of two reports of a path. -/
theorem pathEvidenceMatches_iff {fresh frozen : PathCapabilityReport} :
    pathEvidenceMatches fresh frozen = true ↔ SameEvidence fresh frozen := by
  simp only [pathEvidenceMatches, Bool.and_eq_true, beq_iff_eq, and_assoc]
  constructor
  · rintro ⟨h₁, h₂, h₃, h₄, h₅, h₆, h₇⟩
    exact ⟨h₁, h₂, h₃, h₄, h₅, h₆, h₇⟩
  · rintro ⟨h₁, h₂, h₃, h₄, h₅, h₆, h₇⟩
    exact ⟨h₁, h₂, h₃, h₄, h₅, h₆, h₇⟩

/-- The comparison of a fresh report with a plan goes through both lists of paths at once, as
far as both reach. -/
theorem reportPathsMatchPlan_iff {report : MaterializationPathReport}
    {plan : MaterializationPlan} : reportPathsMatchPlan report plan = true ↔
      ∀ pair ∈ report.paths.zip plan.pathEvidence, SameEvidence pair.1 pair.2 := by
  simp only [reportPathsMatchPlan, List.all_eq_true, pathEvidenceMatches_iff]

/-- `receipt_matches_plan` compares what a receipt repeats of its plan. -/
theorem receiptMatchesPlan_iff {receipt : MaterializationReceipt} {plan : MaterializationPlan} :
    receiptMatchesPlan receipt plan = true ↔ ReceiptMatches receipt plan := by
  simp only [receiptMatchesPlan, Bool.and_eq_true, beq_iff_eq, bne_iff_ne, and_assoc]
  constructor
  · rintro ⟨h₁, h₂, h₃, h₄, h₅, h₆, h₇, h₈, h₉, h₁₀⟩
    exact ⟨h₁, h₂, h₃, h₄, h₅, h₆, h₇, h₈, h₉, h₁₀⟩
  · rintro ⟨h₁, h₂, h₃, h₄, h₅, h₆, h₇, h₈, h₉, h₁₀⟩
    exact ⟨h₁, h₂, h₃, h₄, h₅, h₆, h₇, h₈, h₉, h₁₀⟩

/-- **A restored baseline has nothing left in it.**  The check accepts exactly the receipts
without an unconfirmed staging entry whose attempt left nothing. -/
theorem receiptRestoredBaseline_iff {receipt : MaterializationReceipt} :
    receiptRestoredBaseline receipt = true ↔ receipt.unconfirmedStaging = none ∧
      LeftNothing receipt.outcome receipt.created receipt.cloneCallsSucceeded receipt.rollback := by
  rw [receiptRestoredBaseline]
  split
  · next hsome =>
    have hne : receipt.unconfirmedStaging ≠ none := Option.isSome_iff_ne_none.mp hsome
    simp [hne]
  · next hsome =>
    have hnone : receipt.unconfirmedStaging = none := by simpa using hsome
    simp only [hnone, true_and]
    split
    · next hstatus =>
      simp only [Bool.and_eq_true, List.isEmpty_iff]
      exact ⟨fun ⟨hremaining, hunconfirmed⟩ => ⟨hremaining, hunconfirmed, .inl hstatus⟩,
        fun h => ⟨h.remaining, h.unconfirmed⟩⟩
    · next hstatus =>
      simp only [Bool.and_eq_true, List.isEmpty_iff, beq_iff_eq]
      constructor
      · rintro ⟨⟨⟨⟨⟨⟨hremaining, hunconfirmed⟩, hremoved⟩, hquarantined⟩, hfailed⟩, hcreated⟩,
          hcalls⟩
        exact ⟨hremaining, hunconfirmed, .inr ⟨hstatus, hfailed, hcreated, hcalls, hremoved,
          hquarantined⟩⟩
      · rintro ⟨hremaining, hunconfirmed, hconfirmed | ⟨-, hfailed, hcreated, hcalls, hremoved,
          hquarantined⟩⟩
        · exact absurd (hstatus.symm.trans hconfirmed) (by decide)
        · exact ⟨⟨⟨⟨⟨⟨hremaining, hunconfirmed⟩, hremoved⟩, hquarantined⟩, hfailed⟩, hcreated⟩,
            hcalls⟩
    · next hstatus =>
      refine ⟨fun h => absurd h (by decide), ?_⟩
      rintro ⟨-, -, hconfirmed | ⟨hnot, -⟩⟩
      · exact absurd (hstatus.symm.trans hconfirmed) (by decide)
      · exact absurd (hstatus.symm.trans hnot) (by decide)

/-- The attempt a runtime fallback retains of the receipt before it. -/
def MaterializationReceipt.toFailedAttempt (receipt : MaterializationReceipt) :
    FailedMaterializationAttempt where
  probeEvidenceDigest := receipt.probeEvidenceDigest
  attemptedMode := receipt.actualMode
  actualAdapter := receipt.actualAdapter
  outcome := receipt.outcome
  failureKind := .cowUnavailable
  sourceVolumeId := receipt.sourceVolumeId
  targetVolumeId := receipt.targetVolumeId
  created := receipt.created
  rollback := receipt.rollback
  elapsedMillis := receipt.elapsedMillis
  evidence :=
    { logicalBytes := receipt.logicalBytes
      physicalBytes := receipt.physicalBytes
      regularFileCount := receipt.regularFileCount
      cloneCallsSucceeded := receipt.cloneCallsSucceeded
      sourceManifestDigest := receipt.sourceManifestDigest
      targetManifestDigest := receipt.targetManifestDigest }

namespace MaterializationPlan

/-- `MaterializationPlan::full_copy`, with the evidence of the report that it is made from. -/
def fullCopy (report : MaterializationPathReport) (fallbackPolicy : FallbackPolicy)
    (sourceVolumeId targetVolumeId : VolumeId) (fallbackReason : FallbackReason)
    (failedAttempts : List FailedMaterializationAttempt) : MaterializationPlan where
  requestedMode := .cowClone
  effectiveMode := .fullCopy
  selectedAdapter := .fullCopy
  fallbackPolicy := fallbackPolicy
  probeEvidenceDigest := report.evidenceDigest
  pathEvidence := report.paths
  sourcePath := report.source.requestedPath
  targetPath := report.targetRoot.requestedPath
  stagingPath := report.staging.requestedPath
  trashPath := report.trash.requestedPath
  sourceVolumeId := sourceVolumeId
  targetVolumeId := targetVolumeId
  fallbackReason := some fallbackReason
  failedAttempts := failedAttempts

/-- `MaterializationPlan::for_cow_clone`: a candidate whose support is unknown may be tried. -/
def forCowClone (report : MaterializationPathReport) (fallbackPolicy : FallbackPolicy) :
    Except MaterializationPlanError MaterializationPlan := do
  let backend := report.cowClone.kind
  requireCowBackend backend
  let (sourceVolumeId, targetVolumeId) ← phase1VolumeLayout report backend
  refuseIf (report.cowClone.state = .unsupported) .candidateUnsupported
  pure
    { requestedMode := .cowClone
      effectiveMode := .cowClone
      selectedAdapter := backend
      fallbackPolicy := fallbackPolicy
      probeEvidenceDigest := report.evidenceDigest
      pathEvidence := report.paths
      sourcePath := report.source.requestedPath
      targetPath := report.targetRoot.requestedPath
      stagingPath := report.staging.requestedPath
      trashPath := report.trash.requestedPath
      sourceVolumeId := sourceVolumeId
      targetVolumeId := targetVolumeId
      fallbackReason := none
      failedAttempts := [] }

/-- The one reason list a preflight fallback accepts. -/
def cloneCapabilityUnsupported : List String := ["clone_capability_unsupported"]

/-- `MaterializationPlan::for_full_copy_after_preflight`: only where the probe found the clone
unsupported, and for that reason alone. -/
def forFullCopyAfterPreflight (report : MaterializationPathReport)
    (fallbackPolicy : FallbackPolicy) :
    Except MaterializationPlanError MaterializationPlan := do
  requireFallbackPolicy fallbackPolicy
  requireCandidateKinds report
  let (sourceVolumeId, targetVolumeId) ← phase1VolumeLayout report report.cowClone.kind
  requireFullCopySupported report
  refuseIf (report.cowClone.state ≠ .unsupported ∨
    report.cowClone.reasons ≠ cloneCapabilityUnsupported) .fallbackNotEligible
  pure (fullCopy report fallbackPolicy sourceVolumeId targetVolumeId
    .cloneUnsupportedAtPreflight [])

/-- `MaterializationPlan::for_full_copy_after_cow_unavailable`: every check of the earlier plan and
its receipt comes before the copy is planned. -/
def forFullCopyAfterCowUnavailable (freshReport : MaterializationPathReport)
    (priorPlan : MaterializationPlan) (priorReceipt : MaterializationReceipt) :
    Except MaterializationPlanError MaterializationPlan := do
  requireFallbackPolicy priorPlan.fallbackPolicy
  requireCandidateKinds freshReport
  refuseIf (priorPlan.requestedMode ≠ .cowClone ∨ priorPlan.effectiveMode ≠ .cowClone ∨
    priorPlan.selectedAdapter ≠ freshReport.cowClone.kind ∨
    priorPlan.fallbackReason.isSome ∨ priorPlan.failedAttempts ≠ [] ∨
    receiptMatchesPlan priorReceipt priorPlan = false) .previousAttemptMismatch
  refuseIf (priorReceipt.failureKind ≠ some .cowUnavailable) .fallbackNotEligible
  refuseIf (receiptRestoredBaseline priorReceipt = false) .previousAttemptNotClean
  refuseIf (priorReceipt.sourceManifestDigest.isNone) .fallbackNotEligible
  refuseIf (reportPathsMatchPlan freshReport priorPlan = false) .previousAttemptMismatch
  let (sourceVolumeId, targetVolumeId) ← phase1VolumeLayout freshReport priorPlan.selectedAdapter
  refuseIf (sourceVolumeId ≠ priorPlan.sourceVolumeId ∨
    targetVolumeId ≠ priorPlan.targetVolumeId) .previousAttemptMismatch
  requireFullCopySupported freshReport
  pure (fullCopy freshReport priorPlan.fallbackPolicy sourceVolumeId targetVolumeId
    .cloneUnavailableAtRuntime [priorReceipt.toFailedAttempt])

/-! ### What the constructors return

One lemma for each constructor says everything that its success tells.  The third one is the
hard one: a full copy behind a failed clone is earned only by a receipt that matches the
plan before it and has left nothing (`forFullCopyAfterCowUnavailable_ok`).  `Built` is the
invariant of plans as the code makes them. -/

variable {report fresh : MaterializationPathReport} {policy : FallbackPolicy}
  {plan prior : MaterializationPlan} {receipt : MaterializationReceipt}

open Lib.Fallible (bind_ok refuseIf_bind_ok)

/-- A policy that passes allows a full copy where clones are not supported. -/
theorem requireFallbackPolicy_ok {u : Unit} (h : requireFallbackPolicy policy = .ok u) :
    policy = .allowFullCopyOnCowUnsupported := by
  unfold requireFallbackPolicy at h
  split at h
  · assumption
  · cases h

/-- A backend that passes clones. -/
theorem requireCowBackend_ok {kind : MaterializerKind} {u : Unit}
    (h : requireCowBackend kind = .ok u) : kind ≠ .fullCopy := by
  rintro rfl
  cases h

/-- The layout of an accepted report has one volume. -/
theorem phase1VolumeLayout_ok {backend : MaterializerKind} {source target : VolumeId}
    (h : phase1VolumeLayout report backend = .ok (source, target)) : source = target :=
  (phase1VolumeLayout_eq_ok.mp h).1.symm

/-- A CoW plan has no fallback behind it. -/
theorem forCowClone_ok (h : forCowClone report policy = .ok plan) :
    plan.requestedMode = .cowClone ∧ plan.effectiveMode = .cowClone ∧
      plan.selectedAdapter ≠ .fullCopy ∧ plan.fallbackPolicy = policy ∧
      plan.fallbackReason = none ∧ plan.failedAttempts = [] ∧
      plan.sourceVolumeId = plan.targetVolumeId := by
  unfold forCowClone at h
  obtain ⟨_, hkind, h⟩ := bind_ok h
  obtain ⟨⟨source, target⟩, hlayout, h⟩ := bind_ok h
  obtain ⟨_, h⟩ := refuseIf_bind_ok h
  cases h
  exact ⟨rfl, rfl, requireCowBackend_ok hkind, rfl, rfl, rfl, phase1VolumeLayout_ok hlayout⟩

/-- A preflight fallback rests on the report alone. -/
theorem forFullCopyAfterPreflight_ok (h : forFullCopyAfterPreflight report policy = .ok plan) :
    policy = .allowFullCopyOnCowUnsupported ∧ report.cowClone.state = .unsupported ∧
      report.cowClone.reasons = cloneCapabilityUnsupported ∧
      ∃ source target, phase1VolumeLayout report report.cowClone.kind = .ok (source, target) ∧
        plan = fullCopy report policy source target .cloneUnsupportedAtPreflight [] := by
  unfold forFullCopyAfterPreflight at h
  obtain ⟨_, hpolicy, h⟩ := bind_ok h
  obtain ⟨_, _, h⟩ := bind_ok h
  obtain ⟨⟨source, target⟩, hlayout, h⟩ := bind_ok h
  obtain ⟨_, _, h⟩ := bind_ok h
  obtain ⟨heligible, h⟩ := refuseIf_bind_ok h
  rw [not_or, not_not, not_not] at heligible
  cases h
  exact ⟨requireFallbackPolicy_ok hpolicy, heligible.1, heligible.2, source, target, hlayout, rfl⟩

/-- What a runtime fallback has checked of the attempt before it.  The plan before was one to
clone, the first of its kind, and it allows a fallback; the receipt is that of a failed attempt
under this plan for which cloning was not available, which left nothing behind and has the
manifest of the source; and the fresh report finds the four paths as the plan's evidence has
them, laid out on the plan's volume. -/
structure RuntimeFallback (fresh : MaterializationPathReport) (prior : MaterializationPlan)
    (receipt : MaterializationReceipt) : Prop where
  policy : prior.fallbackPolicy = .allowFullCopyOnCowUnsupported
  cow : prior.requestedMode = .cowClone ∧ prior.effectiveMode = .cowClone ∧
    prior.selectedAdapter = fresh.cowClone.kind
  first : prior.fallbackReason = none ∧ prior.failedAttempts = []
  matched : ReceiptMatches receipt prior
  unavailable : receipt.failureKind = some .cowUnavailable
  staging : receipt.unconfirmedStaging = none
  restored : LeftNothing receipt.outcome receipt.created receipt.cloneCallsSucceeded
    receipt.rollback
  manifest : receipt.sourceManifestDigest.isSome = true
  unmoved : ∀ pair ∈ fresh.paths.zip prior.pathEvidence, SameEvidence pair.1 pair.2
  volumes : prior.targetVolumeId = prior.sourceVolumeId
  layout : OneLayout prior.selectedAdapter fresh.paths prior.sourceVolumeId

/-- **A runtime fallback is earned.** -/
theorem forFullCopyAfterCowUnavailable_ok
    (h : forFullCopyAfterCowUnavailable fresh prior receipt = .ok plan) :
    RuntimeFallback fresh prior receipt ∧
      plan = fullCopy fresh prior.fallbackPolicy prior.sourceVolumeId prior.targetVolumeId
        .cloneUnavailableAtRuntime [receipt.toFailedAttempt] := by
  unfold forFullCopyAfterCowUnavailable at h
  obtain ⟨_, hpolicy, h⟩ := bind_ok h
  obtain ⟨_, _, h⟩ := bind_ok h
  obtain ⟨hprior, h⟩ := refuseIf_bind_ok h
  obtain ⟨hkind, h⟩ := refuseIf_bind_ok h
  obtain ⟨hrestored, h⟩ := refuseIf_bind_ok h
  obtain ⟨hmanifest, h⟩ := refuseIf_bind_ok h
  obtain ⟨hpaths, h⟩ := refuseIf_bind_ok h
  obtain ⟨⟨source, target⟩, hlayout, h⟩ := bind_ok h
  obtain ⟨hvolumes, h⟩ := refuseIf_bind_ok h
  obtain ⟨_, _, h⟩ := bind_ok h
  simp only [not_or, not_not, Bool.not_eq_false, ne_eq] at hprior hkind hrestored hpaths hvolumes
  obtain ⟨hrequested, heffective, hadapter, hreason, hattempts, hmatched⟩ := hprior
  obtain ⟨rfl, rfl⟩ := hvolumes
  obtain ⟨hstaging, hleft⟩ := receiptRestoredBaseline_iff.mp hrestored
  obtain ⟨hvolume, honce⟩ := phase1VolumeLayout_eq_ok.mp hlayout
  cases h
  refine ⟨⟨requireFallbackPolicy_ok hpolicy, ⟨hrequested, heffective, hadapter⟩,
    ⟨by simpa using hreason, hattempts⟩, receiptMatchesPlan_iff.mp hmatched, hkind, hstaging,
    hleft, ?_, reportPathsMatchPlan_iff.mp hpaths, hvolume, honce⟩, rfl⟩
  cases hd : receipt.sourceManifestDigest with
  | none => simp [hd] at hmanifest
  | some digest => rfl

/-- Every plan is the result of one of the three constructors. -/
inductive Built : MaterializationPlan → Prop
  | cowClone {report : MaterializationPathReport} {policy : FallbackPolicy}
      {plan : MaterializationPlan} (h : forCowClone report policy = .ok plan) : Built plan
  | afterPreflight {report : MaterializationPathReport} {policy : FallbackPolicy}
      {plan : MaterializationPlan} (h : forFullCopyAfterPreflight report policy = .ok plan) :
      Built plan
  | afterCowUnavailable {fresh : MaterializationPathReport} {prior plan : MaterializationPlan}
      {receipt : MaterializationReceipt}
      (h : forFullCopyAfterCowUnavailable fresh prior receipt = .ok plan) : Built plan

/-- The shapes of a plan: a clone without a fallback, or a full copy with the
reason and the attempts that go with it, on one volume. -/
theorem Built.cases (h : Built plan) :
    plan.requestedMode = .cowClone ∧ plan.sourceVolumeId = plan.targetVolumeId ∧
      (plan.effectiveMode = .cowClone ∧ plan.selectedAdapter ≠ .fullCopy ∧
          plan.fallbackReason = none ∧ plan.failedAttempts = [] ∨
        plan.effectiveMode = .fullCopy ∧ plan.selectedAdapter = .fullCopy ∧
          (plan.fallbackReason = some .cloneUnsupportedAtPreflight ∧ plan.failedAttempts = [] ∨
            plan.fallbackReason = some .cloneUnavailableAtRuntime ∧
              plan.failedAttempts.length = 1)) := by
  cases h with
  | cowClone h =>
    obtain ⟨hrequested, heffective, hadapter, _, hreason, hattempts, hvolume⟩ := forCowClone_ok h
    exact ⟨hrequested, hvolume, .inl ⟨heffective, hadapter, hreason, hattempts⟩⟩
  | afterPreflight h =>
    obtain ⟨_, _, _, source, target, hlayout, rfl⟩ := forFullCopyAfterPreflight_ok h
    exact ⟨rfl, phase1VolumeLayout_ok hlayout, .inr ⟨rfl, rfl, .inl ⟨rfl, rfl⟩⟩⟩
  | afterCowUnavailable h =>
    obtain ⟨hfallback, rfl⟩ := forFullCopyAfterCowUnavailable_ok h
    exact ⟨rfl, hfallback.volumes.symm, .inr ⟨rfl, rfl, .inr ⟨rfl, rfl⟩⟩⟩

end MaterializationPlan
end Core
end ThinWorkspace
