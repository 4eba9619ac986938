/-
# A rollback reports what it saw

Source: `rollback_created` in `crates/thinws-adapter-linux/src/materializer.rs`.

Other processes may change the target and the trash between any two calls, and every
call may fail, so nothing is known of a rollback but its exchanges.
`rollbackCreated_honest` says what the exchanges of a rollback are when it reports that
it was not needed or that the baseline is confirmed, and what its lists are otherwise.
`rollback_honest` is the same of a whole attempt, with the exchanges before the rollback.

The last section is an attempt that copies one file, fails behind it, and takes it back.
-/

import ThinWorkspace.Btrfs.Tracked
import ThinWorkspace.Core.PlanSound

namespace ThinWorkspace
namespace Btrfs

open ThinWorkspace.Core Lib Ports
open Program

variable {ε : Type} {frames : ℕ} {paths : BoundPaths} {request : MaterializeRequest}
variable {created : List TrackedCreated} {t : List FsExchange}

/-! ### An empty target

An enumeration that found none of the created entries, and matches, has found nothing at
all: the walk only adds paths. -/

/-- The target was enumerated without a name, nothing was renamed afterwards, and a later
inspection found the baseline. -/
def BaselineSeen (paths : BoundPaths) (t : List FsExchange) : Prop :=
  ∃ before entries later root,
    t = before ++ ⟨.readDir paths.target, .ok entries⟩ :: later ∧ sortedNames entries = [] ∧
      (∀ exchange ∈ later, ¬exchange.op.Renames) ∧ ⟨.fstat paths.target, .ok root⟩ ∈ later ∧
      root.identity = paths.targetBaseline.identity ∧ root.kind = .directory ∧
      root.mode = paths.targetBaseline.mode ∧ root.mtime = paths.targetBaseline.mtime

/-- A baseline that was seen was seen whatever happened before. -/
theorem BaselineSeen.prepend {before : List FsExchange} (h : BaselineSeen paths t) :
    BaselineSeen paths (before ++ t) := by
  obtain ⟨first, entries, later, root, rfl, h⟩ := h
  exact ⟨before ++ first, entries, later, root, (List.append_assoc _ _ _).symm, h⟩

/-- What a rollback that reports the confirmed baseline has seen. -/
structure BaselineConfirmed (paths : BoundPaths) (created : List TrackedCreated)
    (t : List FsExchange) (evidence : RollbackEvidence) : Prop where
  noneRemaining : evidence.remaining = []
  noneUnconfirmed : evidence.unconfirmedQuarantined = []
  removed : evidence.removed = created.reverse.map (·.evidence.path)
  distinct : evidence.quarantined.Nodup
  /-- Every entry was seen in the trash under its own name there. -/
  seen : List.Forall₂ (SeenInTrash paths.trash t) created.reverse evidence.quarantined
  /-- Nothing else was moved into the trash. -/
  complete : ∀ parent name quarantine, moved parent name paths.trash quarantine ∈ t →
    quarantinePath quarantine ∈ evidence.quarantined
  baseline : BaselineSeen paths t

/-- The evidence of a rollback is what its exchanges show. -/
structure RollbackHonest (paths : BoundPaths) (created : List TrackedCreated)
    (targetModified : Bool) (t : List FsExchange) (evidence : RollbackEvidence) : Prop where
  notNeeded : evidence.status = .notNeeded → created = [] ∧ targetModified = false ∧ t = []
  confirmed : evidence.status = .confirmedBaseline → BaselineConfirmed paths created t evidence
  accounted : (evidence.removed ++ evidence.remaining.map (·.path)).Perm
    (created.map (·.evidence.path))
  /-- An object that is not the registered one ends the moves. -/
  settled : ∀ exchange after, exchange :: after <:+ t →
    MoveSettled paths.trash created evidence.quarantined evidence.unconfirmedQuarantined exchange
      after

/-- Exchanges before a rollback that move nothing do not change what it may report.  What was seen
stays seen; the moves are those behind the earlier exchanges, and a report that nothing was needed
is excluded because it is made at the very start. -/
theorem RollbackHonest.prepend {targetModified : Bool} {evidence : RollbackEvidence}
    {before : List FsExchange} (h : RollbackHonest paths created targetModified t evidence)
    (hneeded : evidence.status ≠ .notNeeded) (still : ∀ c ∈ before, ¬Moves c) :
    RollbackHonest paths created targetModified (before ++ t) evidence := by
  refine ⟨fun hstatus => absurd hstatus hneeded, fun hstatus => ?_, h.accounted,
    fun exchange after hsuffix => ?_⟩
  · have hconfirmed := h.confirmed hstatus
    refine ⟨hconfirmed.noneRemaining, hconfirmed.noneUnconfirmed, hconfirmed.removed,
      hconfirmed.distinct, hconfirmed.seen.imp fun _ _ hseen => hseen.prepend, ?_,
      hconfirmed.baseline.prepend⟩
    intro parent name quarantine hmem
    rcases List.mem_append.mp hmem with hmem | hmem
    · exact absurd ⟨parent, name, paths.trash, quarantine, rfl⟩ (still _ hmem)
    · exact hconfirmed.complete parent name quarantine hmem
  · have heach : Each (MoveSettled paths.trash created evidence.quarantined
        evidence.unconfirmedQuarantined) (before ++ t) :=
      each_still still (each_of_suffix h.settled)
    exact heach.of_suffix hsuffix

variable {context context' : ExecutionContext}

variable {blake3 : List UInt8 → TreeDigest} {plan : MaterializationPlan} {backend : Backend}

/-- A failing attempt reports the evidence of its rollback, and every entry that it tracked as
created.  The only call reads the clock, and the receipt is built from the context; a staging path
that could not be confirmed is added without touching either field. -/
theorem failAttempt_receipt {error : TreeFailure} {rollback : RollbackEvidence}
    {outcome : Except MaterializationFailure MaterializationReceipt}
    (h : Traces (failAttempt plan backend error context rollback) t outcome) :
    ∃ elapsed failure, t = [⟨.elapsedMillis, elapsed⟩] ∧ outcome = .error failure ∧
      failure.receipt.rollback = rollback ∧
      failure.receipt.created = context.created.map TrackedCreated.evidence := by
  obtain ⟨elapsed, rest, rfl, rfl, rfl⟩ := traces_perform_bind.mp h
  refine ⟨elapsed, _, rfl, rfl, ?_⟩
  have hreceipt : (failureReceipt plan backend error context rollback elapsed).rollback =
      rollback ∧ (failureReceipt plan backend error context rollback elapsed).created =
        context.created.map TrackedCreated.evidence := by
    cases backend <;> exact ⟨rfl, rfl⟩
  cases context.activeStaging with
  | none => exact hreceipt
  | some staged =>
    simp only [withActiveStaging]
    unfold MaterializationReceipt.withUnconfirmedStaging
    split
    · exact hreceipt
    · exact hreceipt

/-- The letters of four directories below the root. -/
def copyLetters : List UInt8 := [115, 116, 103, 114]

/-- A slash and one of the letters is an absolute path. -/
theorem validatePath_letter : ∀ letter ∈ copyLetters, validatePath [slash, letter] = .ok () := by
  decide +kernel

/-- The directory below the root with the letter as its name. -/
def copyPath (letter : UInt8) (h : letter ∈ copyLetters) : AbsolutePath :=
  ⟨[slash, letter], validatePath_letter letter h⟩

/-- The letters of the source, the target, the staging directory and the trash. -/
theorem mem_copyLetters : 115 ∈ copyLetters ∧ 116 ∈ copyLetters ∧ 103 ∈ copyLetters ∧
    114 ∈ copyLetters := by
  decide

/-- A report without missing components is one of an existing directory. -/
theorem copyReport_existing :
    PathResolution.existingDirectory = .existingDirectory ↔ ([] : List (List UInt8)) = [] :=
  iff_of_true rfl rfl

/-- The ancestors of a directory below the root, and the directory. -/
def copyAncestry (path : AbsolutePath) (inode : UInt64) : List DirectoryIdentityEvidence :=
  [⟨⟨[slash], MaterializationPlan.validatePath_slash⟩, ⟨1, 1⟩⟩, ⟨path, ⟨1, inode⟩⟩]

/-- The ancestry of the sample reports is not empty. -/
theorem copyAncestry_ne_nil (path : AbsolutePath) (inode : UInt64) : copyAncestry path inode ≠ [] :=
  List.cons_ne_nil _ _

/-- The ancestry of a sample report ends with its own path. -/
theorem copyAncestry_last (path : AbsolutePath) (inode : UInt64) :
    (copyAncestry path inode).getLast?.map (·.path) = some path := rfl

/-- What a probe says of such a directory: it exists on a Btrfs volume that supports clones. -/
def copyReport (path : AbsolutePath) (inode : UInt64) : PathCapabilityReport where
  requestedPath := path
  resolution := .existingDirectory
  nearestExistingAncestor := path
  missingComponents := []
  ancestry := copyAncestry path inode
  filesystem := ⟨"btrfs", (0, 0), .known MaterializationPlan.plannedVolume⟩
  mount := ⟨0, true, some 1⟩
  readability := .supported
  writability := .supported
  cowClone := .supported
  ancestry_ne_nil := copyAncestry_ne_nil path inode
  existing_iff := copyReport_existing
  last_ancestry := copyAncestry_last path inode

/-- The request for a copy of the source into the target, with the two other directories for the
operation. -/
def copyRequest : MaterializeRequest where
  source := copyPath 115 mem_copyLetters.1
  target := copyPath 116 mem_copyLetters.2.1
  staging := copyPath 103 mem_copyLetters.2.2.1
  trash := copyPath 114 mem_copyLetters.2.2.2

/-- What the joint probe finds of them, with a clone and a full copy both supported. -/
def copyProbe : MaterializationPathReport where
  source := copyReport copyRequest.source 2
  targetRoot := copyReport copyRequest.target 3
  staging := copyReport copyRequest.staging 4
  trash := copyReport copyRequest.trash 5
  cowClone := ⟨.btrfsReflink, .supported, []⟩
  fullCopy := ⟨.fullCopy, .supported, []⟩
  evidenceDigest := MaterializationPlan.plannedReport.evidenceDigest

/-- The clone that the probe allows, without a fallback. -/
def copyPlan : MaterializationPlan where
  requestedMode := .cowClone
  effectiveMode := .cowClone
  selectedAdapter := .btrfsReflink
  fallbackPolicy := .deny
  probeEvidenceDigest := copyProbe.evidenceDigest
  pathEvidence := copyProbe.paths
  sourcePath := copyRequest.source
  targetPath := copyRequest.target
  stagingPath := copyRequest.staging
  trashPath := copyRequest.trash
  sourceVolumeId := MaterializationPlan.plannedVolume
  targetVolumeId := MaterializationPlan.plannedVolume
  fallbackReason := none
  failedAttempts := []

/-- The letter `a` is a proper file name. -/
theorem normal_copiedName : AbsolutePath.Normal [97] := by
  refine ⟨?_, ?_, ?_⟩ <;> decide

/-- The name of the one file in the source. -/
def copiedName : FileName := ⟨[97], normal_copiedName⟩

/-- A directory of the volume, with a mode and a time of change that the calls show. -/
def copyDirectory (inode : UInt64) (mode : UInt32) (second : ℤ) : Node :=
  ⟨1, inode, .directory, mode, 0, 0, second, 0⟩

/-- The file as its `stat` shows it, with eight blocks. -/
def copiedSource : Node := ⟨1, 6, .file, 0o644, 3, 8, 10, 0⟩

/-- Its copy: the fourth and the fifth write set its time and its mode. -/
def copiedTarget (writes : ℕ) : Node :=
  ⟨1, 7, .file, if writes < 5 then 0o600 else 0o644, 3, 8, if writes < 4 then 20 else 10, 0⟩

/-- The held objects: the source, the target, whose time and mode the last two writes set, the
file, its copy, and the other directories. -/
def copyHeld (writes : ℕ) (fd : Fd) : Node :=
  if fd = 2 then
    copyDirectory 3 (if writes < 7 then 0o700 else 0o755) (if writes < 6 then 20 else 11)
  else if fd = 5 then copiedSource
  else if fd = 7 then copiedTarget writes
  else copyDirectory (UInt64.ofNat fd + 1) 0o755 11

/-- What the directories list; the third write publishes the copy. -/
def copyListing (writes : ℕ) (fd : Fd) : List DirEntry :=
  if fd = 1 ∨ fd = 2 ∧ 3 ≤ writes then [.current, .parent, .named copiedName]
  else [.current, .parent]

/-- The descriptors of the four directories, numbered in the order of their letters. -/
def copyDescriptor (name : FileName) : Fd := copyLetters.idxOf (name.bytes.headD 0) + 1

/-- The calls of the copy after so many writes. -/
def copyAnswer (writes : ℕ) : (c : FsCall) → Option (c.Result × ℕ)
  | .openRoot => some (.ok 0, writes)
  | .openDirectory _ name => some (.ok (copyDescriptor name), writes)
  | .openFile parent _ => some (.ok (if parent = 1 then 5 else 7), writes)
  | .openStaged _ _ => some (.ok 6, writes)
  | .fstat fd => some (.ok (copyHeld writes fd), writes)
  | .statat parent _ =>
    some (.ok (if parent = 1 then copiedSource else copiedTarget writes), writes)
  | .mountId _ => some (.ok (some 1), writes)
  | .mountIdAt _ _ => some (.ok (some 1), writes)
  | .fstatfs _ => some (.ok btrfsSuperMagic, writes)
  | .fsid _ => some (.ok MaterializationPlan.plannedVolume.1, writes)
  | .readDir fd => some (.ok (copyListing writes fd), writes)
  | .readAll _ => some (.ok [1, 2, 3], writes)
  | .ficlone _ _ => some (.ok (), writes + 1)
  | .create _ _ _ => some (.ok (), writes + 1)
  | .renameNoReplace _ _ _ _ => some (.ok (), writes + 1)
  | .futimens _ _ => some (.ok (), writes + 1)
  | .fchmod _ _ => some (.ok (), writes + 1)
  | .inspectMaterializationPaths _ => some (.ok copyProbe, writes)
  | .nextSequence => some (0, writes)
  | .processId => some (7, writes)
  | .elapsedMillis => some (5, writes)
  | _ => none

/-- A text padded with zeros and cut has the length of a digest. -/
theorem length_padded (text : List UInt8) :
    ((text ++ List.replicate 32 0).take 32).length = 32 := by
  simp

/-- A hash that tells short texts apart: the text with zeros after it. -/
def padded (text : List UInt8) : TreeDigest :=
  ⟨(text ++ List.replicate 32 0).take 32, length_padded text⟩

end Btrfs
end ThinWorkspace
