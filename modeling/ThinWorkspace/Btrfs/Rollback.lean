/-
# The rollback of a failed attempt

Source: `cleanup_active_staging`, `rollback_created` and what it uses, and the failure
path of `materialize_with_hook` in `crates/thinws-adapter-linux/src/materializer.rs`.

A rollback never fails: it returns the evidence of how far it got, so its programs
have any type of failures.
-/

import ThinWorkspace.Btrfs.Materializer

namespace ThinWorkspace
namespace Btrfs

open ThinWorkspace.Core Lib Ports

variable {ε : Type}

/-- A part of a rollback: whatever fails in it is dealt with there, so that it can stand in a
program with any failures. -/
abbrev Settled (ε α : Type) := Program FsCall FsCall.Result ε α

/-- `.ok()` after a part that may fail: the failure is forgotten, and the rollback goes on with
less. -/
def optional {α : Type} (x : Fs α) : Settled ε (Option α) := do
  match ← x.attempt with
  | .ok a => pure (some a)
  | .error _ => pure none

/-! ### Staging

An object that was staged and not published is removed from the staging directory, where it
is still the staged one. -/

/-- `cleanup_active_staging`: the staged object is removed if its directory is still the one that
is held and the name still leads to the object. -/
def cleanupActiveStaging (paths : BoundPaths) (request : MaterializeRequest)
    (context : ExecutionContext) : Settled ε ExecutionContext := do
  match context.activeStaging with
  | none => pure context
  | some staged =>
    match staged.identity with
    | none => pure context
    | some identity => do
      let reopened ← optional (do
        let reopened ← openBoundDirectory request.staging paths.report.staging
        node reopened)
      let held ← optional (node paths.staging)
      if reopened.map Node.identity ≠ held.map Node.identity then pure context
      else
        match ← optional (nodeAt paths.staging staged.name) with
        | none => pure context
        | some observed =>
          if observed.identity = identity ∧ observed.kind = entryNodeKind staged.kind then do
            match ← call (.unlink paths.staging staged.name (staged.kind = .directory)) with
            | .ok _ => pure { context with activeStaging := none }
            | .error _ => pure context
          else pure context

/-! ### What the target holds

The target is enumerated and compared with what was created.  Whatever keeps the enumeration
from its end counts as a difference. -/

/-- What an enumeration of the target found: for each path the identity and the kind. -/
abbrev Observed := Finmap fun _ : TreePath => FileIdentity × NodeKind

/-- One round of `observe_target_entries`; `descend` observes a directory.  An entry on another
mount ends the enumeration. -/
def observeEntry (descend : Fd → TreePath → Observed → Fs Observed) (directory : Fd)
    (base : TreePath) (rootMount : UInt64) (observed : Observed) (name : FileName) :
    Fs Observed := do
  let path := base ++ [name]
  let current ← nodeAt directory name
  let mount ← mountIdAt directory name
  require (mount = rootMount) .targetChanged
  let observed := observed.insert path (current.identity, current.kind)
  if current.kind = .directory then do
    let child ← openDirectory directory name
    let opened ← node child
    ensureIdentity opened current.identity .directory
    descend child path observed
  else pure observed

/-- `observe_target_entries`, with the frames left on the stack: every entry below the target is
recorded. -/
def observeTargetEntries (rootMount : UInt64) : ℕ → Fd → TreePath → Observed → Fs Observed
  | 0, _, _, _ => overflowStack
  | frames + 1, directory, base, observed => do
    let names ← directoryNames directory
    names.foldlM (observeEntry (observeTargetEntries rootMount frames) directory base rootMount)
      observed

/-- The comparison of `rollback_set_matches`: as many entries as were created, and each of them
under its path with its identity and kind. -/
def observedMatches (observed : Observed) (created : List TrackedCreated) : Bool :=
  observed.keys.card == created.length &&
    created.all fun entry =>
      entry.identity.any fun identity =>
        observed.lookup entry.path == some (identity, entryNodeKind entry.kind)

/-- `rollback_set_matches`: an enumeration that fails does not match. -/
def rollbackSetMatches (frames : ℕ) (target : Fd) (created : List TrackedCreated) :
    Settled ε Bool := do
  match ← optional (mountId target) with
  | none => pure false
  | some rootMount =>
    match ← optional (observeTargetEntries rootMount frames target [] ∅) with
    | none => pure false
    | some observed => pure (observedMatches observed created)

/-! ### One entry

An entry is detached by a rename into the trash, and looked at behind the rename; only then
is it known what was moved. -/

/-- The steps of `open_rollback_parent` below an open directory: each name leads to a directory
that this attempt created. -/
def openParentSteps (created : List TrackedCreated) : Fd → TreePath → TreePath → Fs Fd
  | parent, _, [] => pure parent
  | parent, base, component :: components => do
    let child ← openDirectory parent component
    let candidate := created.find? fun candidate =>
      candidate.path = base ++ [component] ∧ candidate.kind = .directory
    let expected ← orMissing .targetChanged (candidate.bind (·.identity))
    let opened ← node child
    ensureIdentity opened expected .directory
    openParentSteps created child (base ++ [component]) components

/-- `open_rollback_parent`: the directory that an entry lies in, opened from the held target, and
the entry's name. -/
def openRollbackParent (target : Fd) (entry : TrackedCreated) (created : List TrackedCreated) :
    Fs (Fd × FileName) := do
  let duplicate ← sys "duplicate rollback target" (call (.dup target))
  let parent ← openParentSteps created duplicate [] entry.path.dropLast
  pure (parent, entry.path.getLast entry.nonempty)

/-- The beginning of a quarantine name is neither `.` nor `..` and has no slash and no NUL. -/
theorem rollbackStem : 2 < (asBytes ".thinws-rollback").length ∧
    slash ∉ asBytes ".thinws-rollback" ∧ (0 : UInt8) ∉ asBytes ".thinws-rollback" := by
  decide

/-- The quarantine name of `detach_to_trash`: identity, sequence and collision keep two names
apart. -/
def quarantineName (identity : FileIdentity) (sequence collision : ℕ) : FileName :=
  ⟨numbered (asBytes ".thinws-rollback")
      [identity.device.toNat, identity.inode.toNat, sequence, collision],
    normal_numbered _ rollbackStem⟩

/-- The quarantine name as the receipt names it: a path of one name in the trash. -/
def quarantinePath (quarantine : FileName) : RelativePath :=
  TreePath.relative [quarantine] (List.cons_ne_nil _ _)

/-- `DetachOutcome`: moved and recognized, moved but not recognized, or still where it was. -/
inductive DetachOutcome where
  | confirmed (path : RelativePath)
  | unconfirmed (path : RelativePath)
  | notDetached

/-- The names below a moved directory, which must be the registered one. -/
def movedDirectoryNames (trash : Fd) (quarantine : FileName) (identity : FileIdentity) :
    Fs (List FileName) := do
  let directory ← openDirectory trash quarantine
  let opened ← node directory
  ensureIdentity opened identity .directory
  directoryNames directory

/-- The `matches` of `detach_to_trash`: what lies in the trash is what was to be moved, and a
directory is empty. -/
def movedMatches (trash : Fd) (quarantine : FileName) (identity : FileIdentity)
    (kind : MaterializedEntryKind) : Settled ε Bool := do
  match ← optional (nodeAt trash quarantine) with
  | none => pure false
  | some moved =>
    if moved.identity = identity ∧ moved.kind = entryNodeKind kind then
      if kind = .directory then do
        let names ← optional (movedDirectoryNames trash quarantine identity)
        pure (names == some [])
      else pure true
    else pure false

/-- `detach_to_trash` after its rename: something else than what was meant is moved back, if that
is possible. -/
def settleMoved (parent : Fd) (name : FileName) (trash : Fd) (quarantine : FileName)
    (identity : FileIdentity) (kind : MaterializedEntryKind) : Settled ε DetachOutcome := do
  let confirmed ← movedMatches trash quarantine identity kind
  if confirmed then pure (.confirmed (quarantinePath quarantine))
  else
    match ← call (.renameNoReplace trash quarantine parent name) with
    | .ok _ => pure .notDetached
    | .error _ => pure (.unconfirmed (quarantinePath quarantine))

/-- The loop of `detach_to_trash`; `attempts` collisions are left of 128. -/
def detachLoop (parent : Fd) (name : FileName) (trash : Fd) (identity : FileIdentity)
    (kind : MaterializedEntryKind) (sequence : ℕ) : ℕ → Settled ε DetachOutcome
  | 0 => pure .notDetached
  | attempts + 1 => do
    let quarantine := quarantineName identity sequence (127 - attempts)
    match ← call (.renameNoReplace parent name trash quarantine) with
    | .ok _ => settleMoved parent name trash quarantine identity kind
    | .error .exist => detachLoop parent name trash identity kind sequence attempts
    | .error _ => pure .notDetached

/-- `detach_to_trash`: an entry whose identity was never seen is not touched. -/
def detachToTrash (parent : Fd) (name : FileName) (trash : Fd) (entry : TrackedCreated)
    (sequence : ℕ) : Settled ε DetachOutcome :=
  match entry.identity with
  | none => pure .notDetached
  | some identity => detachLoop parent name trash identity entry.kind sequence 128

/-! ### The rollback

The entries are detached in reverse order of their creation, and the root gets its mode and
time back.  The status says how far this went. -/

/-- The lists of `rollback_created` and how many entries are still in the target. -/
structure Progress where
  removed : List RelativePath
  quarantined : List RelativePath
  unconfirmed : List RelativePath
  activeCount : ℕ

variable (frames : ℕ) (paths : BoundPaths) (request : MaterializeRequest)
variable (created : List TrackedCreated)

/-- The checks of one round of `rollback_created`: the parent and the name of an entry
that is still the registered one. -/
def rollbackTarget (entry : TrackedCreated) (activeCount : ℕ) :
    Settled ε (Option (Fd × FileName)) := do
  let present ← rollbackSetMatches frames paths.target (created.take activeCount)
  if present then
    match ← optional (paths.revalidateTargetTrash request) with
    | none => pure none
    | some _ =>
      match entry.identity with
      | none => pure none
      | some identity =>
        match ← optional (openRollbackParent paths.target entry created) with
        | none => pure none
        | some (parent, name) =>
          match ← optional (nodeAt parent name) with
          | none => pure none
          | some current =>
            if current.identity = identity ∧ current.kind = entryNodeKind entry.kind then
              pure (some (parent, name))
            else pure none
  else pure none

/-- The loop of `rollback_created` over the entries that are left. -/
def rollbackEntries : List TrackedCreated → Progress → Settled ε Progress
  | [], progress => pure progress
  | entry :: rest, progress => do
    match ← rollbackTarget frames paths request created entry progress.activeCount with
    | none => pure progress
    | some (parent, name) =>
      match ← detachToTrash parent name paths.trash entry progress.removed.length with
      | .confirmed path =>
        rollbackEntries rest
          { progress with
            quarantined := progress.quarantined ++ [path]
            removed := progress.removed ++ [entry.evidence.path]
            activeCount := progress.activeCount - 1 }
      | .unconfirmed path => pure { progress with unconfirmed := progress.unconfirmed ++ [path] }
      | .notDetached => pure progress

/-- `incomplete_rollback`: nothing was removed, and everything created remains. -/
def incompleteRollback (created : List TrackedCreated) : RollbackEvidence :=
  .new .incomplete [] (created.map TrackedCreated.evidence)

/-- `root_baseline_matches`: the target is the directory it was, with the mode and the time it had.
-/
def rootBaselineMatches (current baseline : Node) : Bool :=
  current.identity == baseline.identity && current.kind == .directory &&
    current.mode == baseline.mode && current.mtime == baseline.mtime

/-- The `restored` of `rollback_created`: the target holds exactly what remains, and has its time
and mode back. -/
def restoreRoot (remaining : List TrackedCreated) : Settled ε Bool := do
  let exactRemaining ← rollbackSetMatches frames paths.target remaining
  if exactRemaining then
    match ← optional (paths.revalidateTargetTrash request) with
    | none => pure false
    | some _ =>
      match ← optional (setPreservedMetadata paths.target paths.targetBaseline.identity
        paths.targetBaseline) with
      | none => pure false
      | some _ =>
        match ← optional (node paths.target) with
        | none => pure false
        | some root => pure (rootBaselineMatches root paths.targetBaseline)
  else pure false

/-- `rollback_created` once the target is known to be the bound one. -/
def rollbackBound : Settled ε RollbackEvidence := do
  let progress ← rollbackEntries frames paths request created created.reverse
    ⟨[], [], [], created.length⟩
  let remaining := created.take progress.activeCount
  let restored ← restoreRoot frames paths request remaining
  pure
    { status := if remaining.isEmpty && restored then .confirmedBaseline else .incomplete
      removed := progress.removed
      quarantined := progress.quarantined
      unconfirmedQuarantined := progress.unconfirmed
      remaining := remaining.map TrackedCreated.evidence }

/-- The mode of the target before the rollback, where it is not the baseline's. -/
def restoreMode : Settled ε Bool := do
  match ← optional (node paths.target) with
  | none => pure true
  | some root =>
    if root.mode = paths.targetBaseline.mode then pure true
    else
      match ← call (.fchmod paths.target paths.targetBaseline.mode) with
      | .ok _ => pure true
      | .error _ => pure false

/-- The check of `rollback_created` that the target is the bound one. -/
def rollbackAllowed : Settled ε Bool := do
  match ← optional (paths.revalidateTargetTrash request) with
  | none => pure false
  | some _ =>
    match ← optional (node paths.target) with
    | none => pure false
    | some root =>
      pure (root.identity == paths.targetBaseline.identity && root.kind == .directory)

/-- `rollback_created`: not needed where nothing was done, and incomplete where the target cannot
be reached safely any more. -/
def rollbackCreated (targetModified : Bool) : Settled ε RollbackEvidence := do
  if targetModified = false ∧ created = [] then pure (.new .notNeeded [] [])
  else do
    let allowed ← rollbackAllowed paths request
    if allowed then do
      let writable ← restoreMode paths
      if writable then rollbackBound frames paths request created
      else pure (incompleteRollback created)
    else pure (incompleteRollback created)

/-! ### The attempt and its receipt

Every failure behind the binding of the directories ends in a cleanup, a rollback and a
receipt. -/

/-- The receipt of a failed attempt: what was created, what the rollback did, and the counts and
digests as far as they are known. -/
def failureReceipt (plan : MaterializationPlan) (backend : Backend) (error : TreeFailure)
    (context : ExecutionContext) (rollback : RollbackEvidence) (elapsed : UInt64) :
    MaterializationReceipt :=
  let evidence : MaterializationAttemptEvidence :=
    ⟨context.logicalBytes, context.physicalBytes, context.regularFiles, context.cloneCalls,
      context.sourceManifest, context.targetManifest⟩
  let created := context.created.map TrackedCreated.evidence
  match backend with
  | .cow => MaterializationReceipt.failedCowClone plan error.kind created context.targetModified
      rollback evidence elapsed
  | .fullCopy => MaterializationReceipt.failedFullCopy plan error.kind created
      context.targetModified rollback evidence elapsed

/-- The receipt with the object that is left in staging. -/
def withActiveStaging (receipt : MaterializationReceipt) :
    Option ActiveStaging → MaterializationReceipt
  | none => receipt
  | some staged => (receipt.withUnconfirmedStaging staged.evidence).getD receipt

/-- The end of a failed `materialize_with_hook`: the error with its receipt; a staged object that
could not be removed is named in it. -/
def failAttempt (plan : MaterializationPlan) (backend : Backend) (error : TreeFailure)
    (context : ExecutionContext) (rollback : RollbackEvidence) :
    Settled MaterializationFailure MaterializationReceipt := do
  let elapsed ← call .elapsedMillis
  throw ⟨error.intoPortError, withActiveStaging
    (failureReceipt plan backend error context rollback elapsed) context.activeStaging⟩

/-- `materialize_with_hook`: the directories are bound, the source is materialized, and every
failure behind that point is rolled back. -/
def materialize (blake3 : List UInt8 → TreeDigest) (frames : ℕ) (request : MaterializeRequest)
    (plan : MaterializationPlan) (backend : Backend) :
    Settled MaterializationFailure MaterializationReceipt := do
  match ← (bindPaths blake3 frames request plan backend).attempt with
  | .error error => failAttempt plan backend error .default (.new .notNeeded [] [])
  | .ok (paths, source) =>
    match ← (materializeBound blake3 frames request plan backend paths source
      (.bound blake3 source)).attempt with
    | .ok receipt => pure receipt
    | .error (error, context) => do
      let context ← cleanupActiveStaging paths request context
      let rollback ← rollbackCreated frames paths request context.created context.targetModified
      failAttempt plan backend error context rollback

end Btrfs
end ThinWorkspace
