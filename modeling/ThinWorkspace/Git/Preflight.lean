/-
# The preflight of a repository

Source: `preflight_repository` and what it calls in
`crates/thinws-adapter-git-cli/src/git_query/inspect.rs`, in the order of the source: the
directories of the repository, the scan of its metadata, its references, its
configuration, its work tree, its submodules and its attributes.

The entries scanned so far outlive a failure, so a `Counted` part fails with them.
-/

import ThinWorkspace.Git.Discovery
import ThinWorkspace.Git.Sources

namespace ThinWorkspace
namespace Git

open ThinWorkspace.Core Ports Lib Lib.Fallible Lib.Program

/-- A part that counts scanned entries, also where it fails. -/
abbrev Counted (α : Type) : Type :=
  Program InspectCall InspectCall.Result (GitInspectionIssue × ℕ) α

/-- A part that scans nothing: its failure carries the entries scanned before it. -/
def uncounted {α : Type} (scanned : ℕ) (part : Inspect α) : Counted α :=
  part.mapError fun issue => (issue, scanned)

/-! ### The directories

The work tree, the Git directory and the common directory of a candidate, each opened
without following a link out of the copy. -/

/-- What the first part of `preflight_repository` finds: the worktree, its repository and the
common directory, each with the identity it was seen with. -/
structure Located where
  worktreeIdentity : Identity
  markerFileIdentity : Option Identity
  gitDir : RelativePath
  gitDirIdentity : Identity
  commonDir : RelativePath
  commonDirIdentity : Identity
  evidence : List FileEvidence

/-- A directory below the copy root that is opened, and its identity.  Whatever keeps it from being
opened makes the metadata unsafe. -/
def openIdentity (relative : RelativePath) : Inspect Identity := do
  let opened ← ask (.openRelativeDirectory relative)
  match opened with
  | .ok (some identity) => pure identity
  | _ => throw .unsafeRepositoryMetadata

/-- The directory that a `.git` stands for, and the marker that names it.  A marker is a file with
one line `gitdir: `, whose reference must stay inside the copy; its identity is kept, so that a
linked work tree can be told from a plain one. -/
def locateGitDir (copyRoot : List UInt8) (relative : RelativePath) (limits : InspectionLimits)
    (evidence : List FileEvidence) :
    Inspect (RelativePath × Option Identity × List FileEvidence) := do
  let marker ← ask (.statAt relative gitName)
  let identity ← requireAnswer .unsafeRepositoryMetadata marker
  let markerRelative := relative ++ [gitName]
  match identity.fileType with
  | .directory => pure (markerRelative, none, evidence)
  | .regularFile => do
    let found ← readRootFile copyRoot markerRelative limits.maxTextBytes true
    let read ← requireRead .unsafeRepositoryMetadata found
    let reference ← lift (parseSingleReference read.contents (ascii "gitdir: "))
    let gitDir ← resolveReference copyRoot relative reference
    pure (gitDir, some read.evidence.identity, evidence ++ [read.evidence])
  | _ => throw .unsafeRepositoryMetadata

/-- The common directory of a repository: the repository itself, or what its file `commondir` names
inside the copy. -/
def locateCommonDir (copyRoot : List UInt8) (gitDir : RelativePath) (limits : InspectionLimits)
    (evidence : List FileEvidence) : Inspect (RelativePath × List FileEvidence) := do
  let found ← readRootFile copyRoot (gitDir ++ [ascii "commondir"]) limits.maxTextBytes false
  match found with
  | none => pure (gitDir, evidence)
  | some read => do
    let reference ← lift (parseSingleReference read.contents [])
    let commonDir ← resolveReference copyRoot gitDir reference
    pure (commonDir, evidence ++ [read.evidence])

/-- The part of `preflight_repository` before the scan.  The work tree, the Git directory and the
common directory are opened one after the other, each for its identity. -/
def locateRepository (copyRoot : List UInt8) (relative : RelativePath) (global : GlobalContext)
    (limits : InspectionLimits) : Inspect Located := do
  let worktreeIdentity ← openIdentity relative
  let (gitDir, markerFileIdentity, evidence) ←
    locateGitDir copyRoot relative limits global.evidence
  let gitDirIdentity ← openIdentity gitDir
  let (commonDir, evidence) ← locateCommonDir copyRoot gitDir limits evidence
  let commonDirIdentity ← openIdentity commonDir
  pure ⟨worktreeIdentity, markerFileIdentity, gitDir, gitDirIdentity, commonDir,
    commonDirIdentity, evidence⟩

/-! ### The scan of the metadata

Every entry of the metadata is looked at, and a link in it is refused.  The walk is bounded
as that of the discovery is, and has enough fuel by the same measure. -/

/-- The names of `is_bounded_metadata_text`: files that are later read as a whole, so that their
size is limited by the scan already. -/
def boundedNames : List (List UInt8) :=
  [ascii "HEAD", ascii "FETCH_HEAD", ascii "ORIG_HEAD", ascii "MERGE_HEAD",
    ascii "CHERRY_PICK_HEAD", ascii "REVERT_HEAD", ascii "packed-refs", ascii "commondir",
    ascii "gitdir", ascii "config", ascii "config.worktree"]

/-- `is_bounded_metadata_text`: a file of a bounded name, or one below `refs` of the metadata root.
-/
def isBoundedMetadataText (path metadataRoot : RelativePath) : Bool :=
  (path.getLast?.elim false fun name => boundedNames.contains name) ||
    ((path.dropPrefix? metadataRoot).bind (·.head?)) == some (ascii "refs")

/-- What is found at a name of the metadata: a directory that was opened, or a file.  A link leads
out of the metadata and is refused, and so is a special file. -/
def scanMetadataName (budget : CooperativeBudget) (metadataRoot : RelativePath)
    (directory : PendingDirectory) (name : List UInt8) : Inspect (Option PendingDirectory) := do
  let relative := directory.relative ++ [name]
  let answer ← ask (.statAt directory.relative name)
  let identity ← requireAnswer .unsafeRepositoryMetadata answer
  lift (refuseIf (identity.fileType = .symlink) .externalRepositoryMetadata)
  if identity.fileType = .directory then do
    lift (refuseIf (directory.depth = budget.limits.maxDepth) .depthLimitReached)
    let opened ← ask (.openAt directory.relative name)
    lift (refuseIf (opened = false) .unsafeRepositoryMetadata)
    pure (some ⟨relative, directory.depth + 1⟩)
  else do
    lift (refuseIf (identity.fileType ≠ .regularFile ∨
      isBoundedMetadataText relative metadataRoot ∧
        (identity.size.toInt < 0 ∨ (budget.limits.maxTextBytes : ℤ) < identity.size.toInt))
      .unsafeRepositoryMetadata)
    pure none

/-- The loop of `scan_metadata_nofollow` over the entries of a directory.  Every entry but `.` and
`..` counts toward the scan limit that all repositories share, so the count is returned with a
failure too. -/
def scanMetadataEntries (budget : CooperativeBudget) (metadataRoot : RelativePath)
    (directory : PendingDirectory) :
    List (Option (List UInt8)) → List PendingDirectory → ℕ → Counted (List PendingDirectory × ℕ)
  | [], pending, scanned => pure (pending, scanned)
  | entry :: entries, pending, scanned => do
    uncounted scanned budget.ensureRemaining
    let name ← uncounted scanned (requireAnswer .unsafeRepositoryMetadata entry)
    if name = dot ∨ name = dotDot then
      scanMetadataEntries budget metadataRoot directory entries pending scanned
    else do
      let scanned := scanned + 1
      uncounted scanned (lift (refuseIf (budget.limits.maxScanEntries < scanned) .scanLimitReached))
      let next ← uncounted scanned (scanMetadataName budget metadataRoot directory name)
      scanMetadataEntries budget metadataRoot directory entries (pending ++ next.toList) scanned

/-- The loop of `scan_metadata_nofollow` over the pending directories.  The last one found is taken
first; the fuel bounds the rounds, and `walkMetadata_stable` says that it is never used up. -/
def walkMetadata (budget : CooperativeBudget) (metadataRoot : RelativePath) :
    ℕ → List PendingDirectory → ℕ → Counted ℕ
  | 0, _, scanned => pure scanned
  | fuel + 1, pending, scanned =>
    match pending.getLast? with
    | none => pure scanned
    | some directory => do
      uncounted scanned budget.ensureRemaining
      let answer ← uncounted scanned (ask (.readDirectory directory.relative))
      let entries ← uncounted scanned (requireAnswer .unsafeRepositoryMetadata answer)
      let (pending, scanned) ←
        scanMetadataEntries budget metadataRoot directory entries pending.dropLast scanned
      walkMetadata budget metadataRoot fuel pending scanned

section Fuel

variable {budget : CooperativeBudget} {directory : PendingDirectory}

/-- The entries of a directory add no more directories than were counted. -/
theorem yields_scanMetadataEntries {metadataRoot : RelativePath}
    {entries : List (Option (List UInt8))} {pending : List PendingDirectory} {scanned : ℕ} :
    Yields (fun result : List PendingDirectory × ℕ =>
      result.1.length + (budget.limits.maxScanEntries - result.2) ≤
        pending.length + (budget.limits.maxScanEntries - scanned))
      (scanMetadataEntries budget metadataRoot directory entries pending scanned) := by
  induction entries generalizing pending scanned with
  | nil => exact Nat.le_refl _
  | cons entry entries ih =>
    refine yields_bind fun _ => yields_bind fun name => ?_
    show Yields _ (if name = dot ∨ name = dotDot then _ else _)
    split
    · exact ih
    · have hcount : Yields (fun _ : Unit => scanned + 1 ≤ budget.limits.maxScanEntries)
          (uncounted (scanned + 1) (lift (refuseIf (budget.limits.maxScanEntries < scanned + 1)
            .scanLimitReached))) := by
        unfold refuseIf
        split
        · trivial
        · rename_i hle
          exact Nat.not_lt.mp hle
      refine hcount.bind fun _ hle => yields_bind fun next =>
        Yields.mono ih fun result hresult => ?_
      have hnext : next.toList.length ≤ 1 := by cases next <;> simp
      rw [List.length_append] at hresult
      omega

/-- Without a pending directory the walk is over, whatever fuel is left. -/
theorem walkMetadata_of_getLast? {metadataRoot : RelativePath} {fuel : ℕ}
    {pending : List PendingDirectory} {scanned : ℕ} (h : pending.getLast? = none) :
    walkMetadata budget metadataRoot fuel pending scanned = pure scanned := by
  cases fuel with
  | zero => rfl
  | succ fuel => rw [walkMetadata, h]

/-- **The fuel is enough.**  Two walks with at least as much fuel as there are pending directories
and entries left to count are one: a round takes a directory, and a directory comes only with an
entry that was counted. -/
theorem walkMetadata_stable {metadataRoot : RelativePath} {fuel fuel' : ℕ}
    {pending : List PendingDirectory} {scanned : ℕ}
    (h : pending.length + (budget.limits.maxScanEntries - scanned) ≤ fuel)
    (h' : pending.length + (budget.limits.maxScanEntries - scanned) ≤ fuel') :
    walkMetadata budget metadataRoot fuel pending scanned =
      walkMetadata budget metadataRoot fuel' pending scanned := by
  induction fuel generalizing pending scanned fuel' with
  | zero =>
    have hlength : pending.length = 0 := by omega
    have hnone : pending.getLast? = none := by
      rw [List.eq_nil_of_length_eq_zero hlength, List.getLast?_nil]
    rw [walkMetadata_of_getLast? hnone, walkMetadata_of_getLast? hnone]
  | succ fuel ih =>
    cases hlast : pending.getLast? with
    | none => rw [walkMetadata_of_getLast? hlast, walkMetadata_of_getLast? hlast]
    | some directory =>
      have hpop : pending.length = pending.dropLast.length + 1 := by
        rw [← List.dropLast_append_getLast? directory hlast]
        simp
      cases fuel' with
      | zero => omega
      | succ fuel' =>
        rw [walkMetadata, walkMetadata, hlast]
        refine bind_congr fun _ => bind_congr fun answer => bind_congr fun entries => ?_
        refine yields_scanMetadataEntries.bind_congr fun result hle => ?_
        exact ih (by omega) (by omega)

end Fuel

/-- `scan_metadata_nofollow`: the scan of one metadata directory, from its own depth on, with the
fuel that `walkMetadata_stable` shows to be enough. -/
def scanMetadataNofollow (budget : CooperativeBudget) (metadataRoot : RelativePath) (scanned : ℕ) :
    Counted ℕ := do
  uncounted scanned (lift (refuseIf (budget.limits.maxDepth < metadataRoot.length)
    .depthLimitReached))
  let opened ← uncounted scanned (ask (.openRelativeDirectory metadataRoot))
  match opened with
  | .error _ => throw (.unsafeRepositoryMetadata, scanned)
  | .ok _ =>
    walkMetadata budget metadataRoot (budget.limits.maxScanEntries + 1)
      [⟨metadataRoot, metadataRoot.length⟩] scanned

/-- The scans of the common directory and of another Git directory.  Where both are one directory
it is scanned once. -/
def scanRepository (budget : CooperativeBudget) (located : Located) (scanned : ℕ) :
    Counted ℕ := do
  let scanned ← scanMetadataNofollow budget located.commonDir scanned
  if located.commonDirIdentity = located.gitDirIdentity then pure scanned
  else scanMetadataNofollow budget located.gitDir scanned

/-! ### Links and references

The paths that Git would follow or write through: the object store, the references, the
index, and `HEAD` with what it names. -/

/-- `stat_relative`, whose failures are unsafe metadata.  A name that is not there is no failure.
-/
def statMetadata (relative : RelativePath) : Inspect (Option Identity) := do
  let answer ← ask (.statRelative relative)
  requireAnswer .unsafeRepositoryMetadata answer

/-- A path of the metadata that must be no link.  A link would let Git read or write outside the
copy. -/
def rejectLink (relative : RelativePath) : Inspect Unit := do
  let found ← statMetadata relative
  lift (refuseIf (found.map Identity.fileType = some .symlink) .externalRepositoryMetadata)

/-- A path of the metadata that must not be there, with the issue that says why it is not
supported. -/
def rejectExisting (issue : GitInspectionIssue) (relative : RelativePath) : Inspect Unit := do
  let found ← statMetadata relative
  lift (refuseIf found.isSome issue)

/-- `reject_metadata_links`: the object store, the references and the index must be no links;
alternates and sparse checkouts must not be there. -/
def rejectMetadataLinks (gitDir commonDir : RelativePath) : Inspect Unit := do
  rejectLink (commonDir ++ [ascii "objects"])
  rejectLink (commonDir ++ [ascii "refs"])
  rejectLink (gitDir ++ [ascii "index"])
  rejectExisting .unsupportedConfiguration
    (commonDir ++ [ascii "objects", ascii "info", ascii "alternates"])
  rejectExisting .sparseCheckout (commonDir ++ [ascii "info", ascii "sparse-checkout"])
  rejectExisting .sparseCheckout (gitDir ++ [ascii "info", ascii "sparse-checkout"])

/-- The name of a normal component, and nothing for `.`, `..` and the root. -/
def normalName : Component → Option (List UInt8)
  | .normal name => some name
  | _ => none

/-- `validate_symbolic_ref`: a path of normal components below `refs`.  Anything else could leave
the common directory. -/
def validateSymbolicRef (reference : List UInt8) : Except GitInspectionIssue RelativePath :=
  match (components reference).mapM normalName with
  | none => .error .unsafeRepositoryMetadata
  | some names =>
    if names.head? = some (ascii "refs") then .ok names else .error .unsafeRepositoryMetadata

/-- The loop of `collect_reference_evidence` over the symbolic references.  `HEAD` must be there
and a reference it leads to need not be; what is no reference must be an object name of SHA-1 or
SHA-256, and a chain longer than the depth limit is refused. -/
def followReferences (copyRoot : List UInt8) (commonDir : RelativePath)
    (limits : InspectionLimits) :
    ℕ → Bool → RelativePath → List FileEvidence → Inspect (List FileEvidence)
  | 0, _, _, evidence => pure evidence
  | rounds + 1, required, path, evidence => do
    match ← readRootFile copyRoot path limits.maxTextBytes required with
    | none => pure evidence
    | some read => do
      let value ← lift (parseSingleReference read.contents [])
      let evidence := evidence ++ [read.evidence]
      match value.dropPrefix? (ascii "ref: ") with
      | some symbolic => do
        let symbolic ← lift (validateSymbolicRef symbolic)
        lift (refuseIf (rounds = 0) .depthLimitReached)
        followReferences copyRoot commonDir limits rounds false (commonDir ++ symbolic) evidence
      | none => do
        lift (refuseIf (¬(value.length = 40 ∨ value.length = 64) ∨ ¬value.all isHexDigit)
          .unsafeRepositoryMetadata)
        pure evidence

/-- The evidence of a file that need not be there.  Its contents are not looked at. -/
def noteFile (copyRoot : List UInt8) (limits : InspectionLimits) (relative : RelativePath)
    (evidence : List FileEvidence) : Inspect (List FileEvidence) := do
  let found ← readRootFile copyRoot relative limits.maxTextBytes false
  pure (evidence ++ (found.map (·.evidence)).toList)

/-- `collect_reference_evidence`: `HEAD` and what it leads to, the packed references, and the mark
of a shallow clone. -/
def collectReferenceEvidence (copyRoot : List UInt8) (gitDir commonDir : RelativePath)
    (limits : InspectionLimits) (evidence : List FileEvidence) :
    Inspect (List FileEvidence) := do
  let evidence ← followReferences copyRoot commonDir limits (limits.maxDepth + 1) true
    (gitDir ++ [ascii "HEAD"]) evidence
  let evidence ← noteFile copyRoot limits (commonDir ++ [ascii "packed-refs"]) evidence
  noteFile copyRoot limits (commonDir ++ [ascii "shallow"]) evidence

/-- The metadata of a repository that was scanned: the identity of the index and the evidence. -/
def examineMetadata (copyRoot : List UInt8) (located : Located) (limits : InspectionLimits) :
    Inspect (Option Identity × List FileEvidence) := do
  rejectMetadataLinks located.gitDir located.commonDir
  let indexIdentity ← statMetadata (located.gitDir ++ [ascii "index"])
  let evidence ← collectReferenceEvidence copyRoot located.gitDir located.commonDir limits
    located.evidence
  pure (indexIdentity, evidence)

/-! ### The configuration

The configuration of a repository, from its common directory and its work tree, and the
attributes file that follows from it. -/

/-- The configuration file of a repository, in its common directory. -/
def commonConfig (commonDir : RelativePath) : RelativePath := commonDir ++ [ascii "config"]

/-- The configuration file of a work tree, in its own directory. -/
def worktreeConfig (gitDir : RelativePath) : RelativePath := gitDir ++ [ascii "config.worktree"]

/-- The entries of a configuration below the copy root, and its evidence.  Git lists the file at
the path of the evidence, which is where it was read. -/
def readConfig (copyRoot : List UInt8) (relative : RelativePath) (budget : CooperativeBudget) :
    Inspect (Option (List ConfigEntry × FileEvidence)) := do
  let found ← readRootFile copyRoot relative budget.limits.maxTextBytes false
  match found with
  | none => pure none
  | some read => do
    let parsed ← parseConfigFile copyRoot read.evidence.path budget
    pure (some (parsed, read.evidence))

/-- The configuration a repository adds to the global one.  That of the work tree is read only
where `extensions.worktreeConfig` of the common one is true, as Git does. -/
def assembleConfig (copyRoot : List UInt8) (gitDir commonDir : RelativePath)
    (global : List ConfigEntry) (budget : CooperativeBudget) (evidence : List FileEvidence) :
    Inspect (List ConfigEntry × List FileEvidence) := do
  let common ← readConfig copyRoot (commonConfig commonDir) budget
  match common with
  | none => pure (global, evidence)
  | some (commonEntries, item) => do
    let layered ← lift (effectiveConfigBool commonEntries worktreeConfigKey)
    if layered then do
      let worktree ← readConfig copyRoot (worktreeConfig gitDir) budget
      match worktree with
      | none => pure (global ++ commonEntries, evidence ++ [item])
      | some (worktreeEntries, item') =>
        pure (global ++ commonEntries ++ worktreeEntries, evidence ++ [item, item'])
    else pure (global ++ commonEntries, evidence ++ [item])

/-- The attributes file of the user, and whether it has to be there: that of the last
`core.attributesFile`, or the default one, which need not exist. -/
def userAttributesSource (entries : List ConfigEntry) (environment : SourceEnvironment) :
    Except GitInspectionIssue (Option (List UInt8 × Bool)) :=
  match lastConfigEntry entries attributesFileKey with
  | some entry =>
    (resolveAttributesSource environment entry.value).map fun path => some (path, true)
  | none => .ok ((defaultUserAttributes environment).map fun path => (path, false))

/-- `validate_effective_user_attributes`: the file that `userAttributesSource` gives is read and
must be one that the adapter understands. -/
def validateEffectiveUserAttributes (entries : List ConfigEntry)
    (environment : SourceEnvironment) (budget : CooperativeBudget)
    (evidence : List FileEvidence) : Inspect (List FileEvidence) := do
  budget.ensureRemaining
  let source ← lift (userAttributesSource entries environment)
  match source with
  | none => pure evidence
  | some (path, required) => do
    let found ← readAbsoluteFile path budget.limits.maxTextBytes required
    match found with
    | none => pure evidence
    | some read => do
      lift (validateAttributes read.contents)
      pure (evidence ++ [read.evidence])

/-- The configuration of a repository, validated: the entries, the filter drivers and the evidence.
The drivers are those of every entry, the global ones included. -/
def configureRepository (copyRoot : List UInt8) (gitDir commonDir : RelativePath)
    (global : List ConfigEntry) (environment : SourceEnvironment) (budget : CooperativeBudget)
    (evidence : List FileEvidence) :
    Inspect (List ConfigEntry × List (List UInt8) × List FileEvidence) := do
  let (entries, evidence) ← assembleConfig copyRoot gitDir commonDir global budget evidence
  lift (validateConfigEntries entries)
  let drivers ← lift (filterDrivers entries)
  let evidence ← validateEffectiveUserAttributes entries environment budget evidence
  pure (entries, drivers, evidence)

/-! ### The work tree

What binds a work tree to its metadata, in both directions, and the modules inside it. -/

/-- The loop of `preflight_repository` over the entries `core.worktree`.  Each must name the
candidate itself, whose identity was taken when it was opened; one that does shows that the two
belong together. -/
def checkWorktrees (copyRoot : List UInt8) (gitDir : RelativePath) (worktreeIdentity : Identity) :
    List ConfigEntry → Bool → Inspect Bool
  | [], corresponds => pure corresponds
  | entry :: entries, corresponds =>
    if entry.key = ascii "core.worktree" then do
      let resolved ← resolveReference copyRoot gitDir entry.value
      let opened ← ask (.openRelativeDirectory resolved)
      match opened with
      | .error _ => throw .unsafeRepositoryMetadata
      | .ok identity => do
        lift (refuseIf (identity ≠ some worktreeIdentity) .externalRepositoryMetadata)
        checkWorktrees copyRoot gitDir worktreeIdentity entries true
    else checkWorktrees copyRoot gitDir worktreeIdentity entries corresponds

/-- The check of the reference from a linked Git directory back to its marker.  Where the file
`gitdir` is there it must name the marker, and the marker must be the file that was read before. -/
def checkBackReference (copyRoot : List UInt8) (gitDir markerRelative : RelativePath)
    (limits : InspectionLimits) (corresponds : Bool) (evidence : List FileEvidence) :
    Option Identity → Inspect (Bool × List FileEvidence)
  | none => pure (corresponds, evidence)
  | some markerIdentity => do
    let found ← readRootFile copyRoot (gitDir ++ [ascii "gitdir"]) limits.maxTextBytes false
    match found with
    | none => pure (corresponds, evidence)
    | some read => do
      let reference ← lift (parseSingleReference read.contents [])
      let backReference ← resolveReference copyRoot gitDir reference
      lift (refuseIf (backReference ≠ markerRelative) .externalRepositoryMetadata)
      let found ← readRootFile copyRoot backReference limits.maxTextBytes true
      let file ← requireRead .unsafeRepositoryMetadata found
      lift (refuseIf (file.evidence.identity ≠ markerIdentity) .evidenceChanged)
      pure (true, evidence ++ [read.evidence, file.evidence])

/-- One entry of `validate_gitmodules`: the path of a submodule must be relative, of normal
components, and inside the copy. -/
def validateGitmodule (copyRoot : List UInt8) (worktree : RelativePath) (entry : ConfigEntry) :
    Except GitInspectionIssue Unit :=
  if (ascii "submodule.").isPrefixOf entry.key ∧ (ascii ".path").isSuffixOf entry.key then do
    refuseIf (isAbsolute entry.value = true ∨
      (components entry.value).any (fun component => (normalName component).isNone) = true)
      .externalRepositoryMetadata
    let _ ← normalizeInternalReference copyRoot (pathBytes worktree) entry.value
    .ok ()
  else .ok ()

/-- The check of `.gitmodules`, which is a configuration of the work tree and so less trusted than
the others. -/
def checkGitmodules (copyRoot : List UInt8) (relative : RelativePath) (budget : CooperativeBudget)
    (evidence : List FileEvidence) : Inspect (List FileEvidence) := do
  let gitmodules ← readConfig copyRoot (relative ++ [ascii ".gitmodules"]) budget
  match gitmodules with
  | none => pure evidence
  | some (entries, item) => do
    lift (validateGitmodulesConfigEntries entries)
    lift (entries.forM (validateGitmodule copyRoot relative))
    pure (evidence ++ [item])

/-! ### Attributes

The files of attributes that belong to the repository are read and refused where they name a
filter. -/

/-- `is_strict_descendant`: the candidate lies below the parent and is not the parent. -/
def isStrictDescendant (candidate parent : RelativePath) : Bool :=
  candidate ≠ parent && parent.isPrefixOf candidate

/-- An attributes file belongs to the innermost repository around it: no candidate between the two
lies around the file as well. -/
def belongsToRepository (discovery : Discovery) (relative attributes : RelativePath) : Bool :=
  relative.isPrefixOf attributes &&
    !discovery.candidates.any fun candidate =>
      isStrictDescendant candidate relative && candidate.isPrefixOf attributes

/-- The loop of `preflight_repository` over the attributes files of the discovery.  Only those of
this repository are read; they must still be there. -/
def checkAttributeFiles (copyRoot : List UInt8) (discovery : Discovery) (relative : RelativePath)
    (budget : CooperativeBudget) :
    List RelativePath → List FileEvidence → Inspect (List FileEvidence)
  | [], evidence => pure evidence
  | attributes :: rest, evidence => do
    budget.ensureRemaining
    if belongsToRepository discovery relative attributes then do
      let found ← readRootFile copyRoot attributes budget.limits.maxTextBytes true
      let read ← requireRead .unsafeAttributes found
      lift (validateAttributes read.contents)
      checkAttributeFiles copyRoot discovery relative budget rest (evidence ++ [read.evidence])
    else checkAttributeFiles copyRoot discovery relative budget rest evidence

/-- The loop of `preflight_repository` over the files `info/attributes`, which need not be there.
-/
def checkInfoAttributes (copyRoot : List UInt8) (budget : CooperativeBudget) :
    List RelativePath → List FileEvidence → Inspect (List FileEvidence)
  | [], evidence => pure evidence
  | attributes :: rest, evidence => do
    budget.ensureRemaining
    match ← readRootFile copyRoot attributes budget.limits.maxTextBytes false with
    | none => checkInfoAttributes copyRoot budget rest evidence
    | some read => do
      lift (validateAttributes read.contents)
      checkInfoAttributes copyRoot budget rest (evidence ++ [read.evidence])

/-! ### `preflight_repository`

The parts in the order of the source, and what a repository has become that passed all of
them. -/

/-- `PreparedRepository`; its issues are empty.  It is what a candidate has become that passed its
preflight: the identities and the evidence that are checked again before and after its status
query. -/
structure PreparedRepository where
  relativePath : RelativePath
  filterDrivers : List (List UInt8)
  worktreeIdentity : Identity
  gitDir : List UInt8
  gitDirIdentity : Identity
  commonDir : List UInt8
  commonDirIdentity : Identity
  indexIdentity : Option Identity
  evidence : List FileEvidence
deriving DecidableEq

/-- The part of `preflight_repository` after the configuration: the evidence.  A linked work tree
is accepted only where its metadata leads back to it, through `core.worktree` or the file `gitdir`.
-/
def checkContents (copyRoot : List UInt8) (discovery : Discovery) (relative : RelativePath)
    (located : Located) (entries : List ConfigEntry) (budget : CooperativeBudget)
    (evidence : List FileEvidence) : Inspect (List FileEvidence) := do
  let corresponds ← checkWorktrees copyRoot located.gitDir located.worktreeIdentity entries
    located.markerFileIdentity.isNone
  let (corresponds, evidence) ← checkBackReference copyRoot located.gitDir
    (relative ++ [gitName]) budget.limits corresponds evidence located.markerFileIdentity
  lift (refuseIf (corresponds = false) .unsafeRepositoryMetadata)
  let evidence ← checkGitmodules copyRoot relative budget evidence
  let evidence ← checkAttributeFiles copyRoot discovery relative budget
    discovery.attributeFiles evidence
  let evidence ← checkInfoAttributes copyRoot budget
    [located.commonDir ++ [ascii "info", ascii "attributes"],
      located.gitDir ++ [ascii "info", ascii "attributes"]] evidence
  revalidateFileEvidence evidence budget
  pure evidence

/-- `preflight_repository`: the repository and the entries scanned.  Its parts follow one another
as in the source: locate, scan, look at the metadata, configure, check the contents.  From the scan
on a failure carries the count, since the limit is one for all repositories. -/
def preflightRepository (copyRoot : List UInt8) (discovery : Discovery) (relative : RelativePath)
    (global : GlobalContext) (environment : SourceEnvironment) (budget : CooperativeBudget)
    (scanned : ℕ) : Counted (PreparedRepository × ℕ) := do
  let located ← uncounted scanned (locateRepository copyRoot relative global budget.limits)
  let scanned ← scanRepository budget located scanned
  let (indexIdentity, evidence) ←
    uncounted scanned (examineMetadata copyRoot located budget.limits)
  let (entries, drivers, evidence) ← uncounted scanned (configureRepository copyRoot
    located.gitDir located.commonDir global.entries environment budget evidence)
  let evidence ← uncounted scanned
    (checkContents copyRoot discovery relative located entries budget evidence)
  pure (⟨relative, drivers, located.worktreeIdentity, copyPath copyRoot located.gitDir,
    located.gitDirIdentity, copyPath copyRoot located.commonDir, located.commonDirIdentity,
    indexIdentity, evidence⟩, scanned)

end Git
end ThinWorkspace
