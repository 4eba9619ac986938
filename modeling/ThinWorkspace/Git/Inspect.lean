/-
# The inspection of a copy

Source: `inspect_with_options`, `inspect_index_flags`, `validate_index_flags_output`,
`inspect_status`, `revalidate_repository` and `filter_driver_union` in
`crates/thinws-adapter-git-cli/src/git_query/inspect.rs`.

Three loops follow one another: the preflight of every candidate in path order, the index
flags of those that passed, the status of those that passed again, the deepest first.  A
repository that fails a step has its result at once, and `Inspected` is such a result
before it is reported.
-/

import ThinWorkspace.Git.Preflight

namespace ThinWorkspace
namespace Git

open ThinWorkspace.Core Ports Lib Lib.Fallible Lib.Lexicographic

/-- A `RepositoryInspection` whose path is still the list of its names: the order of paths and the
relation of inner and outer are those of the lists. -/
structure Inspected where
  relativePath : RelativePath
  state : RepositoryState
  issues : List GitInspectionIssue
deriving DecidableEq

/-- The result as it is reported, with the names joined to one path. -/
def Inspected.report (inspected : Inspected) : RepositoryInspection :=
  ⟨pathBytes inspected.relativePath, inspected.state, inspected.issues⟩

/-- The result of a repository that failed a step: its state is unknown, and the one issue says
why. -/
def Inspected.unknown (issue : GitInspectionIssue) (relative : RelativePath) : Inspected :=
  ⟨relative, .unknown, [issue]⟩

/-! ### Revalidation

Everything that was read of a repository is read again, and compared with what it was. -/

/-- An identity that must be unchanged: the path still leads to the very file that was seen during
the preflight. -/
def requireIdentity (path : List UInt8) (expected : Identity) : Inspect Unit := do
  let unchanged ← revalidateIdentity path expected
  lift (refuseIf (unchanged = false) .evidenceChanged)

/-- `revalidate_repository`: worktree, repository, common directory, index and every file that was
read are as they were in the preflight. -/
def revalidateRepository (copyRoot : List UInt8) (repository : PreparedRepository)
    (budget : CooperativeBudget) : Inspect Unit := do
  budget.ensureRemaining
  requireIdentity (copyPath copyRoot repository.relativePath) repository.worktreeIdentity
  requireIdentity repository.gitDir repository.gitDirIdentity
  requireIdentity repository.commonDir repository.commonDirIdentity
  let index ← ask (.statAbsoluteNofollow (pathJoin repository.gitDir (ascii "index")))
  lift (refuseIf (index ≠ some repository.indexIdentity) .evidenceChanged)
  revalidateFileEvidence repository.evidence budget

/-- `revalidate_repositories`, one after the other: the first that has changed ends it. -/
def revalidateRepositories (copyRoot : List UInt8) (budget : CooperativeBudget) :
    List PreparedRepository → Inspect Unit
  | [] => pure ()
  | repository :: repositories => do
    revalidateRepository copyRoot repository budget
    revalidateRepositories copyRoot budget repositories

/-! ### Index flags

An entry that is assumed unchanged or skipped would hide a change from a status query.  The
tags of the index are looked at for this, and one such entry makes the repository unknown.
-/

/-- `is_ascii_lowercase`: `git ls-files -v` prints the tag of an entry in lower case where the
entry is assumed to be unchanged. -/
def isLowercase (byte : UInt8) : Bool := 97 ≤ byte.toNat && byte.toNat ≤ 122

/-- One record of `validate_index_flags_output`: a tag, a space and a path.  A tag in lower case or
`S` hides changes from a status query, and is refused. -/
def validateIndexFlagsRecord (record : List UInt8) : Except GitInspectionIssue Unit := do
  refuseIf (record = []) .invalidGitOutput
  refuseIf (record.length < 3 ∨ record[1]? ≠ some space) .invalidGitOutput
  refuseIf (record.head?.any fun flag => isLowercase flag || flag == 83) .hiddenIndexFlags

/-- `validate_index_flags_output`: records that each end in a zero byte, or no output at all. -/
def validateIndexFlagsOutput (output : List UInt8) : Except GitInspectionIssue Unit :=
  if output = [] then .ok ()
  else
    match output.dropSuffix? [0] with
    | none => .error .invalidGitOutput
    | some records => (records.splitOn 0).forM validateIndexFlagsRecord

/-- `inspect_index_flags`: the flags of one repository, with everything revalidated before and
after the command. -/
def inspectIndexFlags (copyRoot : List UInt8) (repository : PreparedRepository)
    (environment : SourceEnvironment) (budget : CooperativeBudget) : Inspect Unit := do
  revalidateRepository copyRoot repository budget
  let timeout ← budget.remainingTimeout
  let output ← runPrevalidatedRepository (copyPath copyRoot repository.relativePath)
    repository.gitDir .indexFlags environment timeout
  lift (validateIndexFlagsOutput output.stdout)
  revalidateRepository copyRoot repository budget

/-! ### Status

A status query is made between two revalidations of everything that takes part in it, with
the filter drivers of all participants switched off. -/

/-- `RepositoryState::from_tracked_change_count`: dirty with the number of changes, which is never
zero, or clean. -/
def fromTrackedChangeCount (trackedChanges : ℕ) : RepositoryState :=
  if h : 0 < trackedChanges then .dirty ⟨trackedChanges, h⟩ else .clean

/-- The command of a status query: it runs in the worktree, names the repository, and switches off
the filter drivers given. -/
def statusCommand (copyRoot : List UInt8) (repository : PreparedRepository)
    (environment : SourceEnvironment) (filterDrivers : List (List UInt8)) : GitCommand :=
  gitCommand (copyPath copyRoot repository.relativePath) (.trackedStatus filterDrivers)
    (.preserved environment) (some repository.gitDir)

/-- The state that `inspect_status` finds: one guarded query between two revalidations of all
participants, whose output is counted. -/
def repositoryStatus (copyRoot : List UInt8) (repository : PreparedRepository)
    (participants : List PreparedRepository) (filterDrivers : List (List UInt8))
    (environment : SourceEnvironment) (budget : CooperativeBudget) : Inspect RepositoryState := do
  revalidateRepositories copyRoot budget participants
  let timeout ← budget.remainingTimeout
  let output ← runPrevalidatedRepository (copyPath copyRoot repository.relativePath)
    repository.gitDir (.trackedStatus filterDrivers) environment timeout
  revalidateRepositories copyRoot budget participants
  match parseTrackedChangeCount output.stdout with
  | .ok count => pure (fromTrackedChangeCount count)
  | .error _ => throw .invalidGitOutput

/-- `inspect_status`: a failure at any point makes the state unknown; it is never taken for a clean
repository. -/
def inspectStatus (copyRoot : List UInt8) (repository : PreparedRepository)
    (participants : List PreparedRepository) (filterDrivers : List (List UInt8))
    (environment : SourceEnvironment) (budget : CooperativeBudget) : Inspect Inspected := do
  let result ← (repositoryStatus copyRoot repository participants filterDrivers environment
    budget).attempt
  match result with
  | .ok state => pure ⟨repository.relativePath, state, []⟩
  | .error issue => pure (.unknown issue repository.relativePath)

/-- `filter_driver_union`: the drivers of all participants, sorted and each of them once. -/
def filterDriverUnion (repositories : List PreparedRepository) : List (List UInt8) :=
  sortDedup bytesLe (repositories.flatMap (·.filterDrivers))

/-! ### `inspect_with_options`

Three loops over the candidates, each of which passes on those that succeeded and keeps a
result for those that did not.  The last one goes from the deepest repository outwards. -/

/-- What the loop of preflights carries on: the entries scanned, those that passed, the results of
those that failed, and what is known of the discovery. -/
structure Preflighted where
  scanned : ℕ
  prepared : List PreparedRepository
  repositories : List Inspected
  completeness : DiscoveryCompleteness
  issues : List GitInspectionIssue
deriving DecidableEq

/-- A repository that passed: it has no result yet, and goes on to the next loop. -/
def Preflighted.pass (state : Preflighted) (repository : PreparedRepository) (scanned : ℕ) :
    Preflighted :=
  { state with scanned := scanned, prepared := state.prepared ++ [repository] }

/-- A repository that failed: its result is final, and the entries it scanned count against the
limit. -/
def Preflighted.refuse (state : Preflighted) (relative : RelativePath) (issue : GitInspectionIssue)
    (scanned : ℕ) : Preflighted :=
  { state with
    scanned := scanned, repositories := state.repositories ++ [.unknown issue relative] }

/-- A repository whose turn came after the deadline: besides its result, the discovery as a whole
becomes incomplete. -/
def Preflighted.expire (state : Preflighted) (relative : RelativePath) : Preflighted :=
  { state with
    completeness := .incomplete, issues := state.issues ++ [.budgetExpired],
    repositories := state.repositories ++ [.unknown .budgetExpired relative] }

/-- The loop of preflights: every candidate either passes or gets its result, also those behind the
deadline. -/
def preflightAll (copyRoot : List UInt8) (discovery : Discovery) (global : GlobalContext)
    (environment : SourceEnvironment) (budget : CooperativeBudget) :
    List RelativePath → Preflighted → Inspect Preflighted
  | [], state => pure state
  | relative :: rest, state => do
    let expired ← budget.expired
    if expired then
      preflightAll copyRoot discovery global environment budget rest (state.expire relative)
    else do
      let result ← (preflightRepository copyRoot discovery relative global environment budget
        state.scanned).attempt
      match result with
      | .ok (repository, scanned) =>
        preflightAll copyRoot discovery global environment budget rest
          (state.pass repository scanned)
      | .error (issue, scanned) =>
        preflightAll copyRoot discovery global environment budget rest
          (state.refuse relative issue scanned)

/-- The loop of index flags: those that passed, and the results so far.  A failure concerns its own
repository only. -/
def indexAll (copyRoot : List UInt8) (environment : SourceEnvironment)
    (budget : CooperativeBudget) :
    List PreparedRepository → List PreparedRepository → List Inspected →
      Inspect (List PreparedRepository × List Inspected)
  | [], indexed, repositories => pure (indexed, repositories)
  | repository :: rest, indexed, repositories => do
    let result ← (inspectIndexFlags copyRoot repository environment budget).attempt
    match result with
    | .ok _ => indexAll copyRoot environment budget rest (indexed ++ [repository]) repositories
    | .error issue =>
      indexAll copyRoot environment budget rest indexed
        (repositories ++ [.unknown issue repository.relativePath])

/-- The deepest repositories first, so that a nested repository has its state before the one around
it is queried. -/
def sortByDepth (repositories : List PreparedRepository) : List PreparedRepository :=
  repositories.mergeSort fun a b => decide (b.relativePath.length ≤ a.relativePath.length)

/-- A repository inside has no known state: what the outer status says of it could not be trusted.
-/
def unsafeDescendant (repositories : List Inspected) (relative : RelativePath) : Bool :=
  repositories.any fun inspected =>
    inspected.state = .unknown && isStrictDescendant inspected.relativePath relative

/-- The repositories at or inside a path: a status query may descend into them, so all of them are
revalidated around it. -/
def participants (indexed : List PreparedRepository) (relative : RelativePath) :
    List PreparedRepository :=
  indexed.filter fun candidate =>
    candidate.relativePath = relative || isStrictDescendant candidate.relativePath relative

/-- The loop of status queries: a repository with an unknown one inside is reported without a
query. -/
def statusAll (copyRoot : List UInt8) (environment : SourceEnvironment)
    (budget : CooperativeBudget) (indexed : List PreparedRepository) :
    List PreparedRepository → List Inspected → Inspect (List Inspected)
  | [], repositories => pure repositories
  | repository :: rest, repositories => do
    if unsafeDescendant repositories repository.relativePath then
      statusAll copyRoot environment budget indexed rest
        (repositories ++ [.unknown .unsafeDescendant repository.relativePath])
    else do
      let inside := participants indexed repository.relativePath
      let inspected ← inspectStatus copyRoot repository inside (filterDriverUnion inside)
        environment budget
      statusAll copyRoot environment budget indexed rest (repositories ++ [inspected])

/-- The issue that makes the discovery incomplete in the end, if there is one: the time is over, or
the root of the copy has changed. -/
def revalidateRoot (copyRoot : List UInt8) (discovery : Discovery) (budget : CooperativeBudget) :
    Inspect (Option GitInspectionIssue) := do
  let result ← budget.ensureRemaining.attempt
  match result with
  | .error issue => pure (some issue)
  | .ok _ => do
    let unchanged ← revalidateIdentity copyRoot discovery.rootIdentity
    pure (if unchanged then none else some .evidenceChanged)

/-- What `inspect_with_options` knows when it finishes: the three parts that the aggregate state is
computed from. -/
structure Concluded where
  completeness : DiscoveryCompleteness
  issues : List GitInspectionIssue
  repositories : List Inspected

/-- A failure of the last checks: the discovery is incomplete, and the issue is listed once. -/
def Concluded.fault (state : Concluded) : Option GitInspectionIssue → Concluded
  | none => state
  | some issue =>
    { state with completeness := .incomplete, issues := pushUnique state.issues issue }

/-- `finish_inspection`: the results as they are reported, and the aggregate state over them. -/
def Concluded.finish (state : Concluded) : GitInspection :=
  .new state.completeness (state.repositories.map Inspected.report) state.issues

/-- `repositories.sort_by`: the results in the order of their paths, in whatever order they were
found. -/
def sortByPath (repositories : List Inspected) : List Inspected :=
  repositories.mergeSort fun a b => namesLe a.relativePath b.relativePath

/-- The part of `inspect_with_options` after the preflights: index flags, status, and a last look
at the root and at the configuration that was read. -/
def inspectPrepared (copyRoot : List UInt8) (environment : SourceEnvironment)
    (budget : CooperativeBudget) (discovery : Discovery) (global : GlobalContext)
    (state : Preflighted) : Inspect Concluded := do
  let (indexed, repositories) ←
    indexAll copyRoot environment budget state.prepared [] state.repositories
  let indexed := sortByDepth indexed
  let repositories ← statusAll copyRoot environment budget indexed indexed repositories
  let fault ← revalidateRoot copyRoot discovery budget
  let result ← (revalidateFileEvidence global.evidence budget).attempt
  let concluded : Concluded := ⟨state.completeness, state.issues, sortByPath repositories⟩
  match result with
  | .ok _ => pure (concluded.fault fault)
  | .error issue => pure ((concluded.fault fault).fault (some issue))

/-- The part of `inspect_with_options` after a complete discovery that found a repository: an
unsupported configuration makes every candidate unknown. -/
def inspectDiscovered (expectedParent copyRoot : List UInt8) (environment : SourceEnvironment)
    (budget : CooperativeBudget) (discovery : Discovery) (scanned : ℕ) : Inspect Concluded := do
  let result ← (preflightSources expectedParent copyRoot environment budget).attempt
  match result with
  | .error issue =>
    pure ⟨discovery.completeness, discovery.issues ++ [issue],
      discovery.candidates.map (.unknown issue)⟩
  | .ok global => do
    let state ← preflightAll copyRoot discovery global environment budget discovery.candidates
      ⟨scanned, [], [], discovery.completeness, discovery.issues⟩
    inspectPrepared copyRoot environment budget discovery global state

/-- What `inspect_with_options` does with the discovery: an incomplete one is reported without
running Git at all, and an empty one has nothing to run it for. -/
def inspectDiscovery (expectedParent copyRoot : List UInt8) (environment : SourceEnvironment)
    (budget : CooperativeBudget) (discovery : Discovery) (scanned : ℕ) : Inspect Concluded :=
  if discovery.completeness = .incomplete then
    pure ⟨.incomplete, discovery.issues,
      discovery.candidates.map (.unknown (discovery.issues.headD .scanFailed))⟩
  else if discovery.candidates = [] then pure ⟨discovery.completeness, discovery.issues, []⟩
  else inspectDiscovered expectedParent copyRoot environment budget discovery scanned

/-- `inspect_with_options`, before the result is finished: the clock is read once for the deadline,
and a failure of the discovery is an issue and no error. -/
def inspectConcluded (expectedParent copyRoot : List UInt8) (environment : SourceEnvironment)
    (limits : InspectionLimits) : Inspect Concluded := do
  let now ← ask .now
  let budget : CooperativeBudget := ⟨now + limits.totalTimeout, limits⟩
  let result ← (discover copyRoot budget).attempt
  match result with
  | .error issue => pure ⟨.incomplete, [issue], []⟩
  | .ok (discovery, scanned) =>
    inspectDiscovery expectedParent copyRoot environment budget discovery scanned

/-- `inspect_with_options`: it always returns an inspection, however its calls are answered. -/
def inspectWithOptions (expectedParent copyRoot : List UInt8) (environment : SourceEnvironment)
    (limits : InspectionLimits) : Inspect GitInspection := do
  let concluded ← inspectConcluded expectedParent copyRoot environment limits
  pure concluded.finish

/-- `SourceEnvironment::from_lookup`: the variables that select configuration, and whether any is
set that would redirect Git to other files. -/
def SourceEnvironment.fromLookup (lookup : String → Option (List UInt8)) : SourceEnvironment :=
  let unsupported := ["GIT_DIR", "GIT_WORK_TREE", "GIT_COMMON_DIR", "GIT_INDEX_FILE",
    "GIT_OBJECT_DIRECTORY", "GIT_ALTERNATE_OBJECT_DIRECTORIES", "GIT_ATTR_SOURCE",
    "GIT_EXEC_PATH", "GIT_CONFIG_COUNT", "GIT_CONFIG_PARAMETERS", "GIT_CONFIG_KEY_0",
    "GIT_CONFIG_VALUE_0", "GIT_CEILING_DIRECTORIES", "GIT_NAMESPACE", "GIT_REPLACE_REF_BASE",
    "GIT_GRAFT_FILE", "GIT_SHALLOW_FILE", "GIT_QUARANTINE_PATH"]
  ⟨lookup "HOME", lookup "XDG_CONFIG_HOME", lookup "GIT_CONFIG_NOSYSTEM",
    lookup "GIT_CONFIG_SYSTEM", lookup "GIT_CONFIG_GLOBAL", lookup "GIT_ATTR_NOSYSTEM",
    unsupported.any fun name => (lookup name).isSome⟩

/-- `inspect`, for the variables of the process and the limits of production. -/
def inspect (expectedParent copyRoot : List UInt8) (lookup : String → Option (List UInt8)) :
    Inspect GitInspection :=
  inspectWithOptions expectedParent copyRoot (.fromLookup lookup) .production

end Git
end ThinWorkspace
