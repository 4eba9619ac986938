/-
# The parts of an inspection without a status query

Source: as `Git/Inspect.lean`.  Discovery, the preflights, the index flags and every
revalidation run no status query, whatever their calls answer: one lemma for each, by the
frame rule `Only` along its definition.
-/

import ThinWorkspace.Git.Inspect

namespace ThinWorkspace
namespace Git

open ThinWorkspace.Core Ports Lib Lib.Fallible Lib.Program

/-- The command of a status query: one with the argument `status`, whoever built it. -/
def IsStatusQuery (command : GitCommand) : Prop := ascii "status" ∈ command.args

/-- The call starts no status query.  A call that starts no command at all is silent, whatever it
reads of the file system or of the clock. -/
def Silent : InspectCall → Prop
  | .collectCommand command _ => ¬IsStatusQuery command
  | _ => True

/-- The directory of a repository is named behind `--git-dir=`, so it is not the argument
`status`. -/
theorem gitDirArgument_ne_status (cwd : List UInt8) (gitDir : Option (List UInt8)) :
    ascii "status" ≠ gitDirArgument cwd gitDir := by
  intro h
  have hfirst : some (115 : UInt8) = some 45 := congrArg List.head? h
  exact absurd hfirst (by decide)

/-- Of the queries only one runs a status query: the path of a configuration is absolute. -/
theorem silent_query {cwd : List UInt8} {query : GitQuery} {environment : QueryEnvironment}
    {gitDir : Option (List UInt8)} {timeout : ℕ}
    (h : ∀ filterDrivers, query ≠ .trackedStatus filterDrivers)
    (hfile : ∀ file, query = .config file → isAbsolute file = true) :
    Silent (.collectCommand (gitCommand cwd query environment gitDir) timeout) := by
  intro hstatus
  change ascii "status" ∈ queryArguments cwd gitDir query at hstatus
  cases query with
  | execPath =>
    have hargument : ascii "status" ∉ [ascii "--exec-path"] := by decide
    exact hargument hstatus
  | config file =>
    have hpath := hfile file rfl
    have hothers : ascii "status" ∉ [ascii "--git-dir=/dev/null", ascii "config", ascii "--file",
        ascii "--no-includes", ascii "--null", ascii "--list"] := by decide
    have hmem : ascii "status" = file := by
      simp only [queryArguments, List.mem_cons, List.not_mem_nil, or_false] at hstatus hothers
      tauto
    rw [← hmem] at hpath
    exact absurd hpath (by decide)
  | trackedStatus filterDrivers => exact h _ rfl
  | indexFlags =>
    rcases List.mem_cons.mp hstatus with hdir | hstatus
    · exact gitDirArgument_ne_status cwd gitDir hdir
    · have hothers : ascii "status" ∉ [ascii "--no-optional-locks", ascii "ls-files", ascii "-v",
          ascii "-z"] := by decide
      exact hothers hstatus

variable {ε ε' α : Type}

/-- The part runs no status query: every call it makes is silent, whatever the calls before it have
answered. -/
abbrev Quiet (part : Program InspectCall InspectCall.Result ε α) : Prop := Only Silent part

/-- A value that is already known, or an issue, takes no call. -/
theorem quiet_lift {value : Except GitInspectionIssue α} : Quiet (lift value) := only_ofExcept

/-- A missing answer is an issue, and neither that nor the answer takes a call. -/
theorem quiet_requireAnswer {issue : GitInspectionIssue} {answer : Option α} :
    Quiet (requireAnswer issue answer) := by
  cases answer <;> trivial

/-- A read that brought nothing is an issue; what it did bring is taken as it is. -/
theorem quiet_requireRead {issue : GitInspectionIssue} {read : Option ReadEvidence} :
    Quiet (requireRead issue read) := by
  cases read <;> trivial

variable {budget : CooperativeBudget} {copyRoot path : List UInt8} {relative : RelativePath}
  {limit : ℕ} {required : Bool} {query : GitQuery} {limits : InspectionLimits}
  {environment : SourceEnvironment} {discovery : Discovery} {evidence : List FileEvidence}

/-! ### Budget, files and the runner

The clock, single files, references, and the two ways in which a command is started outside
of the status loop. -/

/-- `CooperativeBudget::expired` asks the clock. -/
theorem quiet_expired : Quiet budget.expired :=
  (only_perform trivial).bind fun _ => only_pure

/-- `ensure_remaining` asks the clock as well, and turns a deadline that has passed into an issue.
-/
theorem quiet_ensureRemaining : Quiet budget.ensureRemaining :=
  quiet_expired.bind fun _ => quiet_lift

/-- The timeout of the next command is what the clock leaves of the budget. -/
theorem quiet_remainingTimeout : Quiet budget.remainingTimeout :=
  ((only_perform trivial).bind fun _ => only_pure).bind fun _ => quiet_lift

/-- A file below the copy root is opened and read by one call, with its limit. -/
theorem quiet_readRootFile : Quiet (readRootFile copyRoot relative limit required) :=
  (only_perform trivial).bind fun _ => quiet_lift

/-- A file outside the copy root is read by one call behind the check that its path is absolute. -/
theorem quiet_readAbsoluteFile : Quiet (readAbsoluteFile path limit required) :=
  quiet_lift.bind fun _ => (only_perform trivial).bind fun _ => quiet_lift

/-- `resolve_internal_reference` follows the components of a reference through the file system; the
walk is one call here. -/
theorem quiet_resolveReference {reference : List UInt8} :
    Quiet (resolveReference copyRoot relative reference) :=
  (only_perform trivial).bind fun _ => quiet_lift

/-- `validate_inputs` looks at the working directory and, for a configuration, at its path. -/
theorem quiet_validateInputs {cwd : List UInt8} : Quiet (validateInputs cwd query) := by
  refine quiet_lift.bind fun _ => ?_
  cases query with
  | config file => exact quiet_lift.bind fun _ => (only_perform trivial).bind fun _ => quiet_lift
  | _ => exact only_pure

/-- What follows `validate_inputs` may count on an absolute path. -/
theorem quiet_validateInputs_bind {cwd : List UInt8} {next : Unit → Inspect α}
    (h : (∀ file, query = .config file → isAbsolute file = true) → ∀ u, Quiet (next u)) :
    Quiet (validateInputs cwd query >>= next) := by
  cases query with
  | config file =>
    by_cases hfile : isAbsolute file = true
    · exact quiet_validateInputs.bind (h fun other he => by cases he; exact hfile)
    · have hrefused : validateInputs cwd (.config file) =
          (lift (refuseIf (isAbsolute cwd = false) .queryFailed) >>= fun _ =>
            (throw .queryFailed : Inspect Unit)) := by
        rw [validateInputs]
        simp only [Bool.eq_false_iff.mpr hfile, refuseIf, if_true]
        rfl
      rw [hrefused, Program.bind_assoc]
      exact quiet_lift.bind fun _ => trivial
  | execPath => exact quiet_validateInputs.bind (h fun _ he => by cases he)
  | trackedStatus filterDrivers => exact quiet_validateInputs.bind (h fun _ he => by cases he)
  | indexFlags => exact quiet_validateInputs.bind (h fun _ he => by cases he)

/-- `run_bootstrap` starts the one command it is given, so it is silent where that is no status
query. -/
theorem quiet_runBootstrap {cwd : List UInt8} {timeout : ℕ}
    (h : ∀ filterDrivers, query ≠ .trackedStatus filterDrivers) :
    Quiet (runBootstrap cwd query timeout) :=
  quiet_validateInputs_bind fun hfile _ =>
    (only_perform (silent_query h hfile)).bind fun _ => quiet_lift

/-- `git config --file` lists one configuration; it is run by `run_bootstrap`, whose check makes
the path absolute, so the path is not the argument `status`. -/
theorem quiet_parseConfigFile {cwd : List UInt8} : Quiet (parseConfigFile cwd path budget) :=
  quiet_remainingTimeout.bind fun _ => (quiet_runBootstrap (by simp)).bind fun _ =>
    quiet_lift.bind fun _ => quiet_lift

/-! ### Discovery

Discovery reads directories and starts no command. -/

/-- Discovery looks at one name: its `stat`, and where it is a directory its handle. -/
theorem quiet_scanName {directory : PendingDirectory} {name : List UInt8} {scan : Scan} :
    Quiet (scanName budget directory name scan) := by
  refine (only_perform trivial).bind fun answer => ?_
  cases answer with
  | none => exact only_pure
  | some identity =>
    simp only
    split
    · exact only_pure
    · split
      · split
        · exact only_pure
        · refine (only_perform trivial).bind fun opened => ?_
          split <;> exact only_pure
      · exact only_pure

/-- The names of one directory, one after the other, by induction on those that are left. -/
theorem quiet_scanEntries {directory : PendingDirectory} {entries : List (Option (List UInt8))}
    {scan : Scan} : Quiet (scanEntries budget directory entries scan) := by
  induction entries generalizing scan with
  | nil => exact only_pure
  | cons entry entries ih =>
    refine quiet_expired.bind fun expired => ?_
    split
    · exact only_pure
    · cases entry with
      | none => exact ih
      | some name =>
        simp only
        split
        · exact ih
        · split
          · exact only_pure
          · exact quiet_scanName.bind fun _ => ih

/-- The directories that are still to be scanned, by induction on the fuel of the walk. -/
theorem quiet_walk {fuel : ℕ} {scan : Scan} : Quiet (walk budget fuel scan) := by
  induction fuel generalizing scan with
  | zero => exact only_pure
  | succ fuel ih =>
    rw [walk]
    split
    · exact only_pure
    · refine quiet_expired.bind fun expired => ?_
      split
      · exact only_pure
      · refine (only_perform trivial).bind fun answer => ?_
        cases answer with
        | none => exact ih
        | some entries => exact quiet_scanEntries.bind fun _ => ih

/-- `discover` opens the copy root and walks it.  No command is run before the first candidate is
known. -/
theorem quiet_discover : Quiet (discover copyRoot budget) := by
  refine (only_perform trivial).bind fun root => ?_
  split
  · exact quiet_lift.bind fun _ => (only_perform trivial).bind fun _ =>
      quiet_lift.bind fun _ => quiet_walk.bind fun _ => only_pure
  · exact only_throw

/-! ### Sources

The global sources: one command asks where Git is installed, and one lists each
configuration. -/

/-- A directory that an environment variable names must be absolute and may be missing; it is
opened, and nothing is run in it. -/
theorem quiet_validateEnvironmentDirectory {directory : Option (List UInt8)} :
    Quiet (validateEnvironmentDirectory directory) := by
  cases directory with
  | none => exact only_pure
  | some path =>
    refine quiet_lift.bind fun _ => (only_perform trivial).bind fun opened => ?_
    split
    · exact only_pure
    · exact only_pure
    · exact only_throw

/-- A configuration that an environment variable names must be an absolute path, and `/dev/null`
must be the device. -/
theorem quiet_validateSelectedSources {source : Option (List UInt8)} :
    Quiet (validateSelectedSources source) := by
  cases source with
  | none => exact only_pure
  | some path =>
    refine Only.bind ?_ fun _ => only_pure
    refine quiet_lift.bind fun _ => ?_
    split
    · exact (only_perform trivial).bind fun _ => quiet_lift.bind fun _ => only_pure
    · exact only_pure

/-- The answer of `git --exec-path` is parsed and the directory it names is opened, without another
command. -/
theorem quiet_parseRuntimePrefix {expectedParent stdout : List UInt8} :
    Quiet (parseRuntimePrefix expectedParent stdout) := by
  refine quiet_lift.bind fun _ => (only_perform trivial).bind fun opened => ?_
  split
  · exact only_pure
  · exact only_throw

/-- A name in `/etc`, where `/etc` itself may be a link: three looks at directories. -/
theorem quiet_resolveSystemPath {name : List UInt8} : Quiet (resolveSystemPath name) := by
  refine (only_perform trivial).bind fun _ => quiet_requireAnswer.bind fun metadata => ?_
  simp only
  split
  · exact only_pure
  · refine quiet_lift.bind fun _ => (only_perform trivial).bind fun _ =>
      quiet_requireAnswer.bind fun target => (only_perform trivial).bind fun opened => ?_
    split
    · exact only_throw
    · exact (only_perform trivial).bind fun _ => quiet_requireAnswer.bind fun _ =>
        quiet_lift.bind fun _ => only_pure

/-- The configurations of the system are the one below the prefix of the running Git and the
selected one or that in `/etc`. -/
theorem quiet_systemSources {runtimePrefix : List UInt8} {selected : Option (List UInt8)} :
    Quiet (systemSources environment runtimePrefix selected) := by
  refine quiet_lift.bind fun disabled => ?_
  split
  · exact only_pure
  · cases selected with
    | none => exact quiet_resolveSystemPath.bind fun _ => only_pure
    | some path => exact only_pure

/-- `select_sources` runs `git --exec-path` for the prefix, and nothing else. -/
theorem quiet_selectSources {expectedParent : List UInt8} :
    Quiet (selectSources expectedParent copyRoot environment budget) :=
  quiet_lift.bind fun _ => quiet_validateEnvironmentDirectory.bind fun _ =>
    quiet_validateEnvironmentDirectory.bind fun _ => quiet_validateSelectedSources.bind fun _ =>
    quiet_validateSelectedSources.bind fun _ => quiet_remainingTimeout.bind fun _ =>
    (quiet_runBootstrap (by simp)).bind fun _ =>
    quiet_parseRuntimePrefix.bind fun _ => quiet_systemSources.bind fun _ => only_pure

/-- Every selected configuration is read and listed; listing one runs `git config --file`. -/
theorem quiet_readSources {sources : List (List UInt8)} {global : GlobalContext} :
    Quiet (readSources copyRoot budget sources global) := by
  induction sources generalizing global with
  | nil => exact only_pure
  | cons source sources ih =>
    refine quiet_ensureRemaining.bind fun _ => ?_
    split
    · exact ih
    · refine quiet_readAbsoluteFile.bind fun found => ?_
      cases found with
      | none => exact ih
      | some read => exact quiet_parseConfigFile.bind fun _ => ih

/-- Attribute files are read and validated here, not handed to Git; by induction on the list. -/
theorem quiet_readAttributes {sources : List (List UInt8)} :
    Quiet (readAttributes budget sources evidence) := by
  induction sources generalizing evidence with
  | nil => exact only_pure
  | cons source sources ih =>
    refine quiet_ensureRemaining.bind fun _ => quiet_readAbsoluteFile.bind fun found => ?_
    cases found with
    | none => exact ih
    | some read => exact quiet_lift.bind fun _ => ih

/-- The attribute files of the system stand below the prefix and in `/etc`, unless the environment
disables them; they are only read. -/
theorem quiet_systemAttributes {runtimePrefix : List UInt8} :
    Quiet (systemAttributes environment runtimePrefix budget evidence) := by
  refine quiet_lift.bind fun disabled => ?_
  split
  · exact only_pure
  · exact quiet_resolveSystemPath.bind fun _ => quiet_readAttributes

/-- `preflight_sources`: the selection, the configurations and the attributes, none of which runs a
status query. -/
theorem quiet_preflightSources {expectedParent : List UInt8} :
    Quiet (preflightSources expectedParent copyRoot environment budget) :=
  quiet_selectSources.bind fun _ => quiet_readSources.bind fun _ =>
    quiet_systemAttributes.bind fun _ => quiet_ensureRemaining.bind fun _ =>
    quiet_lift.bind fun _ => only_pure

/-! ### Evidence

Evidence is checked by reading files again. -/

/-- One piece of evidence is checked by reading the file again. -/
theorem quiet_revalidate {item : FileEvidence} : Quiet item.revalidate := by
  refine Only.bind quiet_readAbsoluteFile.attempt fun read => ?_
  split <;> exact only_pure

/-- All of them, by induction on the list, with the clock asked before each. -/
theorem quiet_revalidateItems {items : List FileEvidence} :
    Quiet (revalidateItems budget items) := by
  induction items with
  | nil => exact only_pure
  | cons item items ih =>
    exact quiet_ensureRemaining.bind fun _ => quiet_revalidate.bind fun _ =>
      quiet_lift.bind fun _ => ih

/-- `revalidate_file_evidence` checks every piece of evidence, and the clock before and after them.
-/
theorem quiet_revalidateFileEvidence : Quiet (revalidateFileEvidence evidence budget) :=
  quiet_ensureRemaining.bind fun _ => quiet_revalidateItems.bind fun _ => quiet_ensureRemaining

/-- The identity behind a path is read again and compared with the one from before. -/
theorem quiet_revalidateIdentity {expected : Identity} :
    Quiet (revalidateIdentity path expected) := by
  refine (only_perform trivial).bind fun opened => ?_
  split <;> exact only_pure

/-! ### Preflight

The parts of a preflight, in the order in which it runs them.  Each reads files below the
copy root; only the listing of a configuration starts a command. -/

/-- A part whose failures say nothing about the number of scanned entries makes the same calls. -/
theorem Only.uncounted {part : Inspect α} {scanned : ℕ} (h : Quiet part) :
    Quiet (uncounted scanned part) := h.mapError

/-- A directory below the copy root is opened for its identity. -/
theorem quiet_openIdentity : Quiet (openIdentity relative) := by
  refine (only_perform trivial).bind fun opened => ?_
  split
  · exact only_pure
  · exact only_throw

/-- `.git` is a directory, or a file whose reference is followed; both are read only. -/
theorem quiet_locateGitDir : Quiet (locateGitDir copyRoot relative limits evidence) := by
  refine (only_perform trivial).bind fun _ => quiet_requireAnswer.bind fun identity => ?_
  simp only
  split
  · exact only_pure
  · exact quiet_readRootFile.bind fun _ => quiet_requireRead.bind fun _ =>
      quiet_lift.bind fun _ => quiet_resolveReference.bind fun _ => only_pure
  · exact only_throw

/-- `commondir` is read where there is one, and what it names is resolved. -/
theorem quiet_locateCommonDir : Quiet (locateCommonDir copyRoot relative limits evidence) := by
  refine quiet_readRootFile.bind fun found => ?_
  cases found with
  | none => exact only_pure
  | some read =>
    exact quiet_lift.bind fun _ => quiet_resolveReference.bind fun _ => only_pure

/-- `locate_repository`: the repository and its common directory, by reading. -/
theorem quiet_locateRepository {global : GlobalContext} :
    Quiet (locateRepository copyRoot relative global limits) :=
  quiet_openIdentity.bind fun _ => quiet_locateGitDir.bind fun _ => quiet_openIdentity.bind fun _ =>
    quiet_locateCommonDir.bind fun _ => quiet_openIdentity.bind fun _ => only_pure

/-- One entry of the metadata of a repository: its `stat`, and its handle where it is a directory.
-/
theorem quiet_scanMetadataName {directory : PendingDirectory} {name : List UInt8} :
    Quiet (scanMetadataName budget relative directory name) := by
  refine (only_perform trivial).bind fun _ => quiet_requireAnswer.bind fun identity =>
    quiet_lift.bind fun _ => ?_
  split
  · exact quiet_lift.bind fun _ => (only_perform trivial).bind fun _ =>
      quiet_lift.bind fun _ => only_pure
  · exact quiet_lift.bind fun _ => only_pure

/-- The entries of one directory of the metadata, by induction on those that are left. -/
theorem quiet_scanMetadataEntries {directory : PendingDirectory}
    {entries : List (Option (List UInt8))} {pending : List PendingDirectory} {scanned : ℕ} :
    Quiet (scanMetadataEntries budget relative directory entries pending scanned) := by
  induction entries generalizing pending scanned with
  | nil => exact only_pure
  | cons entry entries ih =>
    refine (Only.uncounted quiet_ensureRemaining).bind fun _ =>
      (Only.uncounted quiet_requireAnswer).bind fun name => ?_
    split
    · exact ih
    · exact (Only.uncounted quiet_lift).bind fun _ =>
        (Only.uncounted quiet_scanMetadataName).bind fun _ => ih

/-- The directories of the metadata, by induction on the fuel of the walk. -/
theorem quiet_walkMetadata {fuel : ℕ} {pending : List PendingDirectory} {scanned : ℕ} :
    Quiet (walkMetadata budget relative fuel pending scanned) := by
  induction fuel generalizing pending scanned with
  | zero => exact only_pure
  | succ fuel ih =>
    rw [walkMetadata]
    split
    · exact only_pure
    · exact (Only.uncounted quiet_ensureRemaining).bind fun _ =>
        (Only.uncounted (only_perform (by trivial))).bind fun _ =>
        (Only.uncounted quiet_requireAnswer).bind fun _ =>
        quiet_scanMetadataEntries.bind fun _ => ih

/-- `scan_metadata_nofollow` looks for links and special files below a repository, by `stat` alone.
-/
theorem quiet_scanMetadataNofollow {scanned : ℕ} :
    Quiet (scanMetadataNofollow budget relative scanned) := by
  refine (Only.uncounted quiet_lift).bind fun _ =>
    (Only.uncounted (only_perform (by trivial))).bind fun opened => ?_
  split
  · exact only_throw
  · exact quiet_walkMetadata

/-- The metadata of a repository and, where it is another directory, of its common directory. -/
theorem quiet_scanRepository {located : Located} {scanned : ℕ} :
    Quiet (scanRepository budget located scanned) := by
  refine quiet_scanMetadataNofollow.bind fun _ => ?_
  split
  · exact only_pure
  · exact quiet_scanMetadataNofollow

/-- A name of the metadata is looked at without following it. -/
theorem quiet_statMetadata : Quiet (statMetadata relative) :=
  (only_perform trivial).bind fun _ => quiet_requireAnswer

/-- A link there is an issue. -/
theorem quiet_rejectLink : Quiet (rejectLink relative) :=
  quiet_statMetadata.bind fun _ => quiet_lift

/-- Anything there is an issue: alternates and sparse checkouts are not looked into. -/
theorem quiet_rejectExisting {issue : GitInspectionIssue} :
    Quiet (rejectExisting issue relative) := quiet_statMetadata.bind fun _ => quiet_lift

/-- Six looks at names that Git would follow, or that would change what a status means. -/
theorem quiet_rejectMetadataLinks {commonDir : RelativePath} :
    Quiet (rejectMetadataLinks relative commonDir) :=
  quiet_rejectLink.bind fun _ => quiet_rejectLink.bind fun _ => quiet_rejectLink.bind fun _ =>
    quiet_rejectExisting.bind fun _ => quiet_rejectExisting.bind fun _ => quiet_rejectExisting

/-- The symbolic references behind `HEAD` are read one after the other until one holds an object
name, by induction on the rounds that are left. -/
theorem quiet_followReferences {commonDir : RelativePath} {rounds : ℕ} :
    Quiet (followReferences copyRoot commonDir limits rounds required relative evidence) := by
  induction rounds generalizing required relative evidence with
  | zero => exact only_pure
  | succ rounds ih =>
    refine quiet_readRootFile.bind fun found => ?_
    cases found with
    | none => exact only_pure
    | some read =>
      refine quiet_lift.bind fun value => ?_
      simp only
      split
      · exact quiet_lift.bind fun _ => quiet_lift.bind fun _ => ih
      · exact quiet_lift.bind fun _ => only_pure

/-- A file is read for its evidence alone. -/
theorem quiet_noteFile : Quiet (noteFile copyRoot limits relative evidence) :=
  quiet_readRootFile.bind fun _ => only_pure

/-- The metadata is looked at for links, the index for its identity, and the references for their
evidence. -/
theorem quiet_examineMetadata {located : Located} :
    Quiet (examineMetadata copyRoot located limits) := by
  refine quiet_rejectMetadataLinks.bind fun _ => quiet_statMetadata.bind fun _ => ?_
  exact (quiet_followReferences.bind fun _ => quiet_noteFile.bind fun _ => quiet_noteFile).bind
    fun _ => only_pure

/-- A configuration of the repository is read and listed; listing it runs `git config --file`. -/
theorem quiet_readConfig : Quiet (readConfig copyRoot relative budget) := by
  refine quiet_readRootFile.bind fun found => ?_
  cases found with
  | none => exact only_pure
  | some read => exact quiet_parseConfigFile.bind fun _ => only_pure

/-- The configurations of the common directory and of the work tree are put behind those of the
user. -/
theorem quiet_assembleConfig {commonDir : RelativePath} {global : List ConfigEntry} :
    Quiet (assembleConfig copyRoot relative commonDir global budget evidence) := by
  refine quiet_readConfig.bind fun common => ?_
  cases common with
  | none => exact only_pure
  | some common =>
    refine quiet_lift.bind fun layered => ?_
    split
    · refine quiet_readConfig.bind fun worktree => ?_
      cases worktree <;> exact only_pure
    · exact only_pure

/-- The attribute file that `core.attributesFile` names, if any, is read and checked. -/
theorem quiet_validateEffectiveUserAttributes {entries : List ConfigEntry} :
    Quiet (validateEffectiveUserAttributes entries environment budget evidence) := by
  refine quiet_ensureRemaining.bind fun _ => quiet_lift.bind fun source => ?_
  cases source with
  | none => exact only_pure
  | some source =>
    refine quiet_readAbsoluteFile.bind fun found => ?_
    cases found with
    | none => exact only_pure
    | some read => exact quiet_lift.bind fun _ => only_pure

/-- `configure_repository`: the configurations and the attribute file that follows from them. -/
theorem quiet_configureRepository {commonDir : RelativePath} {global : List ConfigEntry} :
    Quiet (configureRepository copyRoot relative commonDir global environment budget
      evidence) :=
  quiet_assembleConfig.bind fun _ => quiet_lift.bind fun _ => quiet_lift.bind fun _ =>
    quiet_validateEffectiveUserAttributes.bind fun _ => only_pure

/-- What `core.worktree` names is opened and compared with the candidate. -/
theorem quiet_checkWorktrees {expected : Identity} {entries : List ConfigEntry}
    {corresponds : Bool} :
    Quiet (checkWorktrees copyRoot relative expected entries corresponds) := by
  induction entries generalizing corresponds with
  | nil => exact only_pure
  | cons entry entries ih =>
    rw [checkWorktrees]
    split
    · refine quiet_resolveReference.bind fun _ => (only_perform trivial).bind fun opened => ?_
      split
      · exact only_throw
      · exact quiet_lift.bind fun _ => ih
    · exact ih

/-- The file that leads back from the metadata to the work tree is read and resolved. -/
theorem quiet_checkBackReference {marker : RelativePath} {corresponds : Bool}
    {expected : Option Identity} :
    Quiet (checkBackReference copyRoot relative marker limits corresponds evidence expected) := by
  cases expected with
  | none => exact only_pure
  | some expected =>
    refine quiet_readRootFile.bind fun found => ?_
    cases found with
    | none => exact only_pure
    | some read =>
      exact quiet_lift.bind fun _ => quiet_resolveReference.bind fun _ => quiet_lift.bind fun _ =>
        quiet_readRootFile.bind fun _ => quiet_requireRead.bind fun _ => quiet_lift.bind fun _ =>
        only_pure

/-- `.gitmodules` is read and listed like a configuration. -/
theorem quiet_checkGitmodules : Quiet (checkGitmodules copyRoot relative budget evidence) := by
  refine quiet_readConfig.bind fun gitmodules => ?_
  cases gitmodules with
  | none => exact only_pure
  | some gitmodules => exact quiet_lift.bind fun _ => quiet_lift.bind fun _ => only_pure

/-- The `.gitattributes` files that discovery has found are read, by induction on the list. -/
theorem quiet_checkAttributeFiles {files : List RelativePath} :
    Quiet (checkAttributeFiles copyRoot discovery relative budget files evidence) := by
  induction files generalizing evidence with
  | nil => exact only_pure
  | cons file files ih =>
    refine quiet_ensureRemaining.bind fun _ => ?_
    split
    · exact quiet_readRootFile.bind fun _ => quiet_requireRead.bind fun _ =>
        quiet_lift.bind fun _ => ih
    · exact ih

/-- The attribute files of the metadata are read, by induction on the list. -/
theorem quiet_checkInfoAttributes {files : List RelativePath} :
    Quiet (checkInfoAttributes copyRoot budget files evidence) := by
  induction files generalizing evidence with
  | nil => exact only_pure
  | cons file files ih =>
    refine quiet_ensureRemaining.bind fun _ => quiet_readRootFile.bind fun found => ?_
    cases found with
    | none => exact ih
    | some read => exact quiet_lift.bind fun _ => ih

/-- Everything that `preflight_repository` reads of a repository that is located and configured. -/
theorem quiet_checkContents {located : Located} {entries : List ConfigEntry} :
    Quiet (checkContents copyRoot discovery relative located entries budget evidence) :=
  quiet_checkWorktrees.bind fun _ => quiet_checkBackReference.bind fun _ =>
    quiet_lift.bind fun _ => quiet_checkGitmodules.bind fun _ =>
    quiet_checkAttributeFiles.bind fun _ => quiet_checkInfoAttributes.bind fun _ =>
    quiet_revalidateFileEvidence.bind fun _ => only_pure

/-- `preflight_repository`: only behind it, and behind that of every other candidate, does a status
query begin. -/
theorem quiet_preflightRepository {global : GlobalContext} {scanned : ℕ} :
    Quiet (preflightRepository copyRoot discovery relative global environment budget scanned) :=
  (Only.uncounted quiet_locateRepository).bind fun _ => quiet_scanRepository.bind fun _ =>
    (Only.uncounted quiet_examineMetadata).bind fun _ =>
    (Only.uncounted quiet_configureRepository).bind fun _ =>
    (Only.uncounted quiet_checkContents).bind fun _ => only_pure

/-! ### Index flags and the loops before the status queries

The loops before the status queries, with the command that lists the index. -/

/-- The candidate must still be the directory that discovery has seen. -/
theorem quiet_requireIdentity {expected : Identity} : Quiet (requireIdentity path expected) :=
  quiet_revalidateIdentity.bind fun _ => quiet_lift

/-- One prepared repository is checked again: its directory and all its evidence. -/
theorem quiet_revalidateRepository {repository : PreparedRepository} :
    Quiet (revalidateRepository copyRoot repository budget) :=
  quiet_ensureRemaining.bind fun _ => quiet_requireIdentity.bind fun _ =>
    quiet_requireIdentity.bind fun _ => quiet_requireIdentity.bind fun _ =>
    (only_perform trivial).bind fun _ => quiet_lift.bind fun _ => quiet_revalidateFileEvidence

/-- All of them, by induction on the list. -/
theorem quiet_revalidateRepositories {repositories : List PreparedRepository} :
    Quiet (revalidateRepositories copyRoot budget repositories) := by
  induction repositories with
  | nil => exact only_pure
  | cons repository repositories ih => exact quiet_revalidateRepository.bind fun _ => ih

/-- `inspect_index_flags` runs `git ls-files -v`, whose query is another one than the status query.
-/
theorem quiet_inspectIndexFlags {repository : PreparedRepository} :
    Quiet (inspectIndexFlags copyRoot repository environment budget) := by
  refine quiet_revalidateRepository.bind fun _ => quiet_remainingTimeout.bind fun _ =>
    Only.bind ?_ fun _ => quiet_lift.bind fun _ => quiet_revalidateRepository
  exact quiet_validateInputs.bind fun _ =>
    (only_perform (silent_query (by simp) (by simp))).bind fun _ => quiet_lift

/-- The loop over the candidates, by induction on those that are left. -/
theorem quiet_preflightAll {global : GlobalContext} {candidates : List RelativePath}
    {state : Preflighted} :
    Quiet (preflightAll copyRoot discovery global environment budget candidates state) := by
  induction candidates generalizing state with
  | nil => exact only_pure
  | cons relative rest ih =>
    refine quiet_expired.bind fun expired => ?_
    split
    · exact ih
    · refine Only.bind quiet_preflightRepository.attempt fun result => ?_
      split <;> exact ih

/-- The loop that asks the index flags of every prepared repository, by induction on the list. -/
theorem quiet_indexAll {prepared indexed : List PreparedRepository}
    {repositories : List Inspected} :
    Quiet (indexAll copyRoot environment budget prepared indexed repositories) := by
  induction prepared generalizing indexed repositories with
  | nil => exact only_pure
  | cons repository rest ih =>
    refine Only.bind quiet_inspectIndexFlags.attempt fun result => ?_
    cases result <;> exact ih

/-- The copy root is opened again and compared with the root that was discovered. -/
theorem quiet_revalidateRoot : Quiet (revalidateRoot copyRoot discovery budget) := by
  refine Only.bind quiet_ensureRemaining.attempt fun result => ?_
  cases result with
  | error issue => exact only_pure
  | ok _ => exact quiet_revalidateIdentity.bind fun _ => only_pure

end Git
end ThinWorkspace
