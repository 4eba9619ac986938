/-
# What the inspection asks of its surroundings

Source: `CooperativeBudget`, `Identity`, the evidence types and the helpers that touch
the filesystem or the Git runner in
`crates/thinws-adapter-git-cli/src/git_query/inspect.rs`, and `run_bootstrap`,
`run_prevalidated_repository` and `validate_inputs` in `git_query.rs`.

The inspection is a `Program` over `InspectCall`: the clock, the filesystem and the Git
runner.  Every call may have any result.  A path below the copy root is the list of its
names; a held directory is the path it was opened at.
-/

import ThinWorkspace.Git.Command
import ThinWorkspace.Git.Reference
import ThinWorkspace.Lib.Trace

namespace ThinWorkspace
namespace Git

open ThinWorkspace.Core Ports Lib Lib.Fallible

/-- The names of a path below the copy root; the empty list is the root itself. -/
abbrev RelativePath := List (List UInt8)

/-! ### Files

What a `stat` and a read bring, with the fields that a later revalidation compares. -/

/-- `FileType`: the kinds that the inspection tells apart; everything else is `other`. -/
inductive FileType where
  | directory | regularFile | symlink | other
deriving DecidableEq

/-- `FileType::from_raw_mode`: the four bits of the mode that hold the kind. -/
def FileType.fromRawMode (mode : ℕ) : FileType :=
  if mode / 4096 % 16 = 4 then .directory
  else if mode / 4096 % 16 = 8 then .regularFile
  else if mode / 4096 % 16 = 10 then .symlink
  else .other

/-- `Identity`: what an unchanged file keeps.  Besides device and inode it has the size and the
time of the last change, so that a file rewritten in place is noticed. -/
structure Identity where
  device : ℕ
  inode : UInt64
  mode : ℕ
  size : Int64
  modifiedSeconds : Int64
  modifiedNanoseconds : ℤ
deriving DecidableEq

/-- `Identity::file_type`: the kind is part of the mode, and so of the identity. -/
def Identity.fileType (identity : Identity) : FileType := .fromRawMode identity.mode

/-- `FileEvidence`: a path with the identity that it had when it was read, to be compared again
later. -/
structure FileEvidence where
  path : List UInt8
  identity : Identity
deriving DecidableEq

/-- `ReadEvidence`: the bytes of a file together with the evidence of what was read. -/
structure ReadEvidence where
  evidence : FileEvidence
  contents : List UInt8

/-- `Errno`, as far as the code tells errors apart: a missing file is not an error where the file
is optional. -/
inductive Errno where
  | noent | other
deriving DecidableEq

/-- `GitExit`: how a process of Git ended; it has a code or was killed by a signal. -/
structure GitExit where
  code : Option Int32
  signal : Option Int32
deriving DecidableEq

/-- `GitExit::success`: only the code zero counts, so a process that was killed has failed. -/
def GitExit.success (exit : GitExit) : Bool := exit.code == some 0

/-- `GitQueryOutput`: how the process ended and what it printed.  Nothing reads the standard error.
-/
structure GitQueryOutput where
  exit : GitExit
  stdout : List UInt8

/-! ### Calls

A read of the file system is one call here, from its opening to its last byte, since the
code looks at the result as a whole.  What two calls answer need not fit together: others
may change the copy at any time. -/

/-- One call with its arguments.  Reads of the file system are whole steps here: opening,
identifying and reading a file is one call. -/
inductive InspectCall where
  /-- `Instant::now`, in nanoseconds. -/
  | now
  /-- `open_absolute_directory`, then `identity_of`. -/
  | openAbsoluteDirectory (path : List UInt8)
  /-- `open_relative_directory` below the held root, then `identity_of`. -/
  | openRelativeDirectory (relative : RelativePath)
  /-- `dup` of the held root. -/
  | duplicateRoot
  /-- `Dir::read_from` and its entries. -/
  | readDirectory (directory : RelativePath)
  /-- `statat` with `SYMLINK_NOFOLLOW`. -/
  | statAt (directory : RelativePath) (name : List UInt8)
  /-- `openat` with `directory_open_flags`. -/
  | openAt (directory : RelativePath) (name : List UInt8)
  /-- `stat_relative`. -/
  | statRelative (relative : RelativePath)
  /-- `stat_absolute_nofollow`. -/
  | statAbsoluteNofollow (path : List UInt8)
  /-- The parent opened below the held root, the file opened in it and read. -/
  | openRootFile (relative : RelativePath) (limit : ℕ)
  /-- The parent opened, the file opened in it and read. -/
  | openAbsoluteFile (path : List UInt8) (limit : ℕ)
  /-- The directory tree that a reference is resolved in. -/
  | tree
  /-- `statat` of `/dev/null`: is it a character device. -/
  | statNullDevice
  /-- `symlink_metadata` of `/etc`: is it a link, and its owner. -/
  | etcMetadata
  /-- `read_link` of `/etc`. -/
  | etcTarget
  /-- `fstat` of a directory that was opened: its mode and its owner. -/
  | directoryMetadata (path : List UInt8)
  /-- `collect_command`. -/
  | collectCommand (command : GitCommand) (runTimeout : ℕ)

/-- What each call may answer; `none` and `error` are its failures.  The answers of two calls need
not fit together. -/
abbrev InspectCall.Result : InspectCall → Type
  | .now => ℕ
  | .openAbsoluteDirectory _ | .openRelativeDirectory _ => Except Errno (Option Identity)
  | .duplicateRoot => Bool
  | .readDirectory _ => Option (List (Option (List UInt8)))
  | .statAt _ _ => Option Identity
  | .openAt _ _ => Bool
  | .statRelative _ | .statAbsoluteNofollow _ => Option (Option Identity)
  | .openRootFile _ _ | .openAbsoluteFile _ _ => Except Errno (Identity × List UInt8)
  | .tree => FileTree
  | .statNullDevice => Option Bool
  | .etcMetadata => Option (Bool × ℕ)
  | .etcTarget => Option (List UInt8)
  | .directoryMetadata _ => Option (ℕ × ℕ)
  | .collectCommand _ _ => Option GitQueryOutput

/-- A part of the inspection: it makes its calls one after the other and returns a value, or stops
at the first issue. -/
abbrev Inspect (α : Type) : Type := Program InspectCall InspectCall.Result GitInspectionIssue α

/-- A call and its answer, as they stand in the trace of a run. -/
abbrev InspectExchange : Type := Exchange InspectCall InspectCall.Result

/-- Makes a call and hands on its answer, failures included. -/
abbrev ask (call : InspectCall) : Inspect call.Result := Program.perform call

/-- A fallible value as a part of the inspection: it takes no call, and its error is the issue the
inspection stops with. -/
abbrev lift {α : Type} (value : Except GitInspectionIssue α) : Inspect α :=
  Program.ofExcept id value

/-- A pure step in front of a part succeeds where the sequence returns: its value is known, and the
trace is that of the part behind it. -/
theorem traces_lift_bind {α β : Type} {value : Except GitInspectionIssue α} {f : α → Inspect β}
    {t : List InspectExchange} {b : β} :
    Program.Traces (lift value >>= f) t (.ok b) ↔
      ∃ a, value = .ok a ∧ Program.Traces (f a) t (.ok b) := by
  cases value with
  | ok a => exact ⟨fun h => ⟨a, rfl, h⟩, fun ⟨_, he, h⟩ => Except.ok.inj he ▸ h⟩
  | error e =>
    refine ⟨fun h => ?_, fun ⟨_, he, _⟩ => nomatch he⟩
    cases h.2

/-- A pure step makes no call, so its trace is empty and its result is the value itself. -/
theorem traces_lift {α : Type} {value : Except GitInspectionIssue α} {t : List InspectExchange}
    {a : α} : Program.Traces (lift value) t (.ok a) ↔ t = [] ∧ value = .ok a := by
  cases value with
  | ok b => simp [lift, Except.mapError, eq_comm]
  | error e => simp [lift, Except.mapError]

/-! ### The budget

An inspection has a deadline, and asks the clock before every command and at every step of
its walks.  What is left bounds the time of a single command. -/

/-- `InspectionLimits`, the times in nanoseconds: what one inspection may spend before it is cut
short. -/
structure InspectionLimits where
  totalTimeout : ℕ
  maxScanEntries : ℕ
  maxRepositories : ℕ
  maxDepth : ℕ
  maxTextBytes : ℕ

/-- `QUERY_TIMEOUT`: no single command runs longer than five seconds, however much of the budget is
left. -/
def queryTimeoutLimit : ℕ := 5 * 1000000000

/-- `MAX_TEXT_BYTES`: the longest output of Git that is looked at. -/
def textBytesLimit : ℕ := 1024 * 1024

/-- `InspectionLimits::production`: one minute, and bounds on the entries, the repositories and the
depth of the discovery. -/
def InspectionLimits.production : InspectionLimits :=
  ⟨60 * 1000000000, 100000, 256, 128, textBytesLimit⟩

/-- `CooperativeBudget`: the moment at which the inspection has to stop, and its limits.  The
entries scanned so far are passed on beside it. -/
structure CooperativeBudget where
  deadline : ℕ
  limits : InspectionLimits

/-- `CooperativeBudget::expired`: the clock is asked anew at each check. -/
def CooperativeBudget.expired (budget : CooperativeBudget) : Inspect Bool := do
  let now ← ask .now
  pure (decide (budget.deadline ≤ now))

/-- `CooperativeBudget::ensure_remaining`: the issue of an inspection that has run out of time. -/
def CooperativeBudget.ensureRemaining (budget : CooperativeBudget) : Inspect Unit := do
  let expired ← budget.expired
  lift (refuseIf expired .budgetExpired)

/-- `CooperativeBudget::query_timeout`: what is left of the budget, but never more than the limit
of one query. -/
def CooperativeBudget.queryTimeout (budget : CooperativeBudget) : Inspect (Option ℕ) := do
  let now ← ask .now
  pure (if now < budget.deadline then some (min (budget.deadline - now) queryTimeoutLimit)
    else none)

/-- `budget.query_timeout().ok_or(InspectionIssue::BudgetExpired)`: no command is started without
time to run. -/
def CooperativeBudget.remainingTimeout (budget : CooperativeBudget) : Inspect ℕ := do
  let timeout ← budget.queryTimeout
  lift (timeout.elim (.error .budgetExpired) .ok)

/-! ### Files of the copy and of the system

The helpers that read a file below the copy root or outside of it, with the issue that
stands for each failure. -/

/-- The path of a file of the copy, as evidence names it: the copy root, a separator, and the
names. -/
def copyPath (copyRoot : List UInt8) (relative : RelativePath) : List UInt8 :=
  pathJoin copyRoot (pathBytes relative)

/-- The answer of a read: a missing file is none where it is not required, and any other failure is
the issue that the caller chose. -/
def readResult (path : List UInt8) (required : Bool) (failure : GitInspectionIssue) :
    Except Errno (Identity × List UInt8) → Except GitInspectionIssue (Option ReadEvidence)
  | .ok (identity, contents) => .ok (some ⟨⟨path, identity⟩, contents⟩)
  | .error .noent => if required then .error failure else .ok none
  | .error .other => .error failure

/-- `read_root_file`: a file below the held root, never longer than the limit; what fails counts as
unsafe metadata of the repository. -/
def readRootFile (copyRoot : List UInt8) (relative : RelativePath) (limit : ℕ) (required : Bool) :
    Inspect (Option ReadEvidence) := do
  let answer ← ask (.openRootFile relative limit)
  lift (readResult (copyPath copyRoot relative) required .unsafeRepositoryMetadata answer)

/-- `is_normal_absolute`, and a last name: an absolute path whose components are all names. -/
def isAbsoluteFile (path : List UInt8) : Bool :=
  match components path with
  | .rootDir :: rest =>
    !rest.isEmpty && rest.all fun
      | .normal _ => true
      | _ => false
  | _ => false

/-- `read_absolute_file`: a file of the system's configuration, whose failures are those of an
unsupported environment. -/
def readAbsoluteFile (path : List UInt8) (limit : ℕ) (required : Bool) :
    Inspect (Option ReadEvidence) := do
  lift (refuseIf (isAbsoluteFile path = false) .environmentUnsupported)
  let answer ← ask (.openAbsoluteFile path limit)
  lift (readResult path required .environmentUnsupported answer)

/-- A read whose file is required: nothing read is the issue given. -/
def requireRead (issue : GitInspectionIssue) : Option ReadEvidence → Inspect ReadEvidence
  | some read => pure read
  | none => throw issue

/-- `parse_single_reference`: the one line of a file that names a path, such as `.git`, with its
prefix taken off; more than one line or an empty value is refused. -/
def parseSingleReference (contents start : List UInt8) :
    Except GitInspectionIssue (List UInt8) :=
  let contents := (contents.dropSuffix? [10]).getD contents
  match contents.dropPrefix? start with
  | none => .error .unsafeRepositoryMetadata
  | some value =>
    if value = [] ∨ 0 ∈ value ∨ 10 ∈ value ∨ 13 ∈ value then .error .unsafeRepositoryMetadata
    else .ok value

/-- `resolve_internal_reference`, in the tree it finds: the walk of `ReferenceWalk`, with the tree
as the answer of one call. -/
def resolveReference (copyRoot : List UInt8) (base : RelativePath) (reference : List UInt8) :
    Inspect RelativePath := do
  let tree ← ask .tree
  lift (resolveInternalReference tree copyRoot (pathBytes base) reference)

/-! ### The Git runner

The runner starts a command and looks at its exit and its output.  Only an exit with the
code zero lets an output count (`mapQueryResult_ok`), which is what every later statement
about an answered query rests on. -/

/-- `validate_inputs`: the working directory is absolute, and for a configuration its path is so
too and `/dev/null` is the device. -/
def validateInputs (cwd : List UInt8) (query : GitQuery) : Inspect Unit := do
  lift (refuseIf (isAbsolute cwd = false) .queryFailed)
  match query with
  | .config file => do
    lift (refuseIf (isAbsolute file = false) .queryFailed)
    let device ← ask .statNullDevice
    lift (refuseIf (device ≠ some true) .queryFailed)
  | _ => pure ()

/-- `map_query_result`: what a process printed counts only if it ended with success; a process that
did not run is a failed query. -/
def mapQueryResult : Option GitQueryOutput → Except GitInspectionIssue GitQueryOutput
  | some output =>
    if output.exit.success then .ok output
    else .error (.queryNonZeroExit output.exit.code output.exit.signal)
  | none => .error .queryFailed

/-- An accepted answer is an output whose process exited with zero: the two failures are told apart
by the code of the process. -/
theorem mapQueryResult_ok {result : Option GitQueryOutput} {output : GitQueryOutput}
    (h : mapQueryResult result = .ok output) :
    result = some output ∧ output.exit.success = true := by
  cases result with
  | none => cases h
  | some found =>
    rw [mapQueryResult] at h
    split at h
    · cases h
      exact ⟨rfl, by assumption⟩
    · cases h

/-- `map_query_result` of `run_bootstrap`: a command in the isolated environment, which reads no
configuration but the one it is given. -/
def runBootstrap (cwd : List UInt8) (query : GitQuery) (runTimeout : ℕ) :
    Inspect GitQueryOutput := do
  validateInputs cwd query
  let result ← ask (.collectCommand (gitCommand cwd query .isolated none) runTimeout)
  lift (mapQueryResult result)

/-- `map_query_result` of `run_prevalidated_repository`: a command in the environment of the copy,
with the directory of the repository named explicitly. -/
def runPrevalidatedRepository (cwd gitDir : List UInt8) (query : GitQuery)
    (environment : SourceEnvironment) (runTimeout : ℕ) : Inspect GitQueryOutput := do
  validateInputs cwd query
  let command := gitCommand cwd query (.preserved environment) (some gitDir)
  let result ← ask (.collectCommand command runTimeout)
  lift (mapQueryResult result)

/-- `parse_config_file`: Git itself lists the entries of one file; an output over the limit is
refused before it is parsed. -/
def parseConfigFile (cwd path : List UInt8) (budget : CooperativeBudget) :
    Inspect (List ConfigEntry) := do
  let timeout ← budget.remainingTimeout
  let output ← runBootstrap cwd (.config path) timeout
  lift (refuseIf (budget.limits.maxTextBytes < output.stdout.length) .invalidGitOutput)
  lift (parseConfigOutput output.stdout)

end Git
end ThinWorkspace
