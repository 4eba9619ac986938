/-
# The global sources

Source: `preflight_sources` and what it calls in
`crates/thinws-adapter-git-cli/src/git_query/inspect.rs`, and the revalidation of
evidence.  The parent directory of `git-core`, which depends on the platform, is a
parameter.

What is validated here holds for every repository of the copy: the files that the
environment selects, each with the evidence by which a later change is noticed.
-/

import ThinWorkspace.Git.Attributes
import ThinWorkspace.Git.Calls

namespace ThinWorkspace
namespace Git

open ThinWorkspace.Core Ports Lib Lib.Fallible

/-- `GlobalContext`: the entries of the files that hold for every repository, with the evidence of
what was read. -/
structure GlobalContext where
  entries : List ConfigEntry
  evidence : List FileEvidence

/-- `/dev/null`, which as a source of configuration stands for an empty one. -/
def nullDevice : List UInt8 := ascii "/dev/null"

/-- Two texts name the same `Path`: they have the same components, however they are spelled. -/
def samePath (path other : List UInt8) : Bool := components path == components other

/-- A directory that `HOME` or `XDG_CONFIG_HOME` names.  A path that is not absolute and a
directory that cannot be opened are refused; one that is not there is accepted, since Git finds
nothing in it either. -/
def validateEnvironmentDirectory : Option (List UInt8) → Inspect Unit
  | none => pure ()
  | some path => do
    lift (refuseIf (isAbsolute path = false) .environmentUnsupported)
    let opened ← ask (.openAbsoluteDirectory path)
    match opened with
    | .ok _ => pure ()
    | .error .noent => pure ()
    | .error .other => throw .environmentUnsupported

/-- `validate_selected_source`; a `/dev/null` is validated as `validate_null_device` does.  A path
that is set but relative would be read by Git in another directory, so it is refused. -/
def validateSelectedSource (path : List UInt8) : Inspect (List UInt8) := do
  lift (refuseIf (isAbsolute path = false) .environmentUnsupported)
  if samePath path nullDevice then do
    let device ← ask .statNullDevice
    lift (refuseIf (device ≠ some true) .environmentUnsupported)
    pure path
  else pure path

/-- `validate_selected_source` of a variable that is set; one that is not selects nothing. -/
def validateSelectedSources : Option (List UInt8) → Inspect (Option (List UInt8))
  | none => pure none
  | some path => do
    let path ← validateSelectedSource path
    pure (some path)

/-- The text of the components of an absolute path, with single separators, as `PathBuf` writes it
after its last components were popped. -/
def absoluteText (names : List Component) : List UInt8 :=
  slash :: pathBytes (names.filterMap fun
    | .normal name => some name
    | .parentDir => some dotDot
    | _ => none)

/-- The pure part of `parse_runtime_prefix`: the path of the helpers and the prefix.  The path must
be one line, be absolute and end in the expected parent directory and `git-core`; the prefix is
what stands before these two. -/
def parseExecPath (expectedParent stdout : List UInt8) :
    Except GitInspectionIssue (List UInt8 × List UInt8) :=
  let execPath := (stdout.dropSuffix? [10]).getD stdout
  let names := (components execPath).drop 1
  if execPath = [] ∨ 10 ∈ execPath ∨ 0 ∈ execPath then .error .invalidExecPath
  else if isAbsolute execPath = false ∨ names.getLast? ≠ some (.normal (ascii "git-core")) ∨
      names.dropLast.getLast? ≠ some (.normal expectedParent) then .error .invalidExecPath
  else .ok (execPath, absoluteText names.dropLast.dropLast)

/-- `parse_runtime_prefix`.  The directory of the helpers must also be one that can be opened. -/
def parseRuntimePrefix (expectedParent stdout : List UInt8) : Inspect (List UInt8) := do
  let (execPath, runtimePrefix) ← lift (parseExecPath expectedParent stdout)
  let opened ← ask (.openAbsoluteDirectory execPath)
  match opened with
  | .ok _ => pure runtimePrefix
  | .error _ => throw .invalidExecPath

/-- `validate_system_directory_metadata`: a directory of root that neither its group nor others may
write. -/
def validateSystemDirectoryMetadata (mode uid : ℕ) : Except GitInspectionIssue Unit := do
  refuseIf (FileType.fromRawMode mode ≠ .directory) .environmentUnsupported
  refuseIf (uid ≠ 0) .environmentUnsupported
  refuseIf (mode / 2 % 2 = 1 ∨ mode / 16 % 2 = 1) .environmentUnsupported

/-- An answer that must be there: a missing one is the issue given. -/
def requireAnswer {α : Type} (issue : GitInspectionIssue) : Option α → Inspect α
  | some answer => pure answer
  | none => throw issue

/-- `resolve_system_path` of a name in `/etc`.  On macOS `/etc` is a link of root; its target is
opened and checked before the name is looked for there. -/
def resolveSystemPath (name : List UInt8) : Inspect (List UInt8) := do
  let metadata ← ask .etcMetadata
  let (isLink, uid) ← requireAnswer .environmentUnsupported metadata
  if isLink = false then pure (ascii "/etc/" ++ name)
  else do
    lift (refuseIf (uid ≠ 0) .environmentUnsupported)
    let answer ← ask .etcTarget
    let target ← requireAnswer .environmentUnsupported answer
    let target := if isAbsolute target then target else pathJoin [slash] target
    let opened ← ask (.openAbsoluteDirectory target)
    match opened with
    | .error _ => throw .environmentUnsupported
    | .ok _ => do
      let answer ← ask (.directoryMetadata target)
      let (mode, uid) ← requireAnswer .environmentUnsupported answer
      lift (validateSystemDirectoryMetadata mode uid)
      pure (pathJoin target name)

/-- The system configurations in the order Git reads them in: that of the installation, then the
selected one or that in `/etc`.  There are none where `GIT_CONFIG_NOSYSTEM` is true. -/
def systemSources (environment : SourceEnvironment) (runtimePrefix : List UInt8)
    (selectedSystem : Option (List UInt8)) : Inspect (List (List UInt8)) := do
  let disabled ← lift (environmentDisables environment.gitConfigNosystem)
  if disabled then pure []
  else
    match selectedSystem with
    | some path => pure [pathJoin runtimePrefix (ascii "share/git-core/gitconfig"), path]
    | none => do
      let path ← resolveSystemPath (ascii "gitconfig")
      pure [pathJoin runtimePrefix (ascii "share/git-core/gitconfig"), path]

/-- The configurations of the user in the order Git reads them in.  A selected one replaces both;
`.config/git/config` below `HOME` stands in for an unset `XDG_CONFIG_HOME`. -/
def userSources (environment : SourceEnvironment) (selectedGlobal : Option (List UInt8)) :
    List (List UInt8) :=
  match selectedGlobal with
  | some path => [path]
  | none =>
    (match environment.xdgConfigHome, environment.home with
      | some xdg, _ => [pathJoin xdg (ascii "git/config")]
      | none, some home => [pathJoin home (ascii ".config/git/config")]
      | none, none => []) ++
    (environment.home.map fun home => pathJoin home (ascii ".gitconfig")).toList

/-- The part of `preflight_sources` that finds the sources: the prefix of the Git installation and
the configurations.  An environment with a variable that is not supported is refused before
anything is looked at. -/
def selectSources (expectedParent copyRoot : List UInt8) (environment : SourceEnvironment)
    (budget : CooperativeBudget) : Inspect (List UInt8 × List (List UInt8)) := do
  lift (refuseIf environment.unsupported .environmentUnsupported)
  validateEnvironmentDirectory environment.home
  validateEnvironmentDirectory environment.xdgConfigHome
  let selectedSystem ← validateSelectedSources environment.gitConfigSystem
  let selectedGlobal ← validateSelectedSources environment.gitConfigGlobal
  let timeout ← budget.remainingTimeout
  let output ← runBootstrap copyRoot .execPath timeout
  let runtimePrefix ← parseRuntimePrefix expectedParent output.stdout
  let system ← systemSources environment runtimePrefix selectedSystem
  pure (runtimePrefix, system ++ userSources environment selectedGlobal)

/-- The loop of `preflight_sources` over the configurations.  A source that is `/dev/null` or is
not there adds nothing; every other adds its entries behind those before it. -/
def readSources (copyRoot : List UInt8) (budget : CooperativeBudget) :
    List (List UInt8) → GlobalContext → Inspect GlobalContext
  | [], global => pure global
  | source :: sources, global => do
    budget.ensureRemaining
    if samePath source nullDevice then readSources copyRoot budget sources global
    else
      match ← readAbsoluteFile source budget.limits.maxTextBytes false with
      | none => readSources copyRoot budget sources global
      | some read => do
        let parsed ← parseConfigFile copyRoot source budget
        readSources copyRoot budget sources
          ⟨global.entries ++ parsed, global.evidence ++ [read.evidence]⟩

/-- Attributes files that need not be there.  Each that is there must be one that the adapter
understands, and is kept as evidence. -/
def readAttributes (budget : CooperativeBudget) :
    List (List UInt8) → List FileEvidence → Inspect (List FileEvidence)
  | [], evidence => pure evidence
  | source :: sources, evidence => do
    budget.ensureRemaining
    match ← readAbsoluteFile source budget.limits.maxTextBytes false with
    | none => readAttributes budget sources evidence
    | some read => do
      lift (validateAttributes read.contents)
      readAttributes budget sources (evidence ++ [read.evidence])

/-- The system attributes, below the prefix and in `/etc`, unless `GIT_ATTR_NOSYSTEM` is true. -/
def systemAttributes (environment : SourceEnvironment) (runtimePrefix : List UInt8)
    (budget : CooperativeBudget) (evidence : List FileEvidence) :
    Inspect (List FileEvidence) := do
  let disabled ← lift (environmentDisables environment.gitAttrNosystem)
  if disabled then pure evidence
  else do
    let path ← resolveSystemPath (ascii "gitattributes")
    readAttributes budget
      [pathJoin runtimePrefix (ascii "share/git-core/gitattributes"), path] evidence

/-- `preflight_sources`: what holds for every repository of the copy.  The entries of all sources
together must be ones that no status query can be led astray by. -/
def preflightSources (expectedParent copyRoot : List UInt8) (environment : SourceEnvironment)
    (budget : CooperativeBudget) : Inspect GlobalContext := do
  let (runtimePrefix, sources) ← selectSources expectedParent copyRoot environment budget
  let global ← readSources copyRoot budget sources ⟨[], []⟩
  let evidence ← systemAttributes environment runtimePrefix budget global.evidence
  budget.ensureRemaining
  lift (validateConfigEntries global.entries)
  pure ⟨global.entries, evidence⟩

/-! ### Evidence

Every file that was read is kept as evidence, and is read again before an answer is trusted:
the same file, with the same size and times, is taken for unchanged. -/

/-- `FileEvidence::revalidate`: the file is read again and must be the same one, by its identity,
size and times.  A failure to read it counts as a change. -/
def FileEvidence.revalidate (item : FileEvidence) : Inspect Bool := do
  let read ← (readAbsoluteFile item.path textBytesLimit true).attempt
  match read with
  | .ok (some read) => pure (decide (read.evidence.identity = item.identity))
  | _ => pure false

/-- The loop of `revalidate_file_evidence`: the first piece that has changed ends the check. -/
def revalidateItems (budget : CooperativeBudget) : List FileEvidence → Inspect Unit
  | [] => pure ()
  | item :: items => do
    budget.ensureRemaining
    let unchanged ← item.revalidate
    lift (refuseIf (unchanged = false) .evidenceChanged)
    revalidateItems budget items

/-- `revalidate_file_evidence`.  The deadline is checked before and after all the files as well as
before each. -/
def revalidateFileEvidence (evidence : List FileEvidence) (budget : CooperativeBudget) :
    Inspect Unit := do
  budget.ensureRemaining
  revalidateItems budget evidence
  budget.ensureRemaining

/-- `revalidate_identity` of a directory outside the copy.  A directory that cannot be opened any
more is one that has changed. -/
def revalidateIdentity (path : List UInt8) (expected : Identity) : Inspect Bool := do
  let opened ← ask (.openAbsoluteDirectory path)
  match opened with
  | .ok (some identity) => pure (decide (identity = expected))
  | _ => pure false

end Git
end ThinWorkspace
