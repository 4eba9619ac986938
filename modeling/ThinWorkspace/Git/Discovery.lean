/-
# Repository discovery

Source: `discover` in `crates/thinws-adapter-git-cli/src/git_query/inspect.rs`.

`Scan` is what the loop of the source carries from one directory to the next.  Every
directory that is pushed was counted as an entry, so the entry limit bounds the loop
(`Scan.measure`), and `walk` has the fuel it needs: `walk_stable`.
-/

import ThinWorkspace.Git.Calls

namespace ThinWorkspace
namespace Git

open ThinWorkspace.Core Ports Lib Lib.Fallible Lib.Lexicographic Lib.Program

/-- The order of a `Path` of names: name by name, each by its bytes. -/
def namesLe : RelativePath → RelativePath → Bool := lex bytesLe

/-- The order of relative paths is a linear one. -/
theorem linearLe_namesLe : LinearLe namesLe := linearLe_bytesLe.lex

/-- The name `.git`: the directory that has such an entry, a directory or a regular file, is a
candidate. -/
def gitName : List UInt8 := ascii ".git"

/-- The name `.gitattributes`: regular files of this name are noted, to be read by the preflights.
-/
def gitattributesName : List UInt8 := ascii ".gitattributes"

/-- `push_unique`: each issue is listed once, in the order in which they occur. -/
def pushUnique (issues : List GitInspectionIssue) (issue : GitInspectionIssue) :
    List GitInspectionIssue :=
  if issue ∈ issues then issues else issues ++ [issue]

/-- `PendingDirectory`: a directory that has been seen but not read yet. -/
structure PendingDirectory where
  relative : RelativePath
  depth : ℕ
deriving DecidableEq

/-- `Discovery`: the candidates are sorted and without repetition, which is a field, so that no
later part has to prove it. -/
structure Discovery where
  rootIdentity : Identity
  candidates : List RelativePath
  candidates_pairwise : candidates.Pairwise fun a b => namesLe a b = true ∧ a ≠ b
  attributeFiles : List RelativePath
  completeness : DiscoveryCompleteness
  issues : List GitInspectionIssue

/-- What the walk carries on: the directories that are left, the entries counted so far, and what
was found. -/
structure Scan where
  pending : List PendingDirectory
  scanned : ℕ
  candidates : List RelativePath
  attributeFiles : List RelativePath
  completeness : DiscoveryCompleteness
  issues : List GitInspectionIssue
deriving DecidableEq

/-- The discovery is incomplete, for this reason; what was found before stays. -/
def Scan.incomplete (scan : Scan) (issue : GitInspectionIssue) : Scan :=
  { scan with completeness := .incomplete, issues := pushUnique scan.issues issue }

/-- `pending.clear()`: the walk ends after the directory at hand. -/
def Scan.clear (scan : Scan) : Scan := { scan with pending := [] }

/-- What is done for the entry `.git` of a directory. -/
def Scan.gitEntry (scan : Scan) (limits : InspectionLimits) (directory : PendingDirectory)
    (fileType : FileType) : Scan :=
  if fileType = .directory ∨ fileType = .regularFile then
    if scan.candidates.length = limits.maxRepositories then
      scan.incomplete .repositoryLimitReached
    else { scan with candidates := scan.candidates ++ [directory.relative] }
  else scan.incomplete .unsafeRepositoryMetadata

/-- An attributes file is noted, with its path below the copy root. -/
def Scan.attributesEntry (scan : Scan) (relative name : RelativePath) (fileType : FileType) :
    Scan :=
  if name = [gitattributesName] ∧ fileType = .regularFile then
    { scan with attributeFiles := scan.attributeFiles ++ [relative ++ name] }
  else scan

/-- What is done for an entry that was counted. -/
def scanName (budget : CooperativeBudget) (directory : PendingDirectory) (name : List UInt8)
    (scan : Scan) : Inspect Scan := do
  match ← ask (.statAt directory.relative name) with
  | none => pure (scan.incomplete .scanFailed)
  | some identity =>
    let fileType := identity.fileType
    if name = gitName then pure (scan.gitEntry budget.limits directory fileType)
    else
      let scan := scan.attributesEntry directory.relative [name] fileType
      if fileType = .directory then
        if directory.depth = budget.limits.maxDepth then pure (scan.incomplete .depthLimitReached)
        else do
          let opened ← ask (.openAt directory.relative name)
          if opened then
            let next : PendingDirectory := ⟨directory.relative ++ [name], directory.depth + 1⟩
            pure { scan with pending := scan.pending ++ [next] }
          else pure (scan.incomplete .scanFailed)
      else pure scan

/-- The loop over the entries of a directory. -/
def scanEntries (budget : CooperativeBudget) (directory : PendingDirectory) :
    List (Option (List UInt8)) → Scan → Inspect Scan
  | [], scan => pure scan
  | entry :: entries, scan => do
    let expired ← budget.expired
    if expired then pure (scan.incomplete .budgetExpired).clear
    else
      match entry with
      | none => scanEntries budget directory entries (scan.incomplete .scanFailed)
      | some name =>
        if name = dot ∨ name = dotDot then scanEntries budget directory entries scan
        else
          let scan := { scan with scanned := scan.scanned + 1 }
          if budget.limits.maxScanEntries < scan.scanned then
            pure (scan.incomplete .scanLimitReached).clear
          else do
            let scan ← scanName budget directory name scan
            scanEntries budget directory entries scan

/-- The loop over the pending directories, the last one first; the fuel bounds the directories that
are still to come. -/
def walk (budget : CooperativeBudget) : ℕ → Scan → Inspect Scan
  | 0, scan => pure scan
  | fuel + 1, scan =>
    match scan.pending.getLast? with
    | none => pure scan
    | some directory => do
      let scan := { scan with pending := scan.pending.dropLast }
      let expired ← budget.expired
      if expired then pure (scan.incomplete .budgetExpired)
      else
        match ← ask (.readDirectory directory.relative) with
        | none => walk budget fuel (scan.incomplete .scanFailed)
        | some entries => do
          let scan ← scanEntries budget directory entries scan
          walk budget fuel scan

/-- The scan of a copy before its first directory. -/
def Scan.start : Scan := ⟨[⟨[], 0⟩], 0, [], [], .complete, []⟩

/-- `discover`: the discovery and the entries it scanned. -/
def discover (copyRoot : List UInt8) (budget : CooperativeBudget) : Inspect (Discovery × ℕ) := do
  let root ← ask (.openAbsoluteDirectory copyRoot)
  match root with
  | .ok (some rootIdentity) => do
    lift (refuseIf (rootIdentity.fileType ≠ .directory) .invalidCopyRoot)
    let duplicated ← ask .duplicateRoot
    lift (refuseIf (duplicated = false) .scanFailed)
    let scan ← walk budget (budget.limits.maxScanEntries + 1) .start
    pure (⟨rootIdentity, sortDedup namesLe scan.candidates,
      pairwise_sortDedup linearLe_namesLe, scan.attributeFiles, scan.completeness,
      scan.issues⟩, scan.scanned)
  | _ => throw .invalidCopyRoot

/-! ### The fuel of the walk

The walk takes the last pending directory, and each entry it counts adds one directory at
most.  As the number of entries is limited, the sum of what is pending and what may still be
counted bounds the directories to come; with this much fuel, the walk is the loop of the
source. -/

variable {budget : CooperativeBudget} {directory : PendingDirectory} {scan : Scan}

/-- A file of attributes makes nothing pending. -/
@[simp] theorem Scan.attributesEntry_pending {relative name : RelativePath} {fileType : FileType} :
    (scan.attributesEntry relative name fileType).pending = scan.pending := by
  rw [attributesEntry]; split <;> rfl

/-- A file of attributes does not change the count. -/
@[simp] theorem Scan.attributesEntry_scanned {relative name : RelativePath} {fileType : FileType} :
    (scan.attributesEntry relative name fileType).scanned = scan.scanned := by
  rw [attributesEntry]; split <;> rfl

/-- A file of attributes is no candidate. -/
@[simp] theorem Scan.attributesEntry_candidates {relative name : RelativePath}
    {fileType : FileType} :
    (scan.attributesEntry relative name fileType).candidates = scan.candidates := by
  rw [attributesEntry]; split <;> rfl

/-- A file of attributes does not make the scan incomplete. -/
@[simp] theorem Scan.attributesEntry_completeness {relative name : RelativePath}
    {fileType : FileType} :
    (scan.attributesEntry relative name fileType).completeness = scan.completeness := by
  rw [attributesEntry]; split <;> rfl

/-- The directories that are pending and the entries still to be counted. -/
def Scan.measure (scan : Scan) (limits : InspectionLimits) : ℕ :=
  scan.pending.length + (limits.maxScanEntries - scan.scanned)

/-- An entry adds one directory at most. -/
theorem yields_scanName {name : List UInt8} :
    Yields (fun scan' : Scan => scan'.scanned = scan.scanned ∧
      scan'.pending.length ≤ scan.pending.length + 1) (scanName budget directory name scan) := by
  intro answer
  cases answer with
  | none => exact ⟨rfl, Nat.le_succ _⟩
  | some identity =>
    show Yields _ (if name = gitName then _ else _)
    split
    · unfold Scan.gitEntry
      split
      · split <;> exact ⟨rfl, Nat.le_succ _⟩
      · exact ⟨rfl, Nat.le_succ _⟩
    · split
      · split
        · exact ⟨by simp [Scan.incomplete], by simp [Scan.incomplete]⟩
        · intro opened
          cases opened with
          | false => exact ⟨by simp [Scan.incomplete], by simp [Scan.incomplete]⟩
          | true => exact ⟨by simp, by simp⟩
      · exact ⟨by simp, by simp⟩

/-- The entries of a directory add no more directories than were counted. -/
theorem yields_scanEntries {entries : List (Option (List UInt8))} :
    Yields (fun scan' : Scan => scan'.measure budget.limits ≤ scan.measure budget.limits)
      (scanEntries budget directory entries scan) := by
  induction entries generalizing scan with
  | nil => exact Nat.le_refl _
  | cons entry entries ih =>
    refine yields_bind fun expired => ?_
    split
    · refine yields_pure ?_
      simp [Scan.measure, Scan.clear, Scan.incomplete]
    · cases entry with
      | none =>
        have hrest : (scan.incomplete .scanFailed).measure budget.limits =
          scan.measure budget.limits := rfl
        exact hrest ▸ ih
      | some name =>
        show Yields _ (if name = dot ∨ name = dotDot then _ else _)
        split
        · exact ih
        · show Yields _ (if budget.limits.maxScanEntries < scan.scanned + 1 then _ else _)
          split
          · refine yields_pure ?_
            simp only [Scan.measure, Scan.clear, Scan.incomplete, List.length_nil]
            omega
          · rename_i hlimit
            refine yields_scanName.bind fun scan₁ hscan₁ => Yields.mono ih fun scan' hle => ?_
            obtain ⟨hscanned, hpending⟩ := hscan₁
            simp only [Scan.measure] at hle hscanned hpending ⊢
            omega

/-- A walk with nothing pending is over, whatever its fuel. -/
theorem walk_of_getLast? {fuel : ℕ} (h : scan.pending.getLast? = none) :
    walk budget fuel scan = pure scan := by
  cases fuel with
  | zero => rfl
  | succ fuel => rw [walk, h]

/-- **The fuel is enough.**  More of it than the measure of the scan changes nothing. -/
theorem walk_stable {fuel fuel' : ℕ} (h : scan.measure budget.limits ≤ fuel)
    (h' : scan.measure budget.limits ≤ fuel') : walk budget fuel scan = walk budget fuel' scan := by
  induction fuel generalizing scan fuel' with
  | zero =>
    have hlength : scan.pending.length = 0 := by
      rw [Scan.measure] at h
      omega
    have hnone : scan.pending.getLast? = none := by
      rw [List.eq_nil_of_length_eq_zero hlength, List.getLast?_nil]
    rw [walk_of_getLast? hnone, walk_of_getLast? hnone]
  | succ fuel ih =>
    cases hlast : scan.pending.getLast? with
    | none => rw [walk_of_getLast? hlast, walk_of_getLast? hlast]
    | some directory =>
      have hpop : scan.pending.length = scan.pending.dropLast.length + 1 := by
        rw [← List.dropLast_append_getLast? directory hlast]
        simp
      rw [Scan.measure] at h h'
      cases fuel' with
      | zero => omega
      | succ fuel' =>
        -- what is left has a smaller measure than `scan`, which has one more directory
        have hrest : ∀ {scan₁ : Scan}, scan₁.measure budget.limits ≤
            scan.pending.dropLast.length + (budget.limits.maxScanEntries - scan.scanned) →
            walk budget fuel scan₁ = walk budget fuel' scan₁ := fun hle =>
          ih (by omega) (by omega)
        rw [walk, walk, hlast]
        refine bind_congr fun expired => ?_
        split
        · rfl
        · refine bind_congr fun answer => ?_
          cases answer with
          | none => exact hrest (Nat.le_refl _)
          | some entries => exact yields_scanEntries.bind_congr fun scan₁ hle => hrest hle

end Git
end ThinWorkspace
