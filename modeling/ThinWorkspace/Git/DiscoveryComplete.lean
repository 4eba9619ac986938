/-
# Complete discoveries

Source: as `Git/Discovery.lean`.  A `DirectoryTree` says what stands at every path, no link
followed; `Shows` ties the answers of a run to it.

One directory is `scanEntries_visited`: as long as the scan stays complete, `Visited` says
what the entries of the directory add.  `Progress` is the invariant of the walk: the
directories found are finished or pending, and the candidates are those of the finished
ones (`Progress.visit`, `walk_progress`).  `walk_links` holds of every walk, complete or not.

The last section is a copy with a repository below the root, whose answers are those of its
tree.
-/

import Mathlib.Data.List.ReduceOption
import ThinWorkspace.Git.LeafFirst

namespace ThinWorkspace
namespace Git

open ThinWorkspace.Core Ports Lib Lib.Fallible Lib.Program Lib.Lexicographic

/-! ### Directory trees

A tree says what stands at a path, without following links.  `Shows` asks that the answers
of a run are those of the tree, a failed call apart; so the tree may not change, but calls
may fail. -/

/-- A directory tree: what stands at a path, no link followed. -/
structure DirectoryTree where
  fileType : RelativePath → Option FileType
  root : fileType [] = some .directory
  parent : ∀ path name, fileType (path ++ [name]) ≠ none →
    fileType path = some .directory ∧ IsName name

/-- A directory that is no entry `.git` and below none. -/
def DirectoryTree.IsScanned (tree : DirectoryTree) (path : RelativePath) : Prop :=
  tree.fileType path = some .directory ∧ gitName ∉ path

/-- A directory to scan that holds a `.git` that is a file or a directory. -/
def DirectoryTree.IsRepository (tree : DirectoryTree) (path : RelativePath) : Prop :=
  tree.IsScanned path ∧ (tree.fileType (path ++ [gitName]) = some .directory ∨
    tree.fileType (path ++ [gitName]) = some .regularFile)

/-- The answers of the run are those of the tree: what it finds stands there, and a listing
without a failure is whole. -/
structure Shows (tree : DirectoryTree) (t : List InspectExchange) : Prop where
  found : ∀ directory name identity,
    (⟨.statAt directory name, some identity⟩ : InspectExchange) ∈ t →
      tree.fileType (directory ++ [name]) = some identity.fileType
  listed : ∀ directory entries,
    (⟨.readDirectory directory, some entries⟩ : InspectExchange) ∈ t → none ∉ entries →
      ∀ name, tree.fileType (directory ++ [name]) ≠ none → some name ∈ entries

/-- A call that failed, at least for one entry. -/
inductive Failed : InspectExchange → Prop
  | read (directory : RelativePath) : Failed ⟨.readDirectory directory, none⟩
  | entry {directory : RelativePath} {entries : List (Option (List UInt8))}
      (h : none ∈ entries) : Failed ⟨.readDirectory directory, some entries⟩
  | stat (directory : RelativePath) (name : List UInt8) : Failed ⟨.statAt directory name, none⟩
  | opened (directory : RelativePath) (name : List UInt8) :
      Failed ⟨.openAt directory name, false⟩

/-- The call looks into directories that are no links, and below none. -/
def FollowsNoLink (tree : DirectoryTree) : InspectCall → Prop
  | .readDirectory directory => tree.IsScanned directory
  | .statAt directory _ => tree.IsScanned directory
  | .openAt directory name => tree.IsScanned (directory ++ [name])
  | _ => True

variable {tree : DirectoryTree} {budget : CooperativeBudget} {directory : PendingDirectory}
  {scan scan' scan₁ : Scan} {t t' : List InspectExchange} {names names' : List (List UInt8)}

/-- A tree that a run shows is shown by every part of it. -/
theorem Shows.mono (h : Shows tree t') (hsub : t ⊆ t') : Shows tree t where
  found := fun directory name identity hmem => h.found directory name identity (hsub hmem)
  listed := fun directory entries hmem => h.listed directory entries (hsub hmem)

/-! ### One directory

What the scan of one directory adds, entry by entry: its own `.git`, the directories among
its entries, and the count.  `Visited` is closed under putting lists of entries together, so
the loop is an induction. -/

/-- What the entries with these names add to a scan that stays complete. -/
structure Visited (tree : DirectoryTree) (limits : InspectionLimits)
    (directory : PendingDirectory) (names : List (List UInt8)) (scan scan' : Scan) : Prop where
  complete : scan.completeness = .complete
  scanned : scan'.scanned = scan.scanned + names.length
  candidates : scan'.candidates =
    scan.candidates ++ (names.filter (· = gitName)).map fun _ => directory.relative
  pending : scan'.pending = scan.pending ++ (names.filter fun name => name ≠ gitName ∧
    tree.fileType (directory.relative ++ [name]) = some .directory).map fun name =>
      ⟨directory.relative ++ [name], directory.depth + 1⟩
  marker : gitName ∈ names → tree.fileType (directory.relative ++ [gitName]) = some .directory ∨
    tree.fileType (directory.relative ++ [gitName]) = some .regularFile
  depth : ∀ name ∈ names, name ≠ gitName →
    tree.fileType (directory.relative ++ [name]) = some .directory →
      directory.depth ≠ limits.maxDepth
  entryLimit : scan.scanned ≤ limits.maxScanEntries → scan'.scanned ≤ limits.maxScanEntries
  repositoryLimit : scan.candidates.length ≤ limits.maxRepositories →
    scan'.candidates.length ≤ limits.maxRepositories

/-- No entry adds nothing: the scan is what it was, and as complete. -/
theorem Visited.nil {limits : InspectionLimits} (h : scan.completeness = .complete) :
    Visited tree limits directory [] scan scan where
  complete := h
  scanned := rfl
  candidates := by simp
  pending := by simp
  marker := by simp
  depth := by simp
  entryLimit := id
  repositoryLimit := id

/-- Two lists of entries add what the one and then the other does.  The counts add up and the found
lists follow each other, so every field is the one of the first list together with the one of the
second. -/
theorem Visited.append {limits : InspectionLimits}
    (h : Visited tree limits directory names scan scan₁)
    (h' : Visited tree limits directory names' scan₁ scan') :
    Visited tree limits directory (names ++ names') scan scan' where
  complete := h.complete
  scanned := by
    rw [h'.scanned, h.scanned, List.length_append]
    omega
  candidates := by rw [h'.candidates, h.candidates]; simp
  pending := by rw [h'.pending, h.pending]; simp
  marker := fun hmem => (List.mem_append.mp hmem).elim h.marker h'.marker
  depth := fun name hmem => (List.mem_append.mp hmem).elim (h.depth name) (h'.depth name)
  entryLimit := fun hle => h'.entryLimit (h.entryLimit hle)
  repositoryLimit := fun hle => h'.repositoryLimit (h.repositoryLimit hle)

/-- The scan with one more entry, which counts against the limit. -/
def Scan.counted (scan : Scan) : Scan := { scan with scanned := scan.scanned + 1 }

/-- The entry `.git` of a scan that stays complete.  Such a scan has found a file or a directory
there, below the limit on repositories: any other kind, and the limit itself, ends the scan
incomplete and contradicts the assumption. -/
theorem gitEntry_visited {limits : InspectionLimits} {fileType : FileType}
    (hfound : tree.fileType (directory.relative ++ [gitName]) = some fileType)
    (hcomplete : (scan.counted.gitEntry limits directory fileType).completeness = .complete)
    (hscanned : scan.scanned < limits.maxScanEntries) :
    Visited tree limits directory [gitName] scan
      (scan.counted.gitEntry limits directory fileType) := by
  rw [Scan.gitEntry] at hcomplete ⊢
  split at hcomplete
  · rename_i hkind
    rw [if_pos hkind]
    split at hcomplete
    · cases hcomplete
    · rename_i hlimit
      rw [if_neg hlimit]
      refine ⟨hcomplete, rfl, by simp [Scan.counted], by simp [Scan.counted], fun _ => ?_,
        by simp, fun _ => hscanned, fun hle => ?_⟩
      · rcases hkind with rfl | rfl
        · exact .inl hfound
        · exact .inr hfound
      · replace hlimit : scan.candidates.length ≠ limits.maxRepositories := hlimit
        show (scan.candidates ++ [directory.relative]).length ≤ limits.maxRepositories
        rw [List.length_append, List.length_singleton]
        omega
  · cases hcomplete

/-- An entry of another name: it is counted, and a directory among these is pending behind it.  The
caller gives the change of the scan, and what is left to say is that no candidate is due and that
the depth was allowed. -/
theorem visited_other {limits : InspectionLimits} {name : List UInt8} (hgit : name ≠ gitName)
    (hcomplete : scan.completeness = .complete)
    (hlimit : scan.scanned < limits.maxScanEntries)
    (hdepth : tree.fileType (directory.relative ++ [name]) = some .directory →
      directory.depth ≠ limits.maxDepth)
    (hscanned : scan'.scanned = scan.scanned + 1) (hcandidates : scan'.candidates = scan.candidates)
    (hpending : scan'.pending = scan.pending ++
      if tree.fileType (directory.relative ++ [name]) = some .directory then
        [⟨directory.relative ++ [name], directory.depth + 1⟩] else []) :
    Visited tree limits directory [name] scan scan' where
  complete := hcomplete
  scanned := hscanned
  candidates := by simp [hcandidates, hgit]
  pending := by
    rw [hpending]
    split <;> simp [*]
  marker := by simp [Ne.symm hgit]
  depth := by simpa using fun _ => hdepth
  entryLimit := fun _ => by omega
  repositoryLimit := by simp [hcandidates]

/-- One entry of a scan that stays complete: it is what the tree shows there, and none of its calls
failed.  The cases are those of the source: no answer and a directory at the greatest depth both
make the scan incomplete, which leaves `.git`, a directory that is queued and an entry of any other
kind. -/
theorem scanName_visited {name : List UInt8}
    (h : Traces (scanName budget directory name scan.counted) t (.ok scan'))
    (hshows : Shows tree t) (hcomplete : scan'.completeness = .complete)
    (hscanned : scan.scanned < budget.limits.maxScanEntries) :
    Visited tree budget.limits directory [name] scan scan' ∧ ∀ exchange ∈ t, ¬Failed exchange := by
  obtain ⟨answer, rest, rfl, h₁⟩ := traces_perform_bind.mp h
  cases answer with
  | none =>
    obtain ⟨-, he⟩ := traces_pure.mp h₁
    cases he
    cases hcomplete
  | some identity =>
    have hfound := hshows.found _ _ _ List.mem_cons_self
    have hstat : ¬Failed (⟨.statAt directory.relative name, some identity⟩ : InspectExchange) :=
      nofun
    by_cases hgit : name = gitName
    · simp only [hgit, if_true] at h₁
      obtain ⟨rfl, he⟩ := traces_pure.mp h₁
      cases he
      subst hgit
      exact ⟨gitEntry_visited hfound hcomplete hscanned, by simpa using hstat⟩
    · simp only [hgit, if_false] at h₁
      by_cases hdirectory : identity.fileType = .directory
      · simp only [hdirectory, if_true] at h₁
        by_cases hdepth : directory.depth = budget.limits.maxDepth
        · simp only [hdepth, if_true] at h₁
          obtain ⟨-, he⟩ := traces_pure.mp h₁
          cases he
          cases hcomplete
        · simp only [hdepth, if_false] at h₁
          obtain ⟨opened, rest', rfl, h₂⟩ := traces_perform_bind.mp h₁
          cases opened with
          | false =>
            obtain ⟨-, he⟩ := traces_pure.mp h₂
            cases he
            cases hcomplete
          | true =>
            obtain ⟨rfl, he⟩ := traces_pure.mp h₂
            cases he
            have hopened : ¬Failed (⟨.openAt directory.relative name, true⟩ : InspectExchange) :=
              nofun
            rw [hdirectory] at hfound
            refine ⟨visited_other hgit ?_ hscanned (fun _ => hdepth) ?_ ?_ ?_,
              by simpa using ⟨hstat, hopened⟩⟩
            · simpa [Scan.counted] using hcomplete
            · simp [Scan.counted]
            · simp [Scan.counted]
            · rw [if_pos hfound]
              simp [Scan.counted]
      · simp only [hdirectory, if_false] at h₁
        obtain ⟨rfl, he⟩ := traces_pure.mp h₁
        cases he
        have hother : tree.fileType (directory.relative ++ [name]) ≠ some .directory := by
          rw [hfound]
          exact fun he => hdirectory (Option.some.inj he)
        refine ⟨visited_other hgit ?_ hscanned (fun he => absurd he hother) ?_ ?_ ?_,
          by simpa using hstat⟩
        · simpa [Scan.counted] using hcomplete
        · simp [Scan.counted]
        · simp [Scan.counted]
        · rw [if_neg hother]
          simp [Scan.counted]

/-- A look at the clock follows no link, since it looks at no path. -/
theorem expired_followsNoLink {expired : Bool} (h : Traces budget.expired t (.ok expired)) :
    ∀ exchange ∈ t, FollowsNoLink tree exchange.op := by
  obtain ⟨now, rest, rfl, hpure⟩ := traces_perform_bind.mp h
  obtain ⟨rfl, -⟩ := traces_pure.mp hpure
  rintro exchange hmem
  rw [List.mem_singleton] at hmem
  subst hmem
  exact trivial

/-- A look at the clock does not fail, since its answer is a number. -/
theorem expired_succeeded {expired : Bool} (h : Traces budget.expired t (.ok expired)) :
    ∀ exchange ∈ t, ¬Failed exchange := by
  obtain ⟨now, rest, rfl, hpure⟩ := traces_perform_bind.mp h
  obtain ⟨rfl, -⟩ := traces_pure.mp hpure
  rintro exchange hmem
  rw [List.mem_singleton] at hmem
  subst hmem
  exact nofun

/-- The entries of a directory whose scan stays complete.  The induction is on the entries as they
were read.  An entry that could not be read and an expired budget both end incomplete, and `.` and
`..` are passed over without being counted. -/
theorem scanEntries_visited {entries : List (Option (List UInt8))}
    (h : Traces (scanEntries budget directory entries scan) t (.ok scan'))
    (hshows : Shows tree t) (hcomplete : scan'.completeness = .complete) :
    none ∉ entries ∧
      Visited tree budget.limits directory
        (entries.reduceOption.filter fun name => name ≠ dot ∧ name ≠ dotDot) scan scan' ∧
      ∀ exchange ∈ t, ¬Failed exchange := by
  induction entries generalizing scan t with
  | nil =>
    obtain ⟨rfl, he⟩ := traces_pure.mp h
    cases he
    exact ⟨by simp, .nil hcomplete, by simp⟩
  | cons entry entries ih =>
    obtain ⟨expired, t₁, t₂, rfl, hexpired, h₁⟩ := traces_bind_ok.mp h
    have hnow : ∀ exchange ∈ t₁, ¬Failed exchange := fun exchange hmem =>
      expired_succeeded hexpired exchange hmem
    by_cases hx : expired = true
    · simp only [hx, if_true] at h₁
      obtain ⟨-, he⟩ := traces_pure.mp h₁
      cases he
      cases hcomplete
    · simp only [hx] at h₁
      have hshows₂ := hshows.mono (List.subset_append_right t₁ t₂)
      cases entry with
      | none =>
        obtain ⟨-, hvisited, -⟩ := ih h₁ hshows₂
        cases hvisited.complete
      | some name =>
        by_cases hdots : name = dot ∨ name = dotDot
        · simp only [hdots, if_true] at h₁
          obtain ⟨hnone, hvisited, hsucceeded⟩ := ih h₁ hshows₂
          refine ⟨by simpa using hnone, ?_, List.forall_mem_append.mpr ⟨hnow, hsucceeded⟩⟩
          rw [List.reduceOption_cons_of_some, List.filter_cons_of_neg]
          · exact hvisited
          · rw [decide_eq_true_eq, not_and_or, not_not, not_not]
            exact hdots
        · simp only [hdots, if_false] at h₁
          by_cases hlimit : budget.limits.maxScanEntries < scan.scanned + 1
          · simp only [hlimit, if_true] at h₁
            obtain ⟨-, he⟩ := traces_pure.mp h₁
            cases he
            cases hcomplete
          · simp only [hlimit, if_false] at h₁
            obtain ⟨scan₁, t₃, t₄, rfl, hname, hrest⟩ := traces_bind_ok.mp h₁
            obtain ⟨hnone, hvisited, hsucceeded⟩ :=
              ih hrest (hshows₂.mono (List.subset_append_right t₃ t₄))
            obtain ⟨hfirst, hsucceeded₁⟩ := scanName_visited hname
              (hshows₂.mono (List.subset_append_left t₃ t₄)) hvisited.complete (by omega)
            refine ⟨by simpa using hnone, ?_, ?_⟩
            · rw [List.reduceOption_cons_of_some, List.filter_cons_of_pos]
              · exact hfirst.append hvisited
              · rw [decide_eq_true_eq]
                exact not_or.mp hdots
            · exact List.forall_mem_append.mpr
                ⟨hnow, List.forall_mem_append.mpr ⟨hsucceeded₁, hsucceeded⟩⟩

/-! ### Links

A directory is opened only where the tree shows a directory, since the walk looks at the
type of an entry before it makes the entry pending. -/

/-- A directory in a scanned one is scanned, unless it is a `.git`. -/
theorem isScanned_append {path : RelativePath} {name : List UInt8} (h : tree.IsScanned path)
    (hname : name ≠ gitName) (hdirectory : tree.fileType (path ++ [name]) = some .directory) :
    tree.IsScanned (path ++ [name]) :=
  ⟨hdirectory, by simpa using ⟨h.2, Ne.symm hname⟩⟩

/-- What is scanned lies in a scanned directory and is no `.git`. -/
theorem isScanned_of_append {path : RelativePath} {name : List UInt8}
    (h : tree.IsScanned (path ++ [name])) : tree.IsScanned path ∧ name ≠ gitName := by
  obtain ⟨hdirectory, hgit⟩ := h
  rw [List.mem_append, not_or, List.mem_singleton] at hgit
  exact ⟨⟨(tree.parent path name (by simp [hdirectory])).1, hgit.1⟩, Ne.symm hgit.2⟩

/-- A `.git` is not itself scanned: nothing is pending because of it. -/
theorem Scan.gitEntry_pending {limits : InspectionLimits} {fileType : FileType} :
    (scan.gitEntry limits directory fileType).pending = scan.pending := by
  rw [gitEntry]
  split
  · split <;> rfl
  · rfl

/-- What is pending are directories of the tree that are scanned. -/
def Scan.Real (tree : DirectoryTree) (scan : Scan) : Prop :=
  ∀ pending ∈ scan.pending, tree.IsScanned pending.relative

/-- Looking at one entry follows no link, and what it makes pending is real.  The only call is the
one that asks for the kind of the entry without following it, and what it queues is a directory by
the answer to that very call. -/
theorem scanName_links {name : List UInt8}
    (h : Traces (scanName budget directory name scan) t (.ok scan')) (hshows : Shows tree t)
    (hdirectory : tree.IsScanned directory.relative) (hreal : scan.Real tree) :
    scan'.Real tree ∧ ∀ exchange ∈ t, FollowsNoLink tree exchange.op := by
  obtain ⟨answer, rest, rfl, h₁⟩ := traces_perform_bind.mp h
  cases answer with
  | none =>
    obtain ⟨rfl, he⟩ := traces_pure.mp h₁
    cases he
    exact ⟨hreal, by simpa [FollowsNoLink] using hdirectory⟩
  | some identity =>
    have hfound := hshows.found _ _ _ List.mem_cons_self
    by_cases hgit : name = gitName
    · simp only [hgit, if_true] at h₁
      obtain ⟨rfl, he⟩ := traces_pure.mp h₁
      cases he
      refine ⟨?_, by simpa [FollowsNoLink] using hdirectory⟩
      rw [Scan.Real, Scan.gitEntry_pending]
      exact hreal
    · simp only [hgit, if_false] at h₁
      by_cases htype : identity.fileType = .directory
      · simp only [htype, if_true] at h₁
        rw [htype] at hfound
        have hinside := isScanned_append hdirectory hgit hfound
        by_cases hdepth : directory.depth = budget.limits.maxDepth
        · simp only [hdepth, if_true] at h₁
          obtain ⟨rfl, he⟩ := traces_pure.mp h₁
          cases he
          refine ⟨?_, by simpa [FollowsNoLink] using hdirectory⟩
          simpa [Scan.Real, Scan.incomplete] using hreal
        · simp only [hdepth, if_false] at h₁
          obtain ⟨opened, rest', rfl, h₂⟩ := traces_perform_bind.mp h₁
          have hcalls : ∀ exchange ∈ [(⟨.statAt directory.relative name, some identity⟩ :
              InspectExchange), ⟨.openAt directory.relative name, opened⟩],
              FollowsNoLink tree exchange.op := by
            simpa using ⟨hdirectory, hinside⟩
          cases opened with
          | false =>
            obtain ⟨rfl, he⟩ := traces_pure.mp h₂
            cases he
            exact ⟨by simpa [Scan.Real, Scan.incomplete] using hreal, hcalls⟩
          | true =>
            obtain ⟨rfl, he⟩ := traces_pure.mp h₂
            cases he
            refine ⟨?_, hcalls⟩
            intro pending hmem
            rcases List.mem_append.mp hmem with hmem | hmem
            · exact hreal pending (by simpa using hmem)
            · rw [List.mem_singleton.mp hmem]
              exact hinside
      · simp only [htype, if_false] at h₁
        obtain ⟨rfl, he⟩ := traces_pure.mp h₁
        cases he
        exact ⟨by simpa [Scan.Real] using hreal, by simpa [FollowsNoLink] using hdirectory⟩

/-- So does going over the entries of a directory.  The induction is on the entries; an expired
budget ends the loop early, which makes no further call. -/
theorem scanEntries_links {entries : List (Option (List UInt8))}
    (h : Traces (scanEntries budget directory entries scan) t (.ok scan'))
    (hshows : Shows tree t) (hdirectory : tree.IsScanned directory.relative)
    (hreal : scan.Real tree) :
    scan'.Real tree ∧ ∀ exchange ∈ t, FollowsNoLink tree exchange.op := by
  induction entries generalizing scan t with
  | nil =>
    obtain ⟨rfl, he⟩ := traces_pure.mp h
    cases he
    exact ⟨hreal, by simp⟩
  | cons entry entries ih =>
    obtain ⟨expired, t₁, t₂, rfl, hexpired, h₁⟩ := traces_bind_ok.mp h
    have hnow : ∀ exchange ∈ t₁, FollowsNoLink tree exchange.op := fun exchange hmem =>
      expired_followsNoLink hexpired exchange hmem
    have hrest : (scan'.Real tree ∧ ∀ exchange ∈ t₂, FollowsNoLink tree exchange.op) →
        scan'.Real tree ∧ ∀ exchange ∈ t₁ ++ t₂, FollowsNoLink tree exchange.op := fun hall =>
      ⟨hall.1, List.forall_mem_append.mpr ⟨hnow, hall.2⟩⟩
    have hshows₂ := hshows.mono (List.subset_append_right t₁ t₂)
    refine hrest ?_
    split at h₁
    · obtain ⟨rfl, he⟩ := traces_pure.mp h₁
      cases he
      exact ⟨nofun, by simp⟩
    · cases entry with
      | none => exact ih h₁ hshows₂ hreal
      | some name =>
        by_cases hdots : name = dot ∨ name = dotDot
        · simp only [hdots, if_true] at h₁
          exact ih h₁ hshows₂ hreal
        · simp only [hdots, if_false] at h₁
          by_cases hlimit : budget.limits.maxScanEntries < scan.scanned + 1
          · simp only [hlimit, if_true] at h₁
            obtain ⟨rfl, he⟩ := traces_pure.mp h₁
            cases he
            exact ⟨nofun, by simp⟩
          · simp only [hlimit, if_false] at h₁
            obtain ⟨scan₁, t₃, t₄, rfl, hname, h₂⟩ := traces_bind_ok.mp h₁
            obtain ⟨hreal₁, hcalls₁⟩ := scanName_links hname
              (hshows₂.mono (List.subset_append_left t₃ t₄)) hdirectory hreal
            obtain ⟨hreal₂, hcalls₂⟩ :=
              ih h₂ (hshows₂.mono (List.subset_append_right t₃ t₄)) hreal₁
            exact ⟨hreal₂, List.forall_mem_append.mpr ⟨hcalls₁, hcalls₂⟩⟩

/-- **No link is followed**, whatever the walk finds: each directory that is opened is one that the
tree shows as a directory.  The induction is on the fuel, and what carries it is that every pending
directory is one the tree shows: it was queued by an answer of the tree, and opening it by name
therefore follows nothing. -/
theorem walk_links {fuel : ℕ} (h : Traces (walk budget fuel scan) t (.ok scan'))
    (hshows : Shows tree t) (hreal : scan.Real tree) :
    ∀ exchange ∈ t, FollowsNoLink tree exchange.op := by
  induction fuel generalizing scan t with
  | zero =>
    obtain ⟨rfl, -⟩ := traces_pure.mp h
    simp
  | succ fuel ih =>
    rw [walk] at h
    split at h
    · obtain ⟨rfl, -⟩ := traces_pure.mp h
      simp
    · rename_i directory hlast
      have hdirectory := hreal directory (List.mem_of_getLast? hlast)
      have hpopped : ∀ pending ∈ scan.pending.dropLast, tree.IsScanned pending.relative :=
        fun pending hmem => hreal pending (List.dropLast_subset _ hmem)
      obtain ⟨expired, t₁, t₂, rfl, hexpired, h₁⟩ := traces_bind_ok.mp h
      have hnow : ∀ exchange ∈ t₁, FollowsNoLink tree exchange.op := fun exchange hmem =>
        expired_followsNoLink hexpired exchange hmem
      have hshows₂ := hshows.mono (List.subset_append_right t₁ t₂)
      refine List.forall_mem_append.mpr ⟨hnow, ?_⟩
      split at h₁
      · obtain ⟨rfl, -⟩ := traces_pure.mp h₁
        simp
      · obtain ⟨answer, rest, rfl, h₂⟩ := traces_perform_bind.mp h₁
        have hshows₃ := hshows₂.mono (List.subset_cons_self _ rest)
        refine List.forall_mem_cons.mpr ⟨hdirectory, ?_⟩
        cases answer with
        | none => exact ih h₂ hshows₃ hpopped
        | some entries =>
          obtain ⟨scan₁, t₃, t₄, rfl, hentries, h₃⟩ := traces_bind_ok.mp h₂
          obtain ⟨hreal₁, hcalls⟩ := scanEntries_links hentries
            (hshows₃.mono (List.subset_append_left t₃ t₄)) hdirectory hpopped
          exact List.forall_mem_append.mpr
            ⟨hcalls, ih h₃ (hshows₃.mono (List.subset_append_right t₃ t₄)) hreal₁⟩

/-! ### The walk

The invariant of the walk: what is finished, what is pending, and that together they cover
every directory to scan whose parent is finished.  A walk that ends complete has nothing
pending, so everything is finished. -/

/-- How far a walk that is complete so far has come. -/
structure Progress (tree : DirectoryTree) (limits : InspectionLimits) (scan : Scan)
    (finished : List RelativePath) (t : List InspectExchange) : Prop where
  read : ∀ path ∈ finished, tree.IsScanned path ∧ ∃ entries : List (Option (List UInt8)),
    none ∉ entries ∧ (⟨.readDirectory path, some entries⟩ : InspectExchange) ∈ t
  pending : ∀ next ∈ scan.pending, tree.IsScanned next.relative ∧
    next.depth = next.relative.length ∧ next.depth ≤ limits.maxDepth
  closed : ∀ path ∈ finished, ∀ name, tree.IsScanned (path ++ [name]) →
    path ++ [name] ∈ finished ∨ path ++ [name] ∈ scan.pending.map (·.relative)
  rooted : [] ∈ finished ∨ [] ∈ scan.pending.map (·.relative)
  candidates : ∀ path, path ∈ scan.candidates ↔
    path ∈ finished ∧ tree.fileType (path ++ [gitName]) ≠ none
  marker : ∀ path ∈ finished, tree.fileType (path ++ [gitName]) ≠ none →
    tree.fileType (path ++ [gitName]) = some .directory ∨
      tree.fileType (path ++ [gitName]) = some .regularFile
  depth : ∀ path ∈ finished, path.length ≤ limits.maxDepth
  counted : ∃ counted : List RelativePath, counted.length = scan.scanned ∧
    ∀ path ∈ finished, ∀ name, tree.fileType (path ++ [name]) ≠ none → path ++ [name] ∈ counted
  entryLimit : scan.scanned ≤ limits.maxScanEntries
  repositoryLimit : scan.candidates.length ≤ limits.maxRepositories
  succeeded : ∀ exchange ∈ t, ¬Failed exchange

/-- At the start the root is pending and nothing is finished.  Everything it says of finished
directories and of calls is empty, and the limits hold of a count of zero. -/
theorem Progress.start {limits : InspectionLimits} :
    Progress tree limits .start [] [] where
  read := by simp
  pending := by
    intro next hmem
    rw [List.mem_singleton.mp hmem]
    exact ⟨⟨tree.root, by simp⟩, rfl, Nat.zero_le _⟩
  closed := by simp
  rooted := .inr List.mem_cons_self
  candidates := by simp [Scan.start]
  marker := by simp
  depth := by simp
  counted := ⟨[], rfl, by simp⟩
  entryLimit := Nat.zero_le _
  repositoryLimit := Nat.zero_le _
  succeeded := by simp

/-- One directory is finished: its own entry, its candidates and its directories are added to what
the walk has found.  The directory leaves the pending list and joins the finished ones.  Since the
listing was without errors and the tree shows what was listed, every name in the directory is among
the visited entries, which is what closes it. -/
theorem Progress.visit {limits : InspectionLimits} {finished : List RelativePath}
    {entries : List (Option (List UInt8))}
    (h : Progress tree limits scan finished t) (hlast : scan.pending.getLast? = some directory)
    (hshows : Shows tree t') (hnone : none ∉ entries)
    (hread : (⟨.readDirectory directory.relative, some entries⟩ : InspectExchange) ∈ t')
    (hvisited : Visited tree limits directory
      (entries.reduceOption.filter fun name => name ≠ dot ∧ name ≠ dotDot)
      { scan with pending := scan.pending.dropLast } scan')
    (hsucceeded : ∀ exchange ∈ t', ¬Failed exchange) :
    Progress tree limits scan' (finished ++ [directory.relative]) (t ++ t') := by
  have hpending : scan.pending = scan.pending.dropLast ++ [directory] :=
    (List.dropLast_append_getLast? directory hlast).symm
  obtain ⟨hdirectory, hdepth, hle⟩ := h.pending directory (List.mem_of_getLast? hlast)
  have hnames : ∀ name, tree.fileType (directory.relative ++ [name]) ≠ none →
      name ∈ entries.reduceOption.filter fun name => name ≠ dot ∧ name ≠ dotDot := by
    intro name hname
    have hisName := (tree.parent _ _ hname).2
    rw [List.mem_filter, List.reduceOption_mem_iff, decide_eq_true_eq]
    exact ⟨hshows.listed _ _ hread hnone name hname, hisName.ne_dot, hisName.ne_dotDot⟩
  refine ⟨?_, ?_, ?_, ?_, ?_, ?_, ?_, ?_, ?_, ?_, ?_⟩
  · intro path hpath
    rcases List.mem_append.mp hpath with hpath | hpath
    · obtain ⟨hscanned, entries', hnone', hmem⟩ := h.read path hpath
      exact ⟨hscanned, entries', hnone', List.mem_append_left _ hmem⟩
    · rw [List.mem_singleton.mp hpath]
      exact ⟨hdirectory, entries, hnone, List.mem_append_right _ hread⟩
  · intro next hmem
    rw [hvisited.pending] at hmem
    rcases List.mem_append.mp hmem with hmem | hmem
    · exact h.pending next (List.dropLast_subset _ hmem)
    · obtain ⟨name, hname, rfl⟩ := List.mem_map.mp hmem
      rw [List.mem_filter, decide_eq_true_eq] at hname
      obtain ⟨hname, hgit, htype⟩ := hname
      have hne := hvisited.depth name hname hgit htype
      refine ⟨isScanned_append hdirectory hgit htype, ?_, ?_⟩
      · show directory.depth + 1 = (directory.relative ++ [name]).length
        rw [List.length_append, List.length_singleton, hdepth]
      · show directory.depth + 1 ≤ limits.maxDepth
        omega
  · intro path hpath name hscanned
    rcases List.mem_append.mp hpath with hpath | hpath
    · rcases h.closed path hpath name hscanned with hdone | hdone
      · exact .inl (List.mem_append_left _ hdone)
      · rw [hpending, List.map_append, List.mem_append] at hdone
        rcases hdone with hdone | hdone
        · refine .inr ?_
          rw [hvisited.pending, List.map_append]
          exact List.mem_append_left _ hdone
        · refine .inl (List.mem_append_right _ ?_)
          simpa using hdone
    · rw [List.mem_singleton.mp hpath] at hscanned ⊢
      obtain ⟨-, hgit⟩ := isScanned_of_append hscanned
      refine .inr ?_
      rw [hvisited.pending, List.map_append, List.map_map, List.mem_append]
      refine .inr (List.mem_map.mpr ⟨name, ?_, rfl⟩)
      rw [List.mem_filter, decide_eq_true_eq]
      exact ⟨hnames name (by simp [hscanned.1]), hgit, hscanned.1⟩
  · rcases h.rooted with hdone | hdone
    · exact .inl (List.mem_append_left _ hdone)
    · rw [hpending, List.map_append, List.mem_append] at hdone
      rcases hdone with hdone | hdone
      · refine .inr ?_
        rw [hvisited.pending, List.map_append]
        exact List.mem_append_left _ hdone
      · refine .inl (List.mem_append_right _ ?_)
        simpa using hdone
  · intro path
    rw [hvisited.candidates, List.mem_append, h.candidates, List.mem_append, List.mem_map]
    constructor
    · rintro (⟨hpath, hmarker⟩ | ⟨name, hname, rfl⟩)
      · exact ⟨.inl hpath, hmarker⟩
      · rw [List.mem_filter, decide_eq_true_eq] at hname
        obtain ⟨hname, rfl⟩ := hname
        refine ⟨.inr List.mem_cons_self, ?_⟩
        rcases hvisited.marker hname with htype | htype <;> simp [htype]
    · rintro ⟨hpath | hpath, hmarker⟩
      · exact .inl ⟨hpath, hmarker⟩
      · rw [List.mem_singleton.mp hpath] at hmarker ⊢
        refine .inr ⟨gitName, ?_, rfl⟩
        rw [List.mem_filter, decide_eq_true_eq]
        exact ⟨hnames gitName hmarker, rfl⟩
  · intro path hpath hmarker
    rcases List.mem_append.mp hpath with hpath | hpath
    · exact h.marker path hpath hmarker
    · rw [List.mem_singleton.mp hpath] at hmarker ⊢
      exact hvisited.marker (hnames gitName hmarker)
  · intro path hpath
    rcases List.mem_append.mp hpath with hpath | hpath
    · exact h.depth path hpath
    · rw [List.mem_singleton.mp hpath, ← hdepth]
      exact hle
  · obtain ⟨counted, hlength, hcounted⟩ := h.counted
    refine ⟨counted ++ (entries.reduceOption.filter fun name => name ≠ dot ∧ name ≠ dotDot).map
      fun name => directory.relative ++ [name], ?_, ?_⟩
    · rw [List.length_append, List.length_map, hlength, hvisited.scanned]
    · intro path hpath name hname
      rw [List.mem_append]
      rcases List.mem_append.mp hpath with hpath | hpath
      · exact .inl (hcounted path hpath name hname)
      · rw [List.mem_singleton.mp hpath] at hname ⊢
        exact .inr (List.mem_map_of_mem (hnames name hname))
  · exact hvisited.entryLimit h.entryLimit
  · exact hvisited.repositoryLimit h.repositoryLimit
  · exact List.forall_mem_append.mpr ⟨h.succeeded, hsucceeded⟩

/-- A walk that ends complete began so, since nothing makes a scan complete again.  The induction
is on the fuel: a round that goes on hands its scan to the rest of the walk, and each of its early
ends is incomplete. -/
theorem walk_began_complete {fuel : ℕ} (h : Traces (walk budget fuel scan) t (.ok scan'))
    (hshows : Shows tree t) (hcomplete : scan'.completeness = .complete) :
    scan.completeness = .complete := by
  induction fuel generalizing scan t with
  | zero =>
    obtain ⟨-, he⟩ := traces_pure.mp h
    cases he
    exact hcomplete
  | succ fuel ih =>
    rw [walk] at h
    split at h
    · obtain ⟨-, he⟩ := traces_pure.mp h
      cases he
      exact hcomplete
    · obtain ⟨expired, t₁, t₂, rfl, -, h₁⟩ := traces_bind_ok.mp h
      split at h₁
      · obtain ⟨-, he⟩ := traces_pure.mp h₁
        cases he
        cases hcomplete
      · obtain ⟨answer, rest, rfl, h₂⟩ := traces_perform_bind.mp h₁
        have hshows₃ := hshows.mono (List.Subset.trans (List.subset_cons_self _ rest)
          (List.subset_append_right t₁ _))
        cases answer with
        | none => cases ih h₂ hshows₃
        | some entries =>
          obtain ⟨scan₁, t₃, t₄, rfl, hentries, h₃⟩ := traces_bind_ok.mp h₂
          have hcomplete₁ := ih h₃ (hshows₃.mono (List.subset_append_right t₃ t₄))
          obtain ⟨-, hvisited, -⟩ := scanEntries_visited hentries
            (hshows₃.mono (List.subset_append_left t₃ t₄)) hcomplete₁
          exact hvisited.complete

/-- **A walk that ends complete** has finished every directory it found: the fuel is enough for
every directory that is pending and every entry still to be counted.  The induction is on the fuel.
A round either ends the scan incomplete or finishes one directory, and then the measure, pending
directories and uncounted entries together, has gone down. -/
theorem walk_progress {fuel : ℕ} {finished : List RelativePath} {t₀ : List InspectExchange}
    (h : Traces (walk budget fuel scan) t (.ok scan')) (hshows : Shows tree t)
    (hcomplete : scan'.completeness = .complete)
    (hprogress : Progress tree budget.limits scan finished t₀)
    (hfuel : scan.measure budget.limits ≤ fuel) :
    ∃ finished', Progress tree budget.limits scan' finished' (t₀ ++ t) ∧ scan'.pending = [] := by
  induction fuel generalizing scan finished t₀ t with
  | zero =>
    obtain ⟨rfl, he⟩ := traces_pure.mp h
    cases he
    refine ⟨finished, by rwa [List.append_nil], List.eq_nil_of_length_eq_zero ?_⟩
    rw [Scan.measure] at hfuel
    omega
  | succ fuel ih =>
    rw [walk] at h
    split at h
    · rename_i hempty
      obtain ⟨rfl, he⟩ := traces_pure.mp h
      cases he
      exact ⟨finished, by rwa [List.append_nil], List.getLast?_eq_none_iff.mp hempty⟩
    · rename_i directory hlast
      obtain ⟨expired, t₁, t₂, rfl, hexpired, h₁⟩ := traces_bind_ok.mp h
      split at h₁
      · obtain ⟨-, he⟩ := traces_pure.mp h₁
        cases he
        cases hcomplete
      · obtain ⟨answer, rest, rfl, h₂⟩ := traces_perform_bind.mp h₁
        have hshows₃ := hshows.mono (List.Subset.trans (List.subset_cons_self _ rest)
          (List.subset_append_right t₁ _))
        cases answer with
        | none => cases walk_began_complete h₂ hshows₃ hcomplete
        | some entries =>
          obtain ⟨scan₁, t₃, t₄, rfl, hentries, h₃⟩ := traces_bind_ok.mp h₂
          have hshows₄ := hshows₃.mono (List.subset_append_right t₃ t₄)
          have hcomplete₁ := walk_began_complete h₃ hshows₄ hcomplete
          obtain ⟨hnone, hvisited, hsucceeded⟩ := scanEntries_visited hentries
            (hshows₃.mono (List.subset_append_left t₃ t₄)) hcomplete₁
          have hpart : t₁ ++ ⟨.readDirectory directory.relative, some entries⟩ :: (t₃ ++ t₄) =
              (t₁ ++ ⟨.readDirectory directory.relative, some entries⟩ :: t₃) ++ t₄ := by simp
          rw [hpart] at hshows ⊢
          have hread : ¬Failed (⟨.readDirectory directory.relative, some entries⟩ :
              InspectExchange) := fun hfailed => by
            cases hfailed
            contradiction
          have hnow : ∀ exchange ∈ t₁, ¬Failed exchange := fun exchange hmem =>
            expired_succeeded hexpired exchange hmem
          have hnext := hprogress.visit hlast
            (hshows.mono (List.subset_append_left _ t₄)) hnone (by simp) hvisited
            (List.forall_mem_append.mpr ⟨hnow, List.forall_mem_cons.mpr ⟨hread, hsucceeded⟩⟩)
          have hle : scan₁.measure budget.limits ≤ fuel := by
            have hpop : scan.pending.length = scan.pending.dropLast.length + 1 := by
              rw [← List.dropLast_append_getLast? directory hlast]
              simp
            have hadded := congrArg List.length hvisited.pending
            have hscanned := hvisited.scanned
            have hlimit := hvisited.entryLimit hprogress.entryLimit
            rw [List.length_append, List.length_map] at hadded
            have hfilter := List.length_filter_le (fun name => decide (name ≠ gitName ∧
              tree.fileType (directory.relative ++ [name]) = some .directory))
              (entries.reduceOption.filter fun name => name ≠ dot ∧ name ≠ dotDot)
            simp only [Scan.measure] at hadded hscanned hfuel ⊢
            omega
          obtain ⟨finished', hdone, hempty⟩ := ih h₃ hshows₄ hnext hle
          exact ⟨finished', by rwa [List.append_assoc] at hdone, hempty⟩

/-- Every directory to scan is finished when nothing is pending. -/
theorem Progress.mem_finished {limits : InspectionLimits} {finished : List RelativePath}
    (h : Progress tree limits scan finished t) (hempty : scan.pending = [])
    {path : RelativePath} (hpath : tree.IsScanned path) : path ∈ finished := by
  induction path using List.reverseRecOn with
  | nil => simpa [hempty] using h.rooted
  | append_singleton path name ih =>
    obtain ⟨hparent, -⟩ := isScanned_of_append hpath
    simpa [hempty] using h.closed path (ih hparent) name hpath

/-! ### Discovery

The candidates of a complete walk are the repositories of the tree, in path order and each
once.  The example is a copy with a repository inside another, read call by call. -/

/-- What is said of a discovery that is complete. -/
structure CompleteDiscovery (tree : DirectoryTree) (limits : InspectionLimits)
    (candidates : List RelativePath) (t : List InspectExchange) : Prop where
  /-- The candidates are the repositories of the tree. -/
  candidates : ∀ path, path ∈ candidates ↔ tree.IsRepository path
  /-- No call failed, and every directory was listed to its end. -/
  succeeded : ∀ exchange ∈ t, ¬Failed exchange
  read : ∀ path, tree.IsScanned path → ∃ entries : List (Option (List UInt8)),
    none ∉ entries ∧ (⟨.readDirectory path, some entries⟩ : InspectExchange) ∈ t
  /-- Every `.git` is a file or a directory. -/
  marker : ∀ path, tree.IsScanned path → tree.fileType (path ++ [gitName]) ≠ none →
    tree.fileType (path ++ [gitName]) = some .directory ∨
      tree.fileType (path ++ [gitName]) = some .regularFile
  /-- The directories, their entries and the repositories keep to the limits. -/
  depth : ∀ path, tree.IsScanned path → path.length ≤ limits.maxDepth
  entries : ∀ paths : List RelativePath, paths.Nodup →
    (∀ path ∈ paths, ∃ parent name, path = parent ++ [name] ∧ tree.IsScanned parent ∧
      tree.fileType path ≠ none) → paths.length ≤ limits.maxScanEntries
  repositories : ∀ paths : List RelativePath, paths.Nodup →
    (∀ path ∈ paths, tree.IsRepository path) → paths.length ≤ limits.maxRepositories

/-- Paths that differ are no more than those they are among. -/
theorem length_le_of_subset {paths paths' : List RelativePath} (hnodup : paths.Nodup)
    (hsub : paths ⊆ paths') : paths.length ≤ paths'.length :=
  (hnodup.subperm hsub).length_le

/-- The end of a complete walk: with nothing pending every directory is finished, and the
candidates are the repositories of the tree.  A scanned directory is finished because its parent is
finished and closed, up to the root.  The bounds on the limits then follow by counting: distinct
paths of the tree are among those the walk has counted. -/
theorem Progress.completeDiscovery {limits : InspectionLimits} {finished : List RelativePath}
    (h : Progress tree limits scan finished t) (hempty : scan.pending = []) :
    CompleteDiscovery tree limits scan.candidates t := by
  have hfinished : ∀ path, tree.IsScanned path → path ∈ finished := fun _ hpath =>
    h.mem_finished hempty hpath
  have hcandidates : ∀ path, path ∈ scan.candidates ↔ tree.IsRepository path := by
    intro path
    rw [h.candidates]
    constructor
    · rintro ⟨hpath, hmarker⟩
      exact ⟨(h.read path hpath).1, h.marker path hpath hmarker⟩
    · rintro ⟨hpath, hmarker⟩
      refine ⟨hfinished path hpath, ?_⟩
      rcases hmarker with htype | htype <;> simp [htype]
  refine ⟨hcandidates, h.succeeded, fun path hpath => (h.read path (hfinished path hpath)).2,
    fun path hpath => h.marker path (hfinished path hpath),
    fun path hpath => h.depth path (hfinished path hpath), fun paths hnodup hpaths => ?_,
    fun paths hnodup hpaths => ?_⟩
  · obtain ⟨counted, hlength, hcounted⟩ := h.counted
    have hsub : paths ⊆ counted := by
      intro path hpath
      obtain ⟨parent, name, rfl, hparent, htype⟩ := hpaths path hpath
      exact hcounted parent (hfinished parent hparent) name htype
    have hle := length_le_of_subset hnodup hsub
    have hlimit := h.entryLimit
    omega
  · have hsub : paths ⊆ scan.candidates := fun path hpath =>
      (hcandidates path).mpr (hpaths path hpath)
    exact (length_le_of_subset hnodup hsub).trans h.repositoryLimit

/-- A discovery that returned: it has followed no link, and where it is complete it has found
everything.  The prologue of the discovery makes two calls of its own, neither of which follows a
link, and hands the root to the walk; the fuel given to the loop covers the measure at the start.
-/
theorem discover_complete {copyRoot : List UInt8} {discovery : Discovery} {scanned : ℕ}
    (h : Traces (discover copyRoot budget) t (.ok (discovery, scanned))) (hshows : Shows tree t) :
    (∀ exchange ∈ t, FollowsNoLink tree exchange.op) ∧
      (discovery.completeness = .complete →
        CompleteDiscovery tree budget.limits discovery.candidates t) := by
  obtain ⟨root, rest, rfl, h₁⟩ := traces_perform_bind.mp h
  cases root with
  | error _ => cases h₁.2
  | ok found =>
    cases found with
    | none => cases h₁.2
    | some rootIdentity =>
      obtain ⟨_, -, h₂⟩ := traces_lift_bind.mp h₁
      obtain ⟨duplicated, rest', rfl, h₃⟩ := traces_perform_bind.mp h₂
      obtain ⟨_, -, h₄⟩ := traces_lift_bind.mp h₃
      obtain ⟨scan, t₁, t₂, rfl, hwalk, h₅⟩ := traces_bind_ok.mp h₄
      obtain ⟨rfl, he⟩ := traces_pure.mp h₅
      cases he
      have hshows₁ : Shows tree t₁ := hshows.mono fun exchange hmem => by simp [hmem]
      have hstart : Scan.start.Real tree := fun next hmem => by
        rw [List.mem_singleton.mp hmem]
        exact ⟨tree.root, by simp⟩
      rw [List.append_nil]
      constructor
      · have hlinks := walk_links hwalk hshows₁ hstart
        exact List.forall_mem_cons.mpr ⟨trivial, List.forall_mem_cons.mpr ⟨trivial, hlinks⟩⟩
      · intro hcomplete
        have hbegin : Progress tree budget.limits .start [] [] := .start
        have hfuel : Scan.start.measure budget.limits ≤ budget.limits.maxScanEntries + 1 := by
          simp only [Scan.measure, Scan.start, List.length_singleton]
          omega
        obtain ⟨finished, hprogress, hempty⟩ :=
          walk_progress hwalk hshows₁ hcomplete hbegin hfuel
        have hdone := hprogress.completeDiscovery hempty
        refine ⟨fun path => ?_, ?_, fun path hpath => ?_, hdone.marker, hdone.depth, hdone.entries,
          hdone.repositories⟩
        · rw [← hdone.candidates]
          exact mem_sortDedup linearLe_namesLe
        · rw [List.forall_mem_cons, List.forall_mem_cons]
          refine ⟨?_, ?_, hdone.succeeded⟩
          · rintro ⟨⟩
          · rintro ⟨⟩
        · obtain ⟨entries, hnone, hmem⟩ := hdone.read path hpath
          exact ⟨entries, hnone, by simpa using hmem⟩

/-- What is said of the discovery of a whole run. -/
def DiscoveryRun (copyRoot : List UInt8) (limits : InspectionLimits) (t : List InspectExchange)
    (outcome : Except GitInspectionIssue GitInspection) : Prop :=
  ∃ inspection now found t₁ t₂, outcome = .ok inspection ∧ t = ⟨.now, now⟩ :: (t₁ ++ t₂) ∧
    Traces (discover copyRoot ⟨now + limits.totalTimeout, limits⟩) t₁ found ∧
    match found with
    | .error _ => inspection.discovery = .incomplete
    | .ok (discovery, _) =>
      (discovery.completeness = .incomplete → inspection.discovery = .incomplete) ∧
      ∀ tree, Shows tree t₁ → (∀ exchange ∈ t₁, FollowsNoLink tree exchange.op) ∧
        (discovery.completeness = .complete →
          CompleteDiscovery tree limits discovery.candidates t₁)

/-- **Discovery is complete or says that it is not.**  A discovery of a tree that does not
change follows no link; where it is complete its candidates are the repositories of the
tree, no call failed, every `.git` is a file or a directory, and no limit is exceeded; where
it fails or is not complete the inspection reports so. -/
theorem inspect_discovery_complete {expectedParent copyRoot : List UInt8}
    {environment : SourceEnvironment} {limits : InspectionLimits}
    {outcome : Except GitInspectionIssue GitInspection}
    (h : Traces (inspectWithOptions expectedParent copyRoot environment limits) t outcome) :
    DiscoveryRun copyRoot limits t outcome := by
  obtain ⟨concluded, now, found, t₁, t₂, rfl, rfl, hdiscover, h₂⟩ := inspectWithOptions_parts h
  refine ⟨concluded.finish, now, found, t₁, t₂, rfl, rfl, hdiscover, ?_⟩
  cases found with
  | error issue =>
    obtain ⟨-, rfl⟩ := h₂
    rfl
  | ok found =>
    obtain ⟨discovery, scanned⟩ := found
    refine ⟨fun hincomplete => ?_, fun tree hshows => discover_complete hdiscover hshows⟩
    change Traces (inspectDiscovery _ _ _ _ _ _) _ _ at h₂
    rw [inspectDiscovery, if_pos hincomplete] at h₂
    cases (traces_pure.mp h₂).2
    rfl

/-- The copy with a repository inside another, as a directory tree. -/
def nestedTree : DirectoryTree := ⟨nestedType, rfl, nestedType_parent⟩

/-- Its answers are those of the tree, call by call.  Each part of the agreement is read off the
table of entries that both the tree and the answers are built from. -/
theorem shows_nested {t : List InspectExchange}
    (h : ∀ exchange ∈ t, exchange.result = nestedAnswer exchange.op) : Shows nestedTree t where
  found := fun directory name identity hmem => by
    have hanswer : some identity = (nestedType (directory ++ [name])).map nestedIdentity := h _ hmem
    obtain ⟨fileType, hfound, rfl⟩ := Option.map_eq_some_iff.mp hanswer.symm
    refine hfound.trans (congrArg some ?_)
    have hkinds : ∀ entry ∈ nestedEntries, entry.2 = (nestedIdentity entry.2).fileType := by decide
    exact hkinds _ (mem_nestedEntries hfound)
  listed := fun directory entries hmem _ name hname => by
    have hanswer : some entries = some ((nestedNames directory).map some) := h _ hmem
    obtain ⟨fileType, hfound⟩ := Option.ne_none_iff_exists'.mp hname
    rw [Option.some.inj hanswer]
    refine List.mem_map_of_mem (List.mem_filterMap.mpr ⟨_, mem_nestedEntries hfound, ?_⟩)
    simp

/-- The run on this copy reads the tree, and reports a complete discovery: what the theorem says of
such a run holds of it. -/
theorem inspect_discovery_complete_nested : ∃ t,
    Shows nestedTree t ∧ DiscoveryRun [slash] nestedLimits t (.ok nestedInspection) ∧
    nestedInspection.discovery = .complete := by
  obtain ⟨t, htraces, hanswers⟩ := exists_nestedRun
  exact ⟨t, shows_nested hanswers, inspect_discovery_complete htraces, rfl⟩

end Git
end ThinWorkspace
