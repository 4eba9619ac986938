/-
# The configurations of a run

Source: as `Git/Sources.lean` and `Git/Preflight.lean`.  `ReadsConfigs` says that a run
found these configuration files: what is missing has no entries, and Git lists the entries
of the others.  Then the entries that the code keeps are those of the files, layer by layer:
`preflightSources_entries` and `configureRepository_entries`.
-/

import ThinWorkspace.Git.GitConfig

namespace ThinWorkspace
namespace Git

open ThinWorkspace.Core Ports Lib Lib.Fallible Lib.Program

variable {copyRoot : List UInt8} {budget : CooperativeBudget} {t t' : List InspectExchange}
  {files : List UInt8 → List GitEntry}

/-- The run found these configuration files: the entries of each path, none where there is
no file. -/
structure ReadsConfigs (copyRoot : List UInt8) (files : List UInt8 → List GitEntry)
    (t : List InspectExchange) : Prop where
  nullDevice : ∀ path, samePath path nullDevice = true → files path = []
  rootMissing : ∀ relative limit,
    (⟨.openRootFile relative limit, .error .noent⟩ : InspectExchange) ∈ t →
      files (copyPath copyRoot relative) = []
  absoluteMissing : ∀ path limit,
    (⟨.openAbsoluteFile path limit, .error .noent⟩ : InspectExchange) ∈ t → files path = []
  listed : ∀ cwd path environment gitDir timeout (output : GitQueryOutput),
    (⟨.collectCommand (gitCommand cwd (.config path) environment gitDir) timeout,
      some output⟩ : InspectExchange) ∈ t → output.exit.success = true →
      output.stdout = printConfig (files path)

/-- What a run reads of the configurations a part of it does. -/
theorem ReadsConfigs.mono (h : ReadsConfigs copyRoot files t') (hsub : t ⊆ t') :
    ReadsConfigs copyRoot files t where
  nullDevice := h.nullDevice
  rootMissing := fun relative limit hmem => h.rootMissing relative limit (hsub hmem)
  absoluteMissing := fun path limit hmem => h.absoluteMissing path limit (hsub hmem)
  listed := fun cwd path environment gitDir timeout output hmem =>
    h.listed cwd path environment gitDir timeout output (hsub hmem)

/-- So does its beginning. -/
theorem ReadsConfigs.left (h : ReadsConfigs copyRoot files (t ++ t')) :
    ReadsConfigs copyRoot files t := h.mono (List.subset_append_left _ _)

/-- So does its end. -/
theorem ReadsConfigs.right (h : ReadsConfigs copyRoot files (t ++ t')) :
    ReadsConfigs copyRoot files t' := h.mono (List.subset_append_right _ _)

/-! ### One file

A configuration that was parsed has the entries of the file at its path, because the command
that listed it was answered in this run. -/

/-- A query that succeeded had this output of its command. -/
theorem runBootstrap_mem {cwd : List UInt8} {query : GitQuery} {timeout : ℕ}
    {output : GitQueryOutput} (h : Traces (runBootstrap cwd query timeout) t (.ok output)) :
    (⟨.collectCommand (gitCommand cwd query .isolated none) timeout, some output⟩ :
      InspectExchange) ∈ t ∧ output.exit.success = true := by
  obtain ⟨_, t₁, t₂, rfl, -, h⟩ := traces_bind_ok.mp h
  obtain ⟨result, t₃, rfl, hlift⟩ := traces_perform_bind.mp h
  obtain ⟨-, hresult⟩ := traces_lift.mp hlift
  obtain ⟨rfl, hsuccess⟩ := mapQueryResult_ok hresult
  exact ⟨by simp, hsuccess⟩

/-- A configuration that was parsed has the entries of its file. -/
theorem parseConfigFile_entries {cwd path : List UInt8} {parsed : List ConfigEntry}
    (h : Traces (parseConfigFile cwd path budget) t (.ok parsed))
    (hreads : ReadsConfigs copyRoot files t) :
    Valued (files path) ∧ parsed = (files path).map GitEntry.parsed := by
  obtain ⟨timeout, t₁, t₂, rfl, -, h⟩ := traces_bind_ok.mp h
  obtain ⟨output, t₃, t₄, rfl, hrun, h⟩ := traces_bind_ok.mp h
  obtain ⟨_, -, h⟩ := traces_lift_bind.mp h
  obtain ⟨-, hparse⟩ := traces_lift.mp h
  obtain ⟨hmem, hsuccess⟩ := runBootstrap_mem hrun
  have hlisted := hreads.listed _ _ _ _ _ _
    (List.mem_append_right _ (List.mem_append_left _ hmem)) hsuccess
  rw [hlisted] at hparse
  exact parseConfigOutput_printConfig.mp hparse

/-- A configuration that is not there has no entries. -/
theorem readRootFile_none {relative : RelativePath} {limit : ℕ}
    (h : Traces (readRootFile copyRoot relative limit false) t (.ok none))
    (hreads : ReadsConfigs copyRoot files t) : files (copyPath copyRoot relative) = [] := by
  obtain ⟨answer, rest, rfl, hlift⟩ := traces_perform_bind.mp h
  obtain ⟨-, hanswer⟩ := traces_lift.mp hlift
  refine hreads.rootMissing relative limit ?_
  match answer with
  | .ok (_, _) => cases hanswer
  | .error .other => cases hanswer
  | .error .noent => exact List.mem_cons_self

/-- A file that is read is the one that was asked for. -/
theorem readRootFile_some {relative : RelativePath} {limit : ℕ} {required : Bool}
    {read : ReadEvidence}
    (h : Traces (readRootFile copyRoot relative limit required) t (.ok (some read))) :
    read.evidence.path = copyPath copyRoot relative := by
  obtain ⟨answer, rest, rfl, hlift⟩ := traces_perform_bind.mp h
  obtain ⟨-, hanswer⟩ := traces_lift.mp hlift
  match answer, required with
  | .ok (_, _), _ =>
    cases hanswer
    rfl
  | .error .other, _ => cases hanswer
  | .error .noent, true => cases hanswer
  | .error .noent, false => cases hanswer

/-- A configuration below the copy root, which need not be there.  A file that is absent has no
entries, and of one that is there the listing is read and parsed. -/
theorem readConfig_entries {relative : RelativePath}
    {found : Option (List ConfigEntry × FileEvidence)}
    (h : Traces (readConfig copyRoot relative budget) t (.ok found))
    (hreads : ReadsConfigs copyRoot files t) :
    Valued (files (copyPath copyRoot relative)) ∧
      (found.map (·.1)).getD [] = (files (copyPath copyRoot relative)).map GitEntry.parsed := by
  obtain ⟨read, t₁, t₂, rfl, hread, h⟩ := traces_bind_ok.mp h
  cases read with
  | none =>
    have hmissing := readRootFile_none hread hreads.left
    obtain ⟨-, he⟩ := traces_pure.mp h
    cases he
    rw [hmissing]
    exact ⟨by simp [Valued], rfl⟩
  | some read =>
    obtain ⟨parsed, t₃, t₄, rfl, hparsed, h⟩ := traces_bind_ok.mp h
    obtain ⟨-, he⟩ := traces_pure.mp h
    cases he
    rw [readRootFile_some hread] at hparsed
    exact parseConfigFile_entries hparsed hreads.right.left

/-! ### The layers of a repository

The configuration of a repository is put together from two files at most.  Whether the
second one is read depends on the entries of the first. -/

/-- The code reads the configuration of the work tree. -/
def layersWorktree (common : List GitEntry) : Bool :=
  if lastValue common worktreeConfigKey = some (some []) then true
  else lastIsTrue common worktreeConfigKey

/-- The entries the code reads: global, common, and those of the worktree where the extension is
on. -/
def layeredEntries (global common worktree : List GitEntry) : List GitEntry :=
  global ++ common ++ if layersWorktree common then worktree else []

/-- The configuration of a repository is assembled from its files.  The common file comes first,
then the one of the worktree where the extension asks for it, and each is appended to what was read
before. -/
theorem assembleConfig_entries {gitDir commonDir : RelativePath} {global : List GitEntry}
    {evidence evidence' : List FileEvidence} {entries : List ConfigEntry}
    (h : Traces (assembleConfig copyRoot gitDir commonDir (global.map GitEntry.parsed) budget
      evidence) t (.ok (entries, evidence')))
    (hreads : ReadsConfigs copyRoot files t) :
    entries = (layeredEntries global (files (copyPath copyRoot (commonConfig commonDir)))
      (files (copyPath copyRoot (worktreeConfig gitDir)))).map GitEntry.parsed := by
  obtain ⟨common, t₁, t₂, rfl, hcommon, h⟩ := traces_bind_ok.mp h
  obtain ⟨hvalued, hentries⟩ := readConfig_entries hcommon hreads.left
  rw [layeredEntries, List.map_append, List.map_append, ← hentries]
  cases common with
  | none =>
    obtain ⟨-, he⟩ := traces_pure.mp h
    cases he
    have hnil : files (copyPath copyRoot (commonConfig commonDir)) = [] := by
      simpa using hentries.symm
    simp [hnil, layersWorktree, lastValue, lastIsTrue]
  | some common =>
    obtain ⟨commonEntries, item⟩ := common
    replace hentries : commonEntries = _ := hentries
    rw [Option.map_some, Option.getD_some]
    obtain ⟨layered, hlayered, h⟩ := traces_lift_bind.mp h
    have hlayers : layered =
        layersWorktree (files (copyPath copyRoot (commonConfig commonDir))) := by
      rw [hentries] at hlayered
      exact effectiveConfigBool_parsed hvalued hlayered
    rw [← hlayers]
    split at h
    · rename_i htrue
      rw [htrue, if_pos rfl]
      obtain ⟨worktree, t₃, t₄, rfl, hworktree, h⟩ := traces_bind_ok.mp h
      obtain ⟨-, hworktree⟩ := readConfig_entries hworktree hreads.right.left
      rw [← hworktree]
      cases worktree with
      | none =>
        obtain ⟨-, he⟩ := traces_pure.mp h
        cases he
        simp
      | some worktree =>
        obtain ⟨-, he⟩ := traces_pure.mp h
        cases he
        rfl
    · rename_i hfalse
      obtain ⟨-, he⟩ := traces_pure.mp h
      cases he
      simp [hfalse]

/-- What a configuration that was accepted went through. -/
theorem configureRepository_accepts {gitDir commonDir : RelativePath} {global : List ConfigEntry}
    {environment : SourceEnvironment} {evidence evidence' : List FileEvidence}
    {entries : List ConfigEntry} {drivers : List (List UInt8)}
    (h : Traces (configureRepository copyRoot gitDir commonDir global environment budget
      evidence) t (.ok (entries, drivers, evidence'))) :
    (∃ evidence₁, Ran (assembleConfig copyRoot gitDir commonDir global budget evidence)
      (.ok (entries, evidence₁)) t) ∧
      filterDrivers entries = .ok drivers ∧
      ∃ evidence₁, Ran (validateEffectiveUserAttributes entries environment budget evidence₁)
        (.ok evidence') t := by
  obtain ⟨⟨found, evidence₁⟩, t₁, t₂, rfl, hassemble, h⟩ := traces_bind_ok.mp h
  obtain ⟨_, -, h⟩ := traces_lift_bind.mp h
  obtain ⟨drivers', hdrivers, h⟩ := traces_lift_bind.mp h
  obtain ⟨evidence₂, t₃, t₄, rfl, hattributes, h⟩ := traces_bind_ok.mp h
  obtain ⟨-, he⟩ := traces_pure.mp h
  cases he
  exact ⟨⟨evidence₁, hassemble.ran.left⟩, hdrivers, evidence₁, hattributes.ran.left.right⟩

/-- **The configuration of a repository** is that of its layers. -/
theorem configureRepository_entries {gitDir commonDir : RelativePath} {global : List GitEntry}
    {environment : SourceEnvironment} {evidence evidence' : List FileEvidence}
    {entries : List ConfigEntry} {drivers : List (List UInt8)}
    (h : Traces (configureRepository copyRoot gitDir commonDir (global.map GitEntry.parsed)
      environment budget evidence) t (.ok (entries, drivers, evidence')))
    (hreads : ReadsConfigs copyRoot files t) :
    entries = (layeredEntries global (files (copyPath copyRoot (commonConfig commonDir)))
      (files (copyPath copyRoot (worktreeConfig gitDir)))).map GitEntry.parsed := by
  obtain ⟨⟨evidence₁, part, hpart, hassemble⟩, -, -⟩ := configureRepository_accepts h
  exact assembleConfig_entries hassemble (hreads.mono hpart.subset)

/-- A part that returned, counted or not. -/
theorem traces_uncounted {α : Type} {scanned : ℕ} {part : Inspect α} {a : α} :
    Traces (uncounted scanned part) t (.ok a) ↔ Traces part t (.ok a) := by
  rw [uncounted, traces_mapError]
  constructor
  · rintro ⟨result, he, h⟩
    rw [mapError_ok he.symm] at h
    exact h
  · exact fun h => ⟨.ok a, rfl, h⟩

/-- The directories and the configuration of a repository that was prepared.  The repository is
located, its configuration assembled and its contents checked, and what is returned names the
directories of the first step. -/
theorem preflightRepository_config {discovery : Discovery} {relative : RelativePath}
    {global : GlobalContext} {environment : SourceEnvironment} {scanned scanned' : ℕ}
    {repository : PreparedRepository}
    (h : Traces (preflightRepository copyRoot discovery relative global environment budget
      scanned) t (.ok (repository, scanned'))) :
    ∃ located evidence entries evidence',
      Ran (locateRepository copyRoot relative global budget.limits) (.ok located) t ∧
      repository.gitDir = copyPath copyRoot located.gitDir ∧
      repository.commonDir = copyPath copyRoot located.commonDir ∧
      Ran (configureRepository copyRoot located.gitDir located.commonDir global.entries
        environment budget evidence) (.ok (entries, repository.filterDrivers, evidence')) t := by
  obtain ⟨located, t₁, t₂, rfl, hlocate, h⟩ := traces_bind_ok.mp h
  obtain ⟨scanned₁, t₃, t₄, rfl, -, h⟩ := traces_bind_ok.mp h
  obtain ⟨⟨index, evidence⟩, t₅, t₆, rfl, -, h⟩ := traces_bind_ok.mp h
  obtain ⟨⟨entries, drivers, evidence'⟩, t₇, t₈, rfl, hconfigure, h⟩ := traces_bind_ok.mp h
  obtain ⟨evidence₁, t₉, t₁₀, rfl, -, h⟩ := traces_bind_ok.mp h
  obtain ⟨-, he⟩ := traces_pure.mp h
  cases he
  exact ⟨located, evidence, entries, evidence', (traces_uncounted.mp hlocate).ran.left, rfl, rfl,
    (traces_uncounted.mp hconfigure).ran.left.right.right.right⟩

/-! ### The global sources

The same for the sources that hold for every repository, in the order in which they were
selected. -/

/-- A source that is not there has no entries. -/
theorem readAbsoluteFile_none {path : List UInt8} {limit : ℕ}
    (h : Traces (readAbsoluteFile path limit false) t (.ok none))
    (hreads : ReadsConfigs copyRoot files t) : files path = [] := by
  obtain ⟨_, -, h⟩ := traces_lift_bind.mp h
  obtain ⟨answer, rest, rfl, hlift⟩ := traces_perform_bind.mp h
  obtain ⟨-, hanswer⟩ := traces_lift.mp hlift
  refine hreads.absoluteMissing path limit ?_
  match answer with
  | .ok (_, _) => cases hanswer
  | .error .other => cases hanswer
  | .error .noent => exact List.mem_cons_self

/-- The sources are read in their order.  The induction is on the sources. -/
theorem readSources_entries {sources : List (List UInt8)} {global global' : GlobalContext}
    (h : Traces (readSources copyRoot budget sources global) t (.ok global'))
    (hreads : ReadsConfigs copyRoot files t) :
    global'.entries = global.entries ++ (sources.flatMap files).map GitEntry.parsed := by
  induction sources generalizing global t with
  | nil =>
    obtain ⟨-, he⟩ := traces_pure.mp h
    cases he
    simp
  | cons source sources ih =>
    rw [List.flatMap_cons, List.map_append]
    obtain ⟨_, t₁, t₂, rfl, -, h⟩ := traces_bind_ok.mp h
    split at h
    · rename_i hnull
      rw [hreads.nullDevice source hnull]
      simpa using ih h hreads.right
    · obtain ⟨found, t₃, t₄, rfl, hfound, h⟩ := traces_bind_ok.mp h
      cases found with
      | none =>
        rw [readAbsoluteFile_none hfound hreads.right.left]
        simpa using ih h hreads.right.right
      | some read =>
        obtain ⟨parsed, t₅, t₆, rfl, hparsed, h⟩ := traces_bind_ok.mp h
        obtain ⟨-, rfl⟩ := parseConfigFile_entries hparsed hreads.right.right.left
        have hrest := ih h hreads.right.right.right
        rw [hrest, List.append_assoc]

/-- **The global entries** are those of the sources that were selected. -/
theorem preflightSources_entries {expectedParent : List UInt8} {environment : SourceEnvironment}
    {global : GlobalContext}
    (h : Traces (preflightSources expectedParent copyRoot environment budget) t (.ok global))
    (hreads : ReadsConfigs copyRoot files t) :
    ∃ runtimePrefix sources,
      Ran (selectSources expectedParent copyRoot environment budget)
        (.ok (runtimePrefix, sources)) t ∧
      global.entries = (sources.flatMap files).map GitEntry.parsed := by
  obtain ⟨⟨runtimePrefix, sources⟩, t₁, t₂, rfl, hselect, h⟩ := traces_bind_ok.mp h
  obtain ⟨found, t₃, t₄, rfl, hsources, h⟩ := traces_bind_ok.mp h
  obtain ⟨evidence, t₅, t₆, rfl, -, h⟩ := traces_bind_ok.mp h
  obtain ⟨_, t₇, t₈, rfl, -, h⟩ := traces_bind_ok.mp h
  obtain ⟨_, -, h⟩ := traces_lift_bind.mp h
  obtain ⟨-, he⟩ := traces_pure.mp h
  cases he
  have hentries := readSources_entries hsources hreads.right.left
  exact ⟨runtimePrefix, sources, hselect.ran.left, by simpa using hentries⟩

end Git
end ThinWorkspace
