/-
# The layers of a configuration

Source: as `Git/Preflight.lean`.  A repository that was accepted is configured from its
global sources, its own configuration and, where the code takes
`extensions.worktreeConfig` for true, that of its work tree; the attributes file of the user
is the last one named, or the default one.

`layering_iff` compares what the code validates with what Git uses.  Two values part them:
the code takes an empty `extensions.worktreeConfig` for true, which Git takes for false
(`layeredEntries_iff`), and it takes the path after `~/` for absolute where it begins with
another separator, which Git leaves below the home directory (`userAttributesSource_iff`).
-/

import ThinWorkspace.Git.ConfigRun

namespace ThinWorkspace
namespace Git

open ThinWorkspace.Core Ports Lib Lib.Fallible Lib.Program Lib.Lexicographic

/-! ### The attributes file of the user

A value names a file below the home directory or by its own path, and where nothing is
configured there is a default.  Git and the code agree on the file in all cases but one, a
value whose rest behind `~/` is absolute. -/

/-- The path that Git makes of a path value.  `~/` stands for the home directory; the other
values that are not absolute, which Git completes in other ways, the code refuses. -/
def gitExpand (home : Option (List UInt8)) (value : List UInt8) : Option (List UInt8) :=
  if (ascii "~/").isPrefixOf value then home.map fun home => home ++ value.drop 1
  else if isAbsolute value then some value
  else none

/-- The attributes file of the user that Git reads: the last value of `core.attributesFile`,
or else the file of the configuration directory. -/
def gitAttributesFile (entries : List GitEntry) (environment : SourceEnvironment) :
    Option (List UInt8) :=
  match lastValue entries attributesFileKey with
  | some value => value.bind (gitExpand environment.home)
  | none =>
    match environment.xdgConfigHome.filter (· ≠ []) with
    | some xdg => some (xdg ++ ascii "/git/attributes")
    | none => environment.home.map fun home => home ++ ascii "/.config/git/attributes"

/-- The directory is the root, or empty and then taken for it. -/
def IsRoot (path : List UInt8) : Prop := path = [] ∨ components path = [.rootDir]

/-- The path of a file that the code takes for absolute is absolute.  A relative path has no root
among its components, so its components cannot begin with it. -/
theorem isAbsolute_of_isAbsoluteFile {path : List UInt8} (h : isAbsoluteFile path = true) :
    isAbsolute path = true := by
  by_contra hrel
  rw [isAbsoluteFile, components_eq, if_neg hrel] at h
  split at h
  · rename_i rest heq
    split at heq
    · cases heq
    · rw [List.nil_append] at heq
      have hroot : Component.rootDir ∈ (kernelComponents path).filterMap parseSingleComponent := by
        rw [heq]
        exact List.mem_cons_self
      obtain ⟨part, -, hpart⟩ := List.mem_filterMap.mp hroot
      rw [parseSingleComponent] at hpart
      split at hpart
      · cases hpart
      · split at hpart <;> cases hpart
  · cases h

/-- A relative path joined is one after a separator. -/
theorem components_pathJoin {path part : List UInt8} (h : path ≠ [])
    (hrel : isAbsolute part = false) :
    components (pathJoin path part) = components (path ++ slash :: part) := by
  rw [pathJoin, if_neg (by simp [hrel])]
  by_cases hlast : path.getLast? = some slash
  · rw [if_pos (.inr hlast)]
    obtain ⟨front, rfl⟩ := List.getLast?_eq_some_iff.mp hlast
    have hdouble := components_double_slash front part
    simpa using hdouble.symm
  · rw [if_neg (by simp [h, hlast])]

/-- Joining to an empty path leaves the joined part. -/
theorem pathJoin_nil (part : List UInt8) : pathJoin [] part = part := by
  rw [pathJoin]
  split
  · rfl
  · rw [if_pos (.inl rfl), List.nil_append]

/-- An absolute path after a separator is itself only after the root. -/
theorem components_absolute_iff {home part : List UInt8} (h : isAbsolute part = true) :
    components (home ++ slash :: part) = components part ↔ IsRoot home := by
  by_cases hnil : home = []
  · obtain ⟨rest, rfl⟩ : ∃ rest, part = slash :: rest := by
      rw [isAbsolute, beq_iff_eq] at h
      exact List.head?_eq_some_iff.mp h
    have hdouble := components_double_slash [] rest
    simpa [hnil, IsRoot] using hdouble
  · rw [components_append_slash hnil, components_of_isAbsolute h, IsRoot, or_iff_right hnil]
    constructor
    · intro he
      exact List.append_cancel_right (he.trans (List.singleton_append).symm)
    · intro he
      rw [he]
      rfl

/-- The code expands a value as Git does, up to repeated separators, unless what follows
`~/` is absolute and the home directory is not the root. -/
theorem resolveAttributesSource_iff {environment : SourceEnvironment} {value path : List UInt8}
    (h : resolveAttributesSource environment value = .ok path)
    (hfile : isAbsoluteFile path = true) :
    (gitExpand environment.home value).map components = some (components path) ↔
      ∀ home rest, environment.home = some home → value = ascii "~//" ++ rest → IsRoot home := by
  have habsolute := isAbsolute_of_isAbsoluteFile hfile
  rw [resolveAttributesSource] at h
  split at h
  · rename_i htilde
    obtain ⟨tail, rfl⟩ := List.head?_eq_some_iff.mp htilde
    split at h
    · cases h
    · rename_i hslash
      obtain ⟨rest, rfl⟩ : ∃ rest, tail = slash :: rest := by
        rw [not_not] at hslash
        cases tail with
        | nil => cases hslash
        | cons first rest => exact ⟨rest, by simpa using hslash⟩
      split at h
      · cases h
      · rename_i home hhome
        cases h
        have hexpand : gitExpand (some home) (126 :: slash :: rest) =
            some (home ++ slash :: rest) := by
          rw [gitExpand, if_pos (by rfl)]
          rfl
        rw [hhome, hexpand, Option.map_some, Option.some.injEq]
        show components (home ++ slash :: rest) = components (pathJoin home rest) ↔ _
        by_cases hrest : isAbsolute rest = true
        · rw [pathJoin, if_pos hrest, components_absolute_iff hrest]
          obtain ⟨after, rfl⟩ : ∃ after, rest = slash :: after := by
            rw [isAbsolute, beq_iff_eq] at hrest
            exact List.head?_eq_some_iff.mp hrest
          constructor
          · rintro hroot home' rest' he -
            cases he
            exact hroot
          · intro hall
            exact hall home after rfl rfl
        · rw [Bool.not_eq_true] at hrest
          have hne : home ≠ [] := by
            rintro rfl
            have hjoin : pathJoin [] ((126 :: slash :: rest).drop 2) = rest := pathJoin_nil rest
            rw [hjoin, hrest] at habsolute
            cases habsolute
          refine iff_of_true (components_pathJoin hne hrest).symm fun home' rest' _ he => ?_
          have hafter : rest = slash :: rest' := (List.cons.inj (List.cons.inj he).2).2
          rw [hafter] at hrest
          cases hrest
  · rename_i htilde
    split at h
    · rename_i habs
      cases h
      have hplain : gitExpand environment.home value = some value := by
        rw [gitExpand, if_neg, if_pos habs]
        rw [List.isPrefixOf_iff_prefix]
        rintro ⟨rest, rfl⟩
        exact htilde rfl
      rw [hplain]
      refine iff_of_true rfl fun home rest _ he => ?_
      rw [he] at htilde
      exact absurd rfl htilde
    · cases h


/-- Joining two relative parts one after the other names the same file as joining their text,
whatever separators are repeated.  Joining puts a separator between two parts only where there is
none, and separators in a row count as one. -/
theorem components_pathJoin_pathJoin {home name part : List UInt8} (hhome : home ≠ [])
    (hname : isAbsolute name = false) (hpart : isAbsolute part = false) :
    components (pathJoin (pathJoin home name) part) =
      components (home ++ slash :: (name ++ slash :: part)) := by
  have hne : pathJoin home name ≠ [] := by
    rw [pathJoin, if_neg (by simp [hname])]
    split <;> simp [hhome]
  have hjoined : home ++ slash :: name ≠ [] := List.append_ne_nil_of_left_ne_nil hhome _
  calc components (pathJoin (pathJoin home name) part)
      = components (pathJoin home name ++ slash :: part) := components_pathJoin hne hpart
    _ = components (pathJoin home name) ++
          (kernelComponents part).filterMap parseSingleComponent :=
        components_append_slash hne part
    _ = components (home ++ slash :: name) ++
          (kernelComponents part).filterMap parseSingleComponent := by
        rw [components_pathJoin hhome hname]
    _ = components (home ++ slash :: name ++ slash :: part) :=
        (components_append_slash hjoined part).symm
    _ = components (home ++ slash :: (name ++ slash :: part)) := by
        rw [List.append_assoc, List.cons_append]

/-- The file where nothing is configured is that of Git.  The cases are those of the source: the
XDG directory, else the one below the home directory, else none. -/
theorem defaultUserAttributes_eq {entries : List GitEntry} {environment : SourceEnvironment}
    (hlast : lastValue entries attributesFileKey = none)
    (hfile : ∀ path ∈ defaultUserAttributes environment, isAbsoluteFile path = true) :
    (gitAttributesFile entries environment).map components =
      (defaultUserAttributes environment).map components := by
  rw [gitAttributesFile, hlast]
  rw [defaultUserAttributes] at hfile ⊢
  cases hxdg : environment.xdgConfigHome with
  | some xdg =>
    rw [hxdg, Option.some_or, Option.map_some] at hfile
    have hne : xdg ≠ [] := by
      rintro rfl
      exact absurd (isAbsolute_of_isAbsoluteFile (hfile _ rfl)) (by decide)
    have hjoin : components (pathJoin xdg (ascii "git/attributes")) =
        components (xdg ++ slash :: ascii "git/attributes") := components_pathJoin hne (by decide)
    have hset : (some xdg).filter (· ≠ []) = some xdg := by simp [hne]
    simp only [Option.some_or, hset, Option.map_some, hjoin]
    rfl
  | none =>
    rw [hxdg, Option.none_or] at hfile
    rw [Option.none_or]
    cases hhome : environment.home with
    | none => rfl
    | some home =>
      rw [hhome, Option.map_some, Option.map_some] at hfile
      have hne : home ≠ [] := by
        rintro rfl
        exact absurd (isAbsolute_of_isAbsoluteFile (hfile _ rfl)) (by decide)
      have hjoin : components
          (pathJoin (pathJoin home (ascii ".config")) (ascii "git/attributes")) =
          components (home ++ slash :: (ascii ".config" ++ slash :: ascii "git/attributes")) :=
        components_pathJoin_pathJoin hne (by decide) (by decide)
      simp only [Option.map_some, Option.filter_none, hjoin]
      rfl

/-- **The attributes file of the code** is that of Git, up to repeated separators, unless
the last value is a home directory, which is not the root, before an absolute path. -/
theorem userAttributesSource_iff {entries : List GitEntry} {environment : SourceEnvironment}
    {source : Option (List UInt8 × Bool)}
    (h : userAttributesSource (entries.map GitEntry.parsed) environment = .ok source)
    (hfile : ∀ file ∈ source, isAbsoluteFile file.1 = true) :
    (gitAttributesFile entries environment).map components =
        source.map (fun file => components file.1) ↔
      ∀ home rest, environment.home = some home →
        lastValue entries attributesFileKey = some (some (ascii "~//" ++ rest)) → IsRoot home := by
  have hlast := lastConfigEntry_parsed entries attributesFileKey
  rw [userAttributesSource] at h
  cases hvalue : lastValue entries attributesFileKey with
  | none =>
    rw [hvalue, Option.map_none, Option.map_eq_none_iff] at hlast
    rw [hlast] at h
    have hsource : source = (defaultUserAttributes environment).map fun path => (path, false) :=
      (Except.ok.inj h).symm
    refine iff_of_true ?_ fun _ _ _ he => nomatch he
    rw [defaultUserAttributes_eq hvalue fun path hpath => ?_, hsource, Option.map_map]
    · rfl
    · exact hfile (path, false) (hsource ▸ Option.mem_map_of_mem _ hpath)
  | some value =>
    rw [hvalue, Option.map_some] at hlast
    obtain ⟨entry, hentry, hget⟩ := Option.map_eq_some_iff.mp hlast
    rw [hentry] at h
    replace h : (resolveAttributesSource environment entry.value).map
        (fun path => some (path, true)) = .ok source := h
    obtain ⟨path, hpath, rfl⟩ := map_ok h
    rw [gitAttributesFile, hvalue]
    cases value with
    | none =>
      replace hget : entry.value = [] := hget
      rw [hget] at hpath
      cases hpath
    | some text =>
      replace hget : entry.value = text := hget
      rw [hget] at hpath
      have hresolve := resolveAttributesSource_iff hpath (hfile (path, true) rfl)
      simpa using hresolve

/-! ### The layering

What is validated for a repository is compared with what Git uses: the entries of its
layers, and the attributes file of the user.  `Configured` ties both to a run of
`configure_repository`. -/

variable {copyRoot expectedParent : List UInt8} {budget : CooperativeBudget}
  {environment : SourceEnvironment} {t t₀ : List InspectExchange}
  {files : List UInt8 → List GitEntry}

/-- What a run validates for a repository: its entries, and the attributes file of the user
with whether it has to be there. -/
structure Validates (environment : SourceEnvironment) (budget : CooperativeBudget)
    (t : List InspectExchange) (drivers : List (List UInt8)) (entries : List ConfigEntry)
    (source : Option (List UInt8 × Bool)) : Prop where
  valid : validateConfigEntries entries = .ok ()
  guarded : filterDrivers entries = .ok drivers
  resolved : userAttributesSource entries environment = .ok source
  read : ∀ file ∈ source, ∃ found,
    Ran (readAbsoluteFile file.1 budget.limits.maxTextBytes file.2) (.ok found) t ∧
      ∀ read ∈ found, validateAttributes read.contents = .ok ()

/-- The entries and the attributes file are those of Git. -/
structure UsesGit (environment : SourceEnvironment) (git : List GitEntry)
    (entries : List ConfigEntry) (source : Option (List UInt8 × Bool)) : Prop where
  entries : entries = git.map GitEntry.parsed
  attributes : (gitAttributesFile git environment).map components =
    source.map fun file => components file.1

/-- An empty last value of `extensions.worktreeConfig` does not stand beside a
configuration of the work tree, and the last value of `core.attributesFile` is not a home
directory, which is not the root, before an absolute path. -/
structure LayersAsGit (environment : SourceEnvironment) (git common worktree : List GitEntry) :
    Prop where
  layered : lastValue common worktreeConfigKey = some (some []) → worktree = []
  expanded : ∀ home rest, environment.home = some home →
    lastValue git attributesFileKey = some (some (ascii "~//" ++ rest)) → IsRoot home

/-- What was validated in a part of a run was validated in the run. -/
theorem Validates.mono {t' : List InspectExchange} {drivers : List (List UInt8)}
    {entries : List ConfigEntry} {source : Option (List UInt8 × Bool)}
    (h : Validates environment budget t drivers entries source) (hsub : t <:+: t') :
    Validates environment budget t' drivers entries source where
  valid := h.valid
  guarded := h.guarded
  resolved := h.resolved
  read := fun file hfile => by
    obtain ⟨found, hread, hvalid⟩ := h.read file hfile
    exact ⟨found, hread.mono hsub, hvalid⟩

/-- A file is read by its absolute path only: other paths are refused before a call is made. -/
theorem readAbsoluteFile_isAbsoluteFile {path : List UInt8} {limit : ℕ} {required : Bool}
    {found : Option ReadEvidence}
    (h : Traces (readAbsoluteFile path limit required) t (.ok found)) :
    isAbsoluteFile path = true := by
  obtain ⟨_, hfile, -⟩ := traces_lift_bind.mp h
  simpa using refuseIf_ok hfile

/-- What a configuration that was accepted went through: its filter drivers, its entries and the
attributes file of the user were validated in the run. -/
theorem configureRepository_validates {gitDir commonDir : RelativePath} {global : List ConfigEntry}
    {evidence evidence' : List FileEvidence} {entries : List ConfigEntry}
    {drivers : List (List UInt8)}
    (h : Traces (configureRepository copyRoot gitDir commonDir global environment budget
      evidence) t (.ok (entries, drivers, evidence'))) :
    ∃ source, Validates environment budget t drivers entries source := by
  obtain ⟨⟨found, evidence₁⟩, t₁, t₂, rfl, hassemble, h⟩ := traces_bind_ok.mp h
  obtain ⟨_, hentries, h⟩ := traces_lift_bind.mp h
  obtain ⟨drivers', hdrivers, h⟩ := traces_lift_bind.mp h
  obtain ⟨evidence₂, t₃, t₄, rfl, hattributes, h⟩ := traces_bind_ok.mp h
  obtain ⟨-, he⟩ := traces_pure.mp h
  cases he
  obtain ⟨_, t₅, t₆, rfl, -, hattributes⟩ := traces_bind_ok.mp hattributes
  obtain ⟨source, hsource, hread⟩ := traces_lift_bind.mp hattributes
  refine ⟨source, hentries, hdrivers, hsource, fun file hfile => ?_⟩
  obtain rfl : source = some file := hfile
  obtain ⟨found, t₇, t₈, rfl, hfound, h⟩ := traces_bind_ok.mp hread
  refine ⟨found, hfound.ran.left.right.left.right, fun read hread => ?_⟩
  obtain rfl : found = some read := hread
  obtain ⟨_, hvalid, -⟩ := traces_lift_bind.mp h
  exact hvalid

/-- The entries the code reads are those of Git unless an empty value turns the
configuration of the work tree on. -/
theorem layeredEntries_iff {global common worktree : List GitEntry} :
    (layeredEntries global common worktree).map GitEntry.parsed =
        (gitEntries global common worktree).map GitEntry.parsed ↔
      (lastValue common worktreeConfigKey = some (some []) → worktree = []) := by
  rw [layeredEntries, gitEntries, layersWorktree]
  by_cases hempty : lastValue common worktreeConfigKey = some (some [])
  · have hfalse : lastIsTrue common worktreeConfigKey = false := by
      rw [lastIsTrue, hempty]
      rfl
    simp [hempty, hfalse]
  · simp [hempty]

section Preflight

variable {discovery : Discovery} {relative : RelativePath} {global : GlobalContext}
  {scanned scanned' : ℕ} {repository : PreparedRepository}

/-- In the run these entries were configured for the repository, from the entries of the sources
and its own files. -/
def Configured (copyRoot : List UInt8) (located : Located) (global : GlobalContext)
    (environment : SourceEnvironment) (budget : CooperativeBudget) (t : List InspectExchange)
    (drivers : List (List UInt8)) (entries : List ConfigEntry) : Prop :=
  ∃ evidence evidence', Ran (configureRepository copyRoot located.gitDir located.commonDir
    global.entries environment budget evidence) (.ok (entries, drivers, evidence')) t

/-- What is validated for a repository that was accepted.  The sources were selected before, the
repository is located, its configuration is listed and read, and what is validated are the entries
of all of them in their order. -/
theorem preflightRepository_layers
    (hglobal : Traces (preflightSources expectedParent copyRoot environment budget) t₀
      (.ok global))
    (h : Traces (preflightRepository copyRoot discovery relative global environment budget
      scanned) t (.ok (repository, scanned')))
    (hreads : ReadsConfigs copyRoot files (t₀ ++ t)) :
    ∃ runtimePrefix sources located entries source,
      Ran (selectSources expectedParent copyRoot environment budget)
        (.ok (runtimePrefix, sources)) t₀ ∧
      Ran (locateRepository copyRoot relative global budget.limits) (.ok located) t ∧
      Configured copyRoot located global environment budget t repository.filterDrivers entries ∧
      Validates environment budget t repository.filterDrivers entries source ∧
      entries = (layeredEntries (sources.flatMap files)
        (files (copyPath copyRoot (commonConfig located.commonDir)))
        (files (copyPath copyRoot (worktreeConfig located.gitDir)))).map GitEntry.parsed := by
  obtain ⟨runtimePrefix, sources, hselect, hentries⟩ := preflightSources_entries hglobal
    hreads.left
  obtain ⟨located, evidence, entries, evidence', hlocate, -, -, hran⟩ :=
    preflightRepository_config h
  have hconfigured : Configured copyRoot located global environment budget t
      repository.filterDrivers entries := ⟨evidence, evidence', hran⟩
  obtain ⟨part, hpart, hconfigure⟩ := hran
  rw [hentries] at hconfigure
  obtain ⟨source, hvalidates⟩ := configureRepository_validates hconfigure
  have hlayered := configureRepository_entries hconfigure (hreads.right.mono hpart.subset)
  exact ⟨runtimePrefix, sources, located, entries, source, hselect, hlocate,
    hconfigured, hvalidates.mono hpart, hlayered⟩

/-- A repository that was accepted in two runs, that of the global sources and its own, is
configured as Git configures it exactly when it has no value that Git reads otherwise. -/
def LayeringAgrees (expectedParent copyRoot : List UInt8) (environment : SourceEnvironment)
    (budget : CooperativeBudget) (files : List UInt8 → List GitEntry) (relative : RelativePath)
    (global : GlobalContext) (t₀ t : List InspectExchange) (repository : PreparedRepository) :
    Prop :=
  ∃ runtimePrefix sources located entries source common worktree git,
    Ran (selectSources expectedParent copyRoot environment budget)
      (.ok (runtimePrefix, sources)) t₀ ∧
    Ran (locateRepository copyRoot relative global budget.limits) (.ok located) t ∧
    common = files (copyPath copyRoot (commonConfig located.commonDir)) ∧
    worktree = files (copyPath copyRoot (worktreeConfig located.gitDir)) ∧
    git = gitEntries (sources.flatMap files) common worktree ∧
    Configured copyRoot located global environment budget t repository.filterDrivers entries ∧
    Validates environment budget t repository.filterDrivers entries source ∧
    (UsesGit environment git entries source ↔ LayersAsGit environment git common worktree)

/-- **The configuration that is validated** is the one Git uses, exactly where no empty
`extensions.worktreeConfig` stands beside a configuration of the work tree and no
`core.attributesFile` is a home directory before an absolute path. -/
theorem layering_iff
    (hglobal : Traces (preflightSources expectedParent copyRoot environment budget) t₀
      (.ok global))
    (h : Traces (preflightRepository copyRoot discovery relative global environment budget
      scanned) t (.ok (repository, scanned')))
    (hreads : ReadsConfigs copyRoot files (t₀ ++ t)) :
    LayeringAgrees expectedParent copyRoot environment budget files relative global t₀ t
      repository := by
  obtain ⟨runtimePrefix, sources, located, entries, source, hselect, hlocate, hconfigured,
    hvalidates, hlayered⟩ := preflightRepository_layers hglobal h hreads
  refine ⟨runtimePrefix, sources, located, entries, source, _, _, _, hselect, hlocate, rfl, rfl,
    rfl, hconfigured, hvalidates, ?_⟩
  have hfile : ∀ file ∈ source, isAbsoluteFile file.1 = true := fun file hfile => by
    obtain ⟨found, ⟨part', -, hread⟩, -⟩ := hvalidates.read file hfile
    exact readAbsoluteFile_isAbsoluteFile hread
  constructor
  · rintro ⟨hgit, hattributes⟩
    refine ⟨layeredEntries_iff.mp (hlayered.symm.trans hgit), ?_⟩
    exact (userAttributesSource_iff (hgit ▸ hvalidates.resolved) hfile).mp hattributes
  · rintro ⟨hlayers, hexpanded⟩
    have hgit := hlayered.trans (layeredEntries_iff.mpr hlayers)
    exact ⟨hgit, (userAttributesSource_iff (hgit ▸ hvalidates.resolved) hfile).mpr hexpanded⟩

end Preflight

/-! ### A run

One repository at the root of a copy, whose configuration turns the layer of the work tree
on by an empty value.  All answers are computed; the code then validates an attributes file
that Git does not use. -/

/-- An entry with a value, from texts that can be printed. -/
def GitEntry.ofText (key value : List UInt8) (hkey : key ≠ [] ∧ 10 ∉ key ∧ 0 ∉ key)
    (hvalue : 0 ∉ value) : GitEntry where
  key := key
  value := some value
  key_ne := hkey.1
  key_text := hkey.2
  value_text := fun _ he => Option.some.inj he ▸ hvalue

/-- The key of the work tree configuration can be printed. -/
theorem worktreeConfigKey_text :
    worktreeConfigKey ≠ [] ∧ 10 ∉ worktreeConfigKey ∧ 0 ∉ worktreeConfigKey := by decide

/-- The key of the attributes file can be printed. -/
theorem attributesFileKey_text :
    attributesFileKey ≠ [] ∧ 10 ∉ attributesFileKey ∧ 0 ∉ attributesFileKey := by decide

/-- The variable of a filter driver, which makes the driver one that has to be overridden. -/
def sampleFilterKey : List UInt8 := ascii "filter.lfs.clean"

/-- That key can be printed. -/
theorem sampleFilterKey_text :
    sampleFilterKey ≠ [] ∧ 10 ∉ sampleFilterKey ∧ 0 ∉ sampleFilterKey := by decide

/-- The sample values can be printed. -/
theorem sampleText : 0 ∉ ([] : List UInt8) ∧ 0 ∉ ascii "/a" := by decide

/-- The configuration of the repository: an empty `extensions.worktreeConfig`, and a filter. -/
def sampleCommon : List GitEntry :=
  [.ofText worktreeConfigKey [] worktreeConfigKey_text sampleText.1,
    .ofText sampleFilterKey [] sampleFilterKey_text sampleText.1]

/-- The configuration of the work tree names a file of attributes. -/
def sampleWorktree : List GitEntry :=
  [.ofText attributesFileKey (ascii "/a") attributesFileKey_text sampleText.2]

/-- The configurations by their paths: the repository's own has the extension without a value and a
filter driver, and that of the work tree names an attributes file. -/
def sampleFiles (path : List UInt8) : List GitEntry :=
  if path = ascii "/.git/config" then sampleCommon
  else if path = ascii "/.git/config.worktree" then sampleWorktree
  else []

/-- A directory, as its `stat` shows it. -/
def sampleDirectory : Identity := ⟨1, 2, 4 * 4096, 0, 0, 0⟩

/-- A regular file, as its `stat` shows it. -/
def sampleFile : Identity := ⟨1, 3, 8 * 4096, 0, 0, 0⟩

/-- The files of the Git directory of the run. -/
def sampleNames : List (List UInt8) := [ascii "HEAD", ascii "config", ascii "config.worktree"]

/-- The files that are read by their absolute paths. -/
def samplePaths : List RelativePath :=
  sampleNames.map (fun name => [gitName, name]) ++ [[ascii "a"]]

/-- The contents of a file: a head that is detached, or nothing. -/
def sampleContents (path : List UInt8) : List UInt8 :=
  if path = ascii "/.git/HEAD" then List.replicate 40 48 else []

/-- A read of a file by its path, which finds the sample files and no others. -/
def sampleRead (path : List UInt8) : Except Errno (Identity × List UInt8) :=
  if (samplePaths.map fun names => slash :: pathBytes names).contains path then
    .ok (sampleFile, sampleContents path)
  else .error .noent

/-- The entries of the tree, in which no reference is followed. -/
def sampleEntry (path : RelativePath) : Option TreeEntry :=
  if path = [] then some .directory else none

/-- What the sample tree has an entry in is a directory of it. -/
theorem sampleEntry_parent (path : RelativePath) (name : List UInt8)
    (h : sampleEntry (path ++ [name]) ≠ none) : sampleEntry path = some .directory := by
  simp [sampleEntry] at h

/-- The tree of the run: a copy root with one repository and no other file. -/
def sampleTree : FileTree := ⟨sampleEntry, fun _ => true, rfl, sampleEntry_parent⟩

/-- What is found below the root: a Git directory with a detached head and configurations
for the repository and for its work tree, and an empty file `/a`. -/
def sampleAnswer : (call : InspectCall) → call.Result
  | .now => (0 : ℕ)
  | .openAbsoluteDirectory _ => (.ok (some sampleDirectory) : Except Errno (Option Identity))
  | .openRelativeDirectory _ => (.ok (some sampleDirectory) : Except Errno (Option Identity))
  | .duplicateRoot => true
  | .readDirectory directory =>
    if directory = [] then some [some gitName, some (ascii "a")] else some (sampleNames.map some)
  | .statAt _ name => some (if name = gitName then sampleDirectory else sampleFile)
  | .openAt _ _ => true
  | .statRelative _ => some none
  | .statAbsoluteNofollow _ => some none
  | .openRootFile relative _ => sampleRead (copyPath [slash] relative)
  | .openAbsoluteFile path _ => sampleRead path
  | .tree => sampleTree
  | .statNullDevice => some true
  | .etcMetadata => (none : Option (Bool × ℕ))
  | .etcTarget => (none : Option (List UInt8))
  | .directoryMetadata _ => (none : Option (ℕ × ℕ))
  | .collectCommand command _ =>
    some ⟨⟨some 0, none⟩,
      if command.args = [ascii "--exec-path"] then ascii "/usr/libexec/git-core"
      else printConfig (sampleFiles (command.args.getD 3 []))⟩

/-- The budget of the run, whose deadline the sample clock never reaches. -/
def sampleBudget : CooperativeBudget := ⟨1, ⟨1, 100, 10, 10, 1000⟩⟩

/-- An environment in which nothing is read outside the copy. -/
def sampleEnvironment : SourceEnvironment :=
  ⟨none, none, some (ascii "1"), none, none, some (ascii "1"), false⟩

/-- The entries the code reads, with the empty value of the extension that it takes for true. -/
def sampleEntries : List ConfigEntry :=
  [⟨worktreeConfigKey, []⟩, ⟨sampleFilterKey, []⟩, ⟨attributesFileKey, ascii "/a"⟩]

/-- Every entry of the sample configurations has a value. -/
theorem valued_sampleFiles (path : List UInt8) : Valued (sampleFiles path) := by
  rw [sampleFiles]
  split
  · simp [Valued, sampleCommon, GitEntry.ofText]
  · split
    · simp [Valued, sampleWorktree, GitEntry.ofText]
    · simp [Valued]

/-- The sample configurations are within the budget. -/
theorem length_sampleFiles (path : List UInt8) :
    (printConfig (sampleFiles path)).length ≤ 1000 := by
  rw [sampleFiles]
  split
  · decide
  · split <;> decide

/-- Parsing a sample configuration returns its entries. -/
theorem evaluate_sampleConfig {path : List UInt8} (h : isAbsolute path = true) :
    evaluate sampleAnswer (parseConfigFile [slash] path sampleBudget) =
      .ok ((sampleFiles path).map GitEntry.parsed) := by
  refine evaluate_bind_ok.mpr ⟨1, rfl, ?_⟩
  refine evaluate_bind_ok.mpr ⟨⟨⟨some 0, none⟩, printConfig (sampleFiles path)⟩, ?_, ?_⟩
  · have hinputs : evaluate sampleAnswer (validateInputs [slash] (.config path)) = .ok () := by
      rw [validateInputs, h]
      rfl
    exact evaluate_bind_ok.mpr ⟨(), hinputs, rfl⟩
  · refine evaluate_bind_ok.mpr ⟨(), ?_, ?_⟩
    · rw [evaluate_ofExcept_ok, refuseIf_eq_ok]
      exact Nat.not_lt.mpr (length_sampleFiles path)
    · rw [evaluate_ofExcept_ok]
      exact parseConfigOutput_printConfig.mpr ⟨valued_sampleFiles path, rfl⟩

/-- Reading a sample configuration returns its entries with the evidence of its file. -/
theorem evaluate_readSample {name path : List UInt8} (h : isAbsolute path = true)
    (hread : evaluate sampleAnswer (readRootFile [slash] [gitName, name] 1000 false) =
      .ok (some ⟨⟨path, sampleFile⟩, []⟩)) :
    evaluate sampleAnswer (readConfig [slash] [gitName, name] sampleBudget) =
      .ok (some ((sampleFiles path).map GitEntry.parsed, ⟨path, sampleFile⟩)) :=
  evaluate_bind_ok.mpr ⟨_, hread, evaluate_bind_ok.mpr ⟨_, evaluate_sampleConfig h, rfl⟩⟩

/-- The evidence of the configurations, in the order in which they are read. -/
def sampleEvidence : List FileEvidence :=
  [ascii "/.git/HEAD", ascii "/.git/config", ascii "/.git/config.worktree", ascii "/a"].map
    fun path => ⟨path, sampleFile⟩

/-- The assembly reads the repository's configuration, and the work tree's because of the empty
value. -/
theorem evaluate_sampleAssembly :
    evaluate sampleAnswer (assembleConfig [slash] [gitName] [gitName] [] sampleBudget
      (sampleEvidence.take 1)) = .ok (sampleEntries, sampleEvidence.take 3) := by
  have hcommon : evaluate sampleAnswer (readConfig [slash] [gitName, ascii "config"] sampleBudget) =
      .ok (some ((sampleFiles (ascii "/.git/config")).map GitEntry.parsed,
        ⟨ascii "/.git/config", sampleFile⟩)) := evaluate_readSample rfl rfl
  have hworktree : evaluate sampleAnswer
      (readConfig [slash] [gitName, ascii "config.worktree"] sampleBudget) =
      .ok (some ((sampleFiles (ascii "/.git/config.worktree")).map GitEntry.parsed,
        ⟨ascii "/.git/config.worktree", sampleFile⟩)) := evaluate_readSample rfl rfl
  refine evaluate_bind_ok.mpr ⟨_, hcommon, ?_⟩
  refine evaluate_bind_ok.mpr ⟨true, rfl, ?_⟩
  exact evaluate_bind_ok.mpr ⟨_, hworktree, rfl⟩

/-- A path of proper names behind a separator is an absolute path of a file. -/
theorem isAbsoluteFile_of_names {names : List (List UInt8)} (hne : names ≠ [])
    (h : ∀ name ∈ names, IsName name) : isAbsoluteFile (slash :: pathBytes names) = true := by
  rw [isAbsoluteFile, components_slash_pathBytes h]
  simp [hne]

/-- The sample paths consist of proper names. -/
theorem isName_samplePaths {names : RelativePath} (h : names ∈ samplePaths) :
    names ≠ [] ∧ ∀ name ∈ names, IsName name := by
  have hall : ∀ names ∈ samplePaths,
      names ≠ [] ∧ names.all (fun name => decide (IsName name)) = true :=
    forall_mem_of_all (by decide)
  exact ⟨(hall names h).1, forall_mem_of_all (hall names h).2⟩

/-- A file of the run is read with its evidence and its contents. -/
theorem evaluate_sampleRead {names : RelativePath} (h : names ∈ samplePaths) (limit : ℕ) :
    evaluate sampleAnswer (readAbsoluteFile (slash :: pathBytes names) limit true) =
      .ok (some ⟨⟨slash :: pathBytes names, sampleFile⟩,
        sampleContents (slash :: pathBytes names)⟩) := by
  obtain ⟨hne, hnames⟩ := isName_samplePaths h
  have hanswer : sampleAnswer (.openAbsoluteFile (slash :: pathBytes names) limit) =
      .ok (sampleFile, sampleContents (slash :: pathBytes names)) :=
    if_pos (List.contains_iff_mem.mpr (List.mem_map_of_mem h))
  rw [readAbsoluteFile, isAbsoluteFile_of_names hne hnames]
  refine evaluate_bind_ok.mpr ⟨(), rfl, ?_⟩
  exact evaluate_bind_ok.mpr ⟨_, congrArg Except.ok hanswer, rfl⟩

/-- The attributes file that the work tree configuration names is validated. -/
theorem evaluate_sampleAttributes :
    evaluate sampleAnswer (validateEffectiveUserAttributes sampleEntries sampleEnvironment
      sampleBudget (sampleEvidence.take 3)) = .ok sampleEvidence := by
  refine evaluate_bind_ok.mpr ⟨(), rfl, ?_⟩
  refine evaluate_bind_ok.mpr ⟨some (ascii "/a", true), rfl, ?_⟩
  have hmem : [ascii "a"] ∈ samplePaths := by simp [samplePaths]
  have hread := evaluate_sampleRead hmem 1000
  refine evaluate_bind_ok.mpr ⟨_, hread, ?_⟩
  refine evaluate_bind_ok.mpr ⟨(), ?_, rfl⟩
  rw [evaluate_ofExcept_ok]
  simp [validateAttributes]
  rfl

/-- The one filter driver of the sample entries is found. -/
theorem sampleDrivers : filterDrivers sampleEntries = .ok [ascii "lfs"] := by
  have hdrivers : sampleEntries.mapM (fun entry => filterDriver entry.key) =
      .ok [none, some (ascii "lfs"), none] := rfl
  have hnames : [none, some (ascii "lfs"), none].reduceOption = [ascii "lfs"] := rfl
  rw [filterDrivers, hdrivers]
  show Except.ok (sortDedup bytesLe [none, some (ascii "lfs"), none].reduceOption) = _
  rw [hnames]
  simp [sortDedup]

/-- The sample repository is configured, with the driver to be overridden. -/
theorem evaluate_sampleConfigure :
    evaluate sampleAnswer (configureRepository [slash] [gitName] [gitName] [] sampleEnvironment
      sampleBudget (sampleEvidence.take 1)) =
      .ok (sampleEntries, [ascii "lfs"], sampleEvidence) := by
  refine evaluate_bind_ok.mpr ⟨_, evaluate_sampleAssembly, ?_⟩
  refine evaluate_bind_ok.mpr ⟨(), rfl, ?_⟩
  refine evaluate_bind_ok.mpr ⟨[ascii "lfs"], evaluate_ofExcept_ok.mpr sampleDrivers, ?_⟩
  exact evaluate_bind_ok.mpr ⟨_, evaluate_sampleAttributes, rfl⟩

/-- The directories of the repository: its Git directory is its own common one. -/
def sampleLocated : Located :=
  ⟨sampleDirectory, none, [gitName], sampleDirectory, [gitName], sampleDirectory, []⟩

/-- The contents of the sample repository pass their checks.  Each check is evaluated with the
answers of the sample. -/
theorem evaluate_sampleContents {discovery : Discovery} (h : discovery.attributeFiles = []) :
    evaluate sampleAnswer (checkContents [slash] discovery [] sampleLocated sampleEntries
      sampleBudget sampleEvidence) = .ok sampleEvidence := by
  refine evaluate_bind_ok.mpr ⟨true, rfl, ?_⟩
  refine evaluate_bind_ok.mpr ⟨(true, sampleEvidence), rfl, ?_⟩
  refine evaluate_bind_ok.mpr ⟨(), rfl, ?_⟩
  refine evaluate_bind_ok.mpr ⟨sampleEvidence, rfl, ?_⟩
  rw [h]
  refine evaluate_bind_ok.mpr ⟨sampleEvidence, rfl, ?_⟩
  refine evaluate_bind_ok.mpr ⟨sampleEvidence, rfl, ?_⟩
  refine evaluate_bind_ok.mpr ⟨(), ?_, rfl⟩
  refine evaluate_bind_ok.mpr ⟨(), rfl, ?_⟩
  refine evaluate_bind_ok.mpr ⟨(), ?_, rfl⟩
  have hitem : ∀ item ∈ sampleEvidence, evaluate sampleAnswer item.revalidate = .ok true := by
    intro item hitem
    have hpaths : sampleEvidence =
        samplePaths.map fun names => ⟨slash :: pathBytes names, sampleFile⟩ := rfl
    rw [hpaths] at hitem
    obtain ⟨names, hnames, rfl⟩ := List.mem_map.mp hitem
    have hread := evaluate_sampleRead hnames textBytesLimit
    refine evaluate_bind_ok.mpr ⟨_, evaluate_attempt, ?_⟩
    rw [hread]
    rfl
  generalize sampleEvidence = items at hitem
  induction items with
  | nil => rfl
  | cons item items ih =>
    obtain ⟨hfirst, hrest⟩ := List.forall_mem_cons.mp hitem
    refine evaluate_bind_ok.mpr ⟨(), rfl, ?_⟩
    refine evaluate_bind_ok.mpr ⟨true, hfirst, ?_⟩
    exact evaluate_bind_ok.mpr ⟨(), rfl, ih hrest⟩

/-- The repository as it is prepared, with the evidence of its files. -/
def sampleRepository : PreparedRepository :=
  ⟨[], [ascii "lfs"], sampleDirectory, ascii "/.git", sampleDirectory, ascii "/.git",
    sampleDirectory, none, sampleEvidence⟩

/-- The sample repository passes its preflight and is prepared. -/
theorem evaluate_samplePreflight {discovery : Discovery} (h : discovery.attributeFiles = []) :
    evaluate sampleAnswer (preflightRepository [slash] discovery [] ⟨[], []⟩ sampleEnvironment
      sampleBudget 2) = .ok (sampleRepository, 5) := by
  refine evaluate_bind_ok.mpr ⟨sampleLocated, evaluate_mapError_ok.mpr rfl, ?_⟩
  refine evaluate_bind_ok.mpr ⟨5, rfl, ?_⟩
  refine evaluate_bind_ok.mpr ⟨(none, sampleEvidence.take 1), evaluate_mapError_ok.mpr rfl, ?_⟩
  refine evaluate_bind_ok.mpr ⟨_, evaluate_mapError_ok.mpr evaluate_sampleConfigure, ?_⟩
  exact evaluate_bind_ok.mpr ⟨_, evaluate_mapError_ok.mpr (evaluate_sampleContents h), rfl⟩

/-- The sources of the sample environment are selected: there is no global configuration.  The
answer to the query for the execution path is parsed, and no file of the environment is there. -/
theorem evaluate_sampleSelect : evaluate sampleAnswer (selectSources (ascii "libexec") [slash]
    sampleEnvironment sampleBudget) = .ok (ascii "/usr", []) := by
  have hnames : ∀ name ∈ [ascii "usr", ascii "libexec", ascii "git-core"], IsName name :=
    forall_mem_of_all (by decide)
  have hparse : parseExecPath (ascii "libexec") (ascii "/usr/libexec/git-core") =
      .ok (ascii "/usr/libexec/git-core", ascii "/usr") := by
    have hplain : ((ascii "/usr/libexec/git-core").dropSuffix? [10]).getD
        (ascii "/usr/libexec/git-core") =
          slash :: pathBytes [ascii "usr", ascii "libexec", ascii "git-core"] := by decide
    simp only [parseExecPath, hplain, components_slash_pathBytes hnames]
    rfl
  refine evaluate_bind_ok.mpr ⟨(), rfl, ?_⟩
  refine evaluate_bind_ok.mpr ⟨(), rfl, ?_⟩
  refine evaluate_bind_ok.mpr ⟨(), rfl, ?_⟩
  refine evaluate_bind_ok.mpr ⟨none, rfl, ?_⟩
  refine evaluate_bind_ok.mpr ⟨none, rfl, ?_⟩
  refine evaluate_bind_ok.mpr ⟨1, rfl, ?_⟩
  refine evaluate_bind_ok.mpr ⟨⟨⟨some 0, none⟩, ascii "/usr/libexec/git-core"⟩, rfl, ?_⟩
  refine evaluate_bind_ok.mpr ⟨ascii "/usr", ?_, ?_⟩
  · rw [parseRuntimePrefix, hparse]
    rfl
  · exact evaluate_bind_ok.mpr ⟨[], rfl, rfl⟩

/-- The sources of the sample environment pass their preflight. -/
theorem evaluate_sampleSources : evaluate sampleAnswer (preflightSources (ascii "libexec") [slash]
    sampleEnvironment sampleBudget) = .ok ⟨[], []⟩ := by
  refine evaluate_bind_ok.mpr ⟨_, evaluate_sampleSelect, ?_⟩
  refine evaluate_bind_ok.mpr ⟨⟨[], []⟩, rfl, ?_⟩
  exact evaluate_bind_ok.mpr ⟨[], rfl, rfl⟩

/-- What the walk of the run finds: one repository, at the copy root itself. -/
def sampleDiscovery : Discovery :=
  ⟨sampleDirectory, sortDedup namesLe [[]], pairwise_sortDedup linearLe_namesLe, [], .complete, []⟩

/-- A file that cannot be read has no entries. -/
theorem sampleFiles_of_missing {path : List UInt8} (h : sampleRead path = .error .noent) :
    sampleFiles path = [] := by
  have hpaths : path ∉ samplePaths.map fun names => slash :: pathBytes names := by
    intro hmem
    rw [sampleRead, if_pos (List.contains_iff_mem.mpr hmem)] at h
    cases h
  rw [sampleFiles, if_neg, if_neg]
  · rintro rfl
    exact hpaths (by decide)
  · rintro rfl
    exact hpaths (by decide)

/-- Runs with these answers read the configurations of the sample.  The null device and the two
configuration files have different components, so each path has one answer. -/
theorem readsConfigs_sample
    (h : ∀ exchange ∈ t, exchange.result = sampleAnswer exchange.op) :
    ReadsConfigs [slash] sampleFiles t where
  nullDevice := fun path hnull => by
    have hnames : ∀ names ∈ [[gitName, ascii "config"], [gitName, ascii "config.worktree"],
        [ascii "dev", ascii "null"]], names.all (fun name => decide (IsName name)) = true := by
      decide
    have hcomponents := fun names hmem =>
      components_slash_pathBytes (forall_mem_of_all (hnames names hmem))
    have hdevice : components nullDevice =
        [.rootDir, .normal (ascii "dev"), .normal (ascii "null")] :=
      hcomponents [ascii "dev", ascii "null"] (by simp)
    have hsame : components path = components nullDevice := by simpa [samePath] using hnull
    rw [sampleFiles, if_neg, if_neg]
    · rintro rfl
      have hpath := hcomponents [gitName, ascii "config.worktree"] (by simp)
      exact absurd (hpath.symm.trans (hsame.trans hdevice)) (by decide)
    · rintro rfl
      have hpath := hcomponents [gitName, ascii "config"] (by simp)
      exact absurd (hpath.symm.trans (hsame.trans hdevice)) (by decide)
  rootMissing := fun _ _ hmem => sampleFiles_of_missing (h _ hmem).symm
  absoluteMissing := fun _ _ hmem => sampleFiles_of_missing (h _ hmem).symm
  listed := fun cwd path environment gitDir timeout output hmem _ => by
    have houtput : some output = sampleAnswer (.collectCommand
        (gitCommand cwd (.config path) environment gitDir) timeout) := h _ hmem
    have hargs : (gitCommand cwd (.config path) environment gitDir).args ≠
        [ascii "--exec-path"] := by simp [gitCommand, queryArguments]
    rw [sampleAnswer, if_neg hargs] at houtput
    cases houtput
    rfl

/-- The runs of the sample: the preflight of its sources and of its repository, each answered by
the sample world. -/
theorem exists_sampleRuns : ∃ t₀ t,
    Traces (preflightSources (ascii "libexec") [slash] sampleEnvironment sampleBudget) t₀
      (.ok ⟨[], []⟩) ∧
    Traces (preflightRepository [slash] sampleDiscovery [] ⟨[], []⟩ sampleEnvironment
      sampleBudget 2) t (.ok (sampleRepository, 5)) ∧
    ∀ exchange ∈ t₀ ++ t, exchange.result = sampleAnswer exchange.op := by
  obtain ⟨t₀, hsources, hanswers₀⟩ := exists_traces_evaluate sampleAnswer
    (preflightSources (ascii "libexec") [slash] sampleEnvironment sampleBudget)
  obtain ⟨t, hpreflight, hanswers⟩ := exists_traces_evaluate sampleAnswer
    (preflightRepository [slash] sampleDiscovery [] ⟨[], []⟩ sampleEnvironment sampleBudget 2)
  rw [evaluate_sampleSources] at hsources
  rw [evaluate_samplePreflight rfl] at hpreflight
  exact ⟨t₀, t, hsources, hpreflight, List.forall_mem_append.mpr ⟨hanswers₀, hanswers⟩⟩

/-- The comparison for the sample run, in which the empty value of the extension parts the code
from Git. -/
theorem layering_iff_sample : ∃ t₀ t,
    LayeringAgrees (ascii "libexec") [slash] sampleEnvironment sampleBudget sampleFiles []
      ⟨[], []⟩ t₀ t sampleRepository := by
  obtain ⟨t₀, t, hsources, hpreflight, hanswers⟩ := exists_sampleRuns
  exact ⟨t₀, t, layering_iff hsources hpreflight (readsConfigs_sample hanswers)⟩

/-- The empty `extensions.worktreeConfig` makes the code validate the attributes file `/a`
that the work tree names, while Git reads neither it nor any other. -/
theorem empty_value_layers_worktree : ∃ t₀ t entries source,
    Traces (preflightSources (ascii "libexec") [slash] sampleEnvironment sampleBudget) t₀
      (.ok ⟨[], []⟩) ∧
    Traces (preflightRepository [slash] sampleDiscovery [] ⟨[], []⟩ sampleEnvironment
      sampleBudget 2) t (.ok (sampleRepository, 5)) ∧
    ReadsConfigs [slash] sampleFiles (t₀ ++ t) ∧
    Validates sampleEnvironment sampleBudget t sampleRepository.filterDrivers entries source ∧
    source = some (ascii "/a", true) ∧
    gitAttributesFile (gitEntries [] sampleCommon sampleWorktree) sampleEnvironment = none ∧
    ¬UsesGit sampleEnvironment (gitEntries [] sampleCommon sampleWorktree) entries source := by
  obtain ⟨t₀, t, hsources, hpreflight, hanswers⟩ := exists_sampleRuns
  obtain ⟨hanswers₀, hanswers'⟩ := List.forall_mem_append.mp hanswers
  have hreads := readsConfigs_sample hanswers
  obtain ⟨runtimePrefix, sources, located, entries, source, ⟨part₀, hpart₀, hselect⟩,
    ⟨part, hpart, hlocate⟩, -, hvalidates, hlayered⟩ :=
    preflightRepository_layers hsources hpreflight hreads
  have hnone : sources = [] := by
    have he := hselect.eq_evaluate fun exchange hmem => hanswers₀ exchange (hpart₀.subset hmem)
    rw [evaluate_sampleSelect] at he
    cases he
    rfl
  have hlocated := hlocate.eq_evaluate fun exchange hmem => hanswers' exchange (hpart.subset hmem)
  obtain rfl := Except.ok.inj hlocated
  subst hnone
  obtain rfl : entries = sampleEntries := hlayered
  obtain rfl : source = some (ascii "/a", true) := (Except.ok.inj hvalidates.resolved).symm
  refine ⟨t₀, t, sampleEntries, _, hsources, hpreflight, hreads, hvalidates, rfl, rfl, ?_⟩
  rintro ⟨hentries, -⟩
  have hlength := congrArg List.length hentries
  exact absurd hlength (by decide)

end Git
end ThinWorkspace
