/-
# The filter guard

Source: as `Git/Inspect.lean`.  A driver of the attribute `filter` runs a command; a status
query replaces the variables of every driver that the configuration of its repository, or
of one inside it, mentions.

`filterDriver_variable` finds the driver of every variable that Git reads as one of a
driver, `switchesOff_queryConfig` says what the query passes to Git for it, and
`LeafFirst.filterGuard` puts them together for the status queries of a run.
-/

import Mathlib.Data.List.ReduceOption
import ThinWorkspace.Git.Layering
import ThinWorkspace.Git.LeafFirst

namespace ThinWorkspace
namespace Git

open ThinWorkspace.Core Ports Lib Lib.Fallible Lib.Program Lib.Lexicographic

/-! ### The variables of a filter driver

Git compares section and variable without regard to case, and the driver byte for byte.  The
code folds the key and cuts it, and finds the same driver. -/

/-- The names of the variables, as Git compares them. -/
def filterNames : List (List UInt8) :=
  [ascii "clean", ascii "smudge", ascii "process", ascii "required"]

/-- The key is a variable of this filter driver: section and variable in any case, the
driver byte for byte between the first and the last dot. -/
def IsFilterVariable (key driver : List UInt8) : Prop :=
  ∃ sectionName name, key = sectionName ++ 46 :: (driver ++ 46 :: name) ∧
    lowercase sectionName = ascii "filter" ∧ lowercase name ∈ filterNames

/-- A text whose folded form has no dot has none. -/
theorem notMem_of_lowercase {text : List UInt8} (h : 46 ∉ lowercase text) : 46 ∉ text := by
  intro hmem
  have hdot : lowerByte 46 = 46 := by decide
  exact h (hdot ▸ List.mem_map_of_mem hmem)

/-- The variables of a filter have no dot. -/
theorem notMem_filterNames {name : List UInt8} (h : name ∈ filterNames) : 46 ∉ name :=
  have hall : ∀ name ∈ filterNames, 46 ∉ name := forall_mem_of_all (by decide)
  hall name h

/-- What follows the last dot of a key determines what precedes it. -/
theorem append_dot_inj {front front' name name' : List UInt8} (hname : 46 ∉ name)
    (hname' : 46 ∉ name') (h : front ++ 46 :: name = front' ++ 46 :: name') :
    front = front' ∧ name = name' := by
  have hcut : ∀ {front name : List UInt8}, 46 ∉ name →
      Lib.Fields.cut 46 (front ++ 46 :: name).reverse = some (name.reverse, front.reverse) := by
    intro front name hname
    rw [List.reverse_append, List.reverse_cons, List.append_assoc, List.singleton_append]
    exact Lib.Fields.cut_append (by simpa using hname)
  have heq := (hcut hname).symm.trans ((congrArg _ (congrArg List.reverse h)).trans (hcut hname'))
  simpa [and_comm] using heq

/-- The suffix of a variable is dropped from that variable only. -/
theorem dropSuffix?_field {driver name name' : List UInt8} (hname : 46 ∉ name)
    (hname' : 46 ∉ name') :
    (driver ++ 46 :: name).dropSuffix? (46 :: name') =
      if name = name' then some driver else none := by
  split
  · rename_i he
    rw [List.dropSuffix?_eq_some_iff]
    exact ⟨_, rfl, by simp [he]⟩
  · rename_i hne
    rw [Option.eq_none_iff_forall_ne_some]
    intro rest hrest
    obtain ⟨suffix, he, hsuffix⟩ := List.dropSuffix?_eq_some_iff.mp hrest
    rw [eq_of_beq hsuffix] at he
    exact hne (append_dot_inj hname hname' he).2

/-- The driver of a variable is found, unless it is empty and refused. -/
theorem filterDriver_variable {key driver : List UInt8} (h : IsFilterVariable key driver) :
    filterDriver (normalizeConfigKey key) =
      if driver = [] then .error .unsupportedConfiguration else .ok (some driver) := by
  obtain ⟨sectionName, name, rfl, hsection, hname⟩ := h
  have hdot : 46 ∉ sectionName := notMem_of_lowercase (by rw [hsection]; decide)
  have hdot' := notMem_filterNames hname
  have hkey : (ascii "filter" ++ 46 :: (driver ++ 46 :: lowercase name)).dropPrefix?
      (ascii "filter.") = some (driver ++ 46 :: lowercase name) := by
    have hsplit : ascii "filter" ++ 46 :: (driver ++ 46 :: lowercase name) =
        ascii "filter." ++ (driver ++ 46 :: lowercase name) := rfl
    rw [hsplit]
    exact List.dropPrefix?_append_of_beq _ (BEq.rfl)
  have hfields : filterFields = filterNames.map fun name => 46 :: name := rfl
  have hfound : filterFields.findSome? (driver ++ 46 :: lowercase name).dropSuffix? =
      some driver := by
    rw [hfields, List.findSome?_map]
    have hstep : ∀ names : List (List UInt8), (∀ name ∈ names, 46 ∉ name) →
        lowercase name ∈ names → names.findSome? ((driver ++ 46 :: lowercase name).dropSuffix? ∘
          fun name => 46 :: name) = some driver := by
      intro names
      induction names with
      | nil => exact fun _ hmem => nomatch hmem
      | cons first names ih =>
        intro hnames hmem
        obtain ⟨hfirst, hnames⟩ := List.forall_mem_cons.mp hnames
        rw [List.findSome?_cons, Function.comp_apply, dropSuffix?_field hdot' hfirst]
        split
        · rename_i found he
          split at he
          · cases he; rfl
          · cases he
        · rename_i he
          split at he
          · cases he
          · rename_i hne
            exact ih hnames ((List.mem_cons.mp hmem).resolve_left hne)
    exact hstep filterNames (fun name hmem => notMem_filterNames hmem) hname
  rw [normalizeConfigKey_append hdot (notMem_of_lowercase hdot'), hsection, filterDriver, hkey]
  simp only [hfound]

/-- A variable of a driver that was accepted is one of the drivers. -/
theorem mem_filterDrivers {entries : List GitEntry} {drivers : List (List UInt8)}
    {entry : GitEntry} {driver : List UInt8}
    (h : filterDrivers (entries.map GitEntry.parsed) = .ok drivers) (hentry : entry ∈ entries)
    (hvariable : IsFilterVariable entry.key driver) : driver ∈ drivers := by
  obtain ⟨found, hfound, he⟩ := bind_ok h
  obtain ⟨hall, -⟩ := mem_mapM_ok hfound
  obtain ⟨result, hresult, hdriver⟩ := hall entry.parsed (List.mem_map_of_mem hentry)
  rw [GitEntry.parsed, filterDriver_variable hvariable] at hdriver
  split at hdriver
  · cases hdriver
  · cases hdriver
    cases he
    rw [mem_sortDedup linearLe_bytesLe, List.reduceOption_mem_iff]
    exact hresult

/-! ### What a query switches off

A driver is switched off when the configuration of the command replaces every variable of
it, and nothing in it sets them otherwise.  The keys of different drivers differ, so the
guards do not disturb each other. -/

/-- The configuration replaces the variables of the driver, and nothing in it sets them
otherwise. -/
structure SwitchesOff (config : List ConfigEntry) (driver : List UInt8) : Prop where
  clean : ⟨filterKey driver (ascii "clean"), []⟩ ∈ config
  process : ⟨filterKey driver (ascii "process"), []⟩ ∈ config
  required : ⟨filterKey driver (ascii "required"), ascii "true"⟩ ∈ config
  alone : ∀ entry ∈ config, ∀ field ∈ driverFields, entry.key = filterKey driver field.1 →
    entry.value = field.2

/-- A key of a guard tells its driver and its variable. -/
theorem filterKey_inj {driver driver' : List UInt8} {field field' : List UInt8 × List UInt8}
    (hfield : field ∈ driverFields) (hfield' : field' ∈ driverFields)
    (h : filterKey driver field.1 = filterKey driver' field'.1) :
    driver = driver' ∧ field = field' := by
  have hplain : ∀ field ∈ driverFields, 46 ∉ field.1 := forall_mem_of_all (by decide)
  have hvalues : ∀ field ∈ driverFields,
      driverFields.all (fun field' => decide (field.1 = field'.1 → field = field')) = true :=
    forall_mem_of_all (by decide)
  have hdots : (ascii "filter." ++ driver) ++ 46 :: field.1 =
      (ascii "filter." ++ driver') ++ 46 :: field'.1 := by
    simpa [filterKey, ascii] using h
  obtain ⟨hdriver, hname⟩ := append_dot_inj (hplain _ hfield) (hplain _ hfield') hdots
  refine ⟨List.append_cancel_left hdriver, ?_⟩
  exact of_decide_eq_true (List.all_eq_true.mp (hvalues field hfield) field' hfield') hname

/-- What guards a driver is one entry for each variable of a filter. -/
theorem mem_driverConfig {driver : List UInt8} {entry : ConfigEntry} :
    entry ∈ driverConfig driver ↔
      ∃ field ∈ driverFields, entry = ⟨filterKey driver field.1, field.2⟩ := by
  simp [driverConfig, eq_comm]

/-- **Every driver of a query is switched off.** -/
theorem switchesOff_queryConfig {drivers : List (List UInt8)} {driver : List UInt8}
    (h : driver ∈ drivers) : SwitchesOff (queryConfig drivers) driver := by
  have hmem : ∀ field ∈ driverFields,
      ⟨filterKey driver field.1, field.2⟩ ∈ queryConfig drivers := fun field hfield =>
    List.mem_append_right _
      (List.mem_flatMap.mpr ⟨driver, h, mem_driverConfig.mpr ⟨field, hfield, rfl⟩⟩)
  refine ⟨hmem (ascii "clean", []) (by decide), hmem (ascii "process", []) (by decide),
    hmem (ascii "required", ascii "true") (by decide), ?_⟩
  intro entry hentry field hfield hkey
  rcases List.mem_append.mp hentry with hbase | hdriver
  · have hplain : ∀ entry ∈ baseConfig, ¬(ascii "filter.").isPrefixOf entry.key :=
      forall_mem_of_all (by decide)
    refine absurd ?_ (hplain entry hbase)
    rw [List.isPrefixOf_iff_prefix, hkey, filterKey, List.append_assoc, List.append_assoc]
    exact List.prefix_append _ _
  · obtain ⟨driver', -, hentry'⟩ := List.mem_flatMap.mp hdriver
    obtain ⟨field', hfield', rfl⟩ := mem_driverConfig.mp hentry'
    rw [(filterKey_inj hfield' hfield hkey).2]

/-! ### Candidates

Which drivers have to be switched off is a matter of what Git reads: the files of the
repository and the global ones.  The code reads at least these (`mem_layeredEntries`), so
each driver is among those that it collected. -/

variable {expectedParent copyRoot : List UInt8} {environment : SourceEnvironment}
  {budget : CooperativeBudget} {discovery : Discovery} {t : List InspectExchange}
  {files : List UInt8 → List GitEntry}

/-- The candidate passed its preflight and the check of its index flags in the run, and the
configuration switches off every filter driver that Git reads a variable of for it. -/
def GuardsCandidate (expectedParent copyRoot : List UInt8) (environment : SourceEnvironment)
    (budget : CooperativeBudget) (discovery : Discovery) (files : List UInt8 → List GitEntry)
    (config : List ConfigEntry) (candidate : RelativePath) (t : List InspectExchange) : Prop :=
  ∃ global runtimePrefix sources participant located,
    participant.relativePath = candidate ∧
    Ran (preflightSources expectedParent copyRoot environment budget) (.ok global) t ∧
    Ran (selectSources expectedParent copyRoot environment budget)
      (.ok (runtimePrefix, sources)) t ∧
    PreflightRan copyRoot discovery global environment budget participant t ∧
    Ran (locateRepository copyRoot candidate global budget.limits) (.ok located) t ∧
    Ran (inspectIndexFlags copyRoot participant environment budget) (.ok ()) t ∧
    ∀ entry ∈ gitEntries (sources.flatMap files)
        (files (copyPath copyRoot (commonConfig located.commonDir)))
        (files (copyPath copyRoot (worktreeConfig located.gitDir))),
      ∀ driver, IsFilterVariable entry.key driver → SwitchesOff config driver

/-- What Git reads the code reads too. -/
theorem mem_layeredEntries {global common worktree : List GitEntry} {entry : GitEntry}
    (h : entry ∈ gitEntries global common worktree) :
    entry ∈ layeredEntries global common worktree := by
  rw [gitEntries, List.mem_append] at h
  rw [layeredEntries, List.mem_append]
  refine h.imp_right fun hworktree => ?_
  split at hworktree
  · rename_i htrue
    have hlayers : layersWorktree common = true := by
      rw [layersWorktree]
      split
      · rfl
      · exact htrue
    rwa [if_pos hlayers]
  · cases hworktree

/-- A candidate that takes part in a query is guarded by it. -/
theorem guardsCandidate_of_ran {global : GlobalContext} {participant : PreparedRepository}
    {drivers : List (List UInt8)}
    (hsources : Ran (preflightSources expectedParent copyRoot environment budget) (.ok global) t)
    (hpreflight : PreflightRan copyRoot discovery global environment budget participant t)
    (hindex : Ran (inspectIndexFlags copyRoot participant environment budget) (.ok ()) t)
    (hreads : ReadsConfigs copyRoot files t)
    (hdrivers : ∀ driver ∈ participant.filterDrivers, driver ∈ drivers) :
    GuardsCandidate expectedParent copyRoot environment budget discovery files
      (queryConfig drivers) participant.relativePath t := by
  obtain ⟨part₀, hpart₀, hsources'⟩ := hsources
  obtain ⟨scanned, scanned', part, hpart, hpreflight'⟩ := hpreflight
  have hreads' : ReadsConfigs copyRoot files (part₀ ++ part) :=
    hreads.mono (List.append_subset.mpr ⟨hpart₀.subset, hpart.subset⟩)
  obtain ⟨runtimePrefix, sources, located, entries, source, hselect, hlocate, -, hvalidates,
      rfl⟩ :=
    preflightRepository_layers hsources' hpreflight' hreads'
  refine ⟨global, runtimePrefix, sources, participant, located, rfl, ⟨part₀, hpart₀, hsources'⟩,
    hselect.mono hpart₀, ⟨scanned, scanned', part, hpart, hpreflight'⟩, hlocate.mono hpart,
    hindex, fun entry hentry driver hvariable => switchesOff_queryConfig (hdrivers driver ?_)⟩
  exact mem_filterDrivers hvalidates.guarded (mem_layeredEntries hentry) hvariable

/-- The drivers of a repository that takes part are in the union. -/
theorem mem_filterDriverUnion {indexed : List PreparedRepository} {relative : RelativePath}
    {participant : PreparedRepository} (h : participant ∈ indexed)
    (hinside : participant.relativePath = relative ∨
      isStrictDescendant participant.relativePath relative = true) :
    ∀ driver ∈ participant.filterDrivers,
      driver ∈ filterDriverUnion (participants indexed relative) := by
  intro driver hdriver
  rw [filterDriverUnion, mem_sortDedup linearLe_bytesLe, List.mem_flatMap]
  refine ⟨participant, ?_, hdriver⟩
  rw [participants, List.mem_filter]
  exact ⟨h, by simpa using hinside⟩

/-! ### Queries

Every status query of a run is one of a candidate whose participants were prepared, and its
configuration switches off the drivers of all of them. -/

/-- The status queries of a run that discovered `discovery`.  Each is that of a candidate,
its environment holds the numbered configuration of `queryConfig`, and it guards every
candidate at or inside its own. -/
def FilterGuard (expectedParent copyRoot : List UInt8) (environment : SourceEnvironment)
    (budget : CooperativeBudget) (discovery : Discovery) (files : List UInt8 → List GitEntry)
    (t : List InspectExchange) : Prop :=
  ∀ before command timeout answer after,
    t = before ++ ⟨.collectCommand command timeout, answer⟩ :: after → IsStatusQuery command →
    ∃ repository drivers, repository.relativePath ∈ discovery.candidates ∧
      command = statusCommand copyRoot repository environment drivers ∧
      NumberedConfig command.env (queryConfig drivers) ∧
      ∀ candidate ∈ discovery.candidates, candidate = repository.relativePath ∨
          isStrictDescendant candidate repository.relativePath = true →
        GuardsCandidate expectedParent copyRoot environment budget discovery files
          (queryConfig drivers) candidate before

/-- The status queries of a leaf-first run are guarded, where the configurations are what the run
read. -/
theorem LeafFirst.filterGuard {inspection : GitInspection}
    (h : LeafFirst expectedParent copyRoot environment budget discovery t inspection)
    (hreads : ReadsConfigs copyRoot files t) :
    FilterGuard expectedParent copyRoot environment budget discovery files t := by
  intro before command timeout answer after ht hquery
  obtain ⟨global, indexed, repository, hguarded, hcommand, -⟩ :=
    h.leaves before command timeout answer after ht hquery
  refine ⟨repository, _, hguarded.candidate, hcommand, ?_, fun candidate hmem hinside => ?_⟩
  · rw [hcommand]
    exact numberedConfig_gitCommand _ _ _ _
  · obtain ⟨participant, hparticipant, rfl, hpreflight, hindex⟩ :=
      hguarded.inside candidate hmem hinside
    have hbefore : ReadsConfigs copyRoot files before :=
      hreads.mono (ht ▸ List.subset_append_left _ _)
    exact guardsCandidate_of_ran hguarded.sources hpreflight hindex.ran hbefore
      (mem_filterDriverUnion hparticipant hinside)

/-- What is said of the status queries of a whole run. -/
def FilterGuardRun (expectedParent copyRoot : List UInt8) (environment : SourceEnvironment)
    (limits : InspectionLimits) (files : List UInt8 → List GitEntry)
    (t : List InspectExchange) : Prop :=
  ∃ now found t₁ t₂, t = ⟨.now, now⟩ :: (t₁ ++ t₂) ∧
    Traces (discover copyRoot ⟨now + limits.totalTimeout, limits⟩) t₁ found ∧
    match found with
    | .error _ => ∀ exchange ∈ t, Silent exchange.op
    | .ok (discovery, _) =>
      FilterGuard expectedParent copyRoot environment ⟨now + limits.totalTimeout, limits⟩
        discovery files t

/-- **No filter runs unguarded.**  Every status query of an inspection comes after the
preflight and the check of the index flags of every candidate at or inside its repository,
and its environment holds the four entries of the base and after them, numbered on and each
once, what switches off every filter driver that Git reads a variable of for one of them. -/
theorem inspect_filter_guard {limits : InspectionLimits}
    {outcome : Except GitInspectionIssue GitInspection}
    (h : Traces (inspectWithOptions expectedParent copyRoot environment limits) t outcome)
    (hreads : ReadsConfigs copyRoot files t) :
    FilterGuardRun expectedParent copyRoot environment limits files t := by
  obtain ⟨concluded, now, found, t₁, t₂, rfl, rfl, hdiscover, h₂⟩ := inspectWithOptions_parts h
  have hquiet : ∀ exchange ∈ ⟨.now, now⟩ :: t₁, Silent exchange.op :=
    List.forall_mem_cons.mpr ⟨trivial, quiet_discover.traces hdiscover⟩
  refine ⟨now, found, t₁, t₂, rfl, hdiscover, ?_⟩
  cases found with
  | error issue =>
    obtain ⟨rfl, -⟩ := h₂
    simpa using hquiet
  | ok found =>
    obtain ⟨discovery, scanned⟩ := found
    exact (inspectDiscovery_leafFirst hquiet h₂).filterGuard hreads

/-- The copy of `sampleAnswer`, whose driver is `lfs`: there is a run of the inspection on it, and
its status query is guarded. -/
theorem inspect_filter_guard_sample : ∃ t outcome,
    Traces (inspectWithOptions (ascii "libexec") [slash] sampleEnvironment sampleBudget.limits) t
      outcome ∧
    FilterGuardRun (ascii "libexec") [slash] sampleEnvironment sampleBudget.limits sampleFiles
      t := by
  obtain ⟨t, htraces, hanswers⟩ := exists_traces_evaluate sampleAnswer
    (inspectWithOptions (ascii "libexec") [slash] sampleEnvironment sampleBudget.limits)
  exact ⟨t, _, htraces, inspect_filter_guard htraces (readsConfigs_sample hanswers)⟩

end Git
end ThinWorkspace
