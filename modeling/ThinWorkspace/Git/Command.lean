/-
# The Git commands of the inspection

Source: `GitQuery`, `git_command` and what it calls in
`crates/thinws-adapter-git-cli/src/git_query.rs`.

The configuration that a command passes to Git in its environment is a numbered list:
`NumberedConfig` says that the environment holds exactly the entries of such a list, and
`numberedConfig_gitCommand` says which one `git_command` passes.
-/

import ThinWorkspace.Core.FileName
import ThinWorkspace.Git.Config

namespace ThinWorkspace
namespace Git

open ThinWorkspace.Core

/-! ### Environments of a command

A process is started with an environment built from nothing.  It is a list in which a key
occurs once, so a variable that was set last has its value. -/

/-- The environment of a command: every variable has one value. -/
structure CommandEnv where
  pairs : List (List UInt8 × List UInt8)
  nodup : (pairs.map (·.1)).Nodup

namespace CommandEnv

variable {env : CommandEnv} {key key' value : List UInt8}

/-- `env_clear`: a command starts with no variable of its parent. -/
def cleared : CommandEnv := ⟨[], List.nodup_nil⟩

/-- Setting a variable replaces it, so a key occurs once. -/
theorem nodup_set (env : CommandEnv) (key value : List UInt8) :
    ((env.pairs.filter (·.1 ≠ key) ++ [(key, value)]).map (·.1)).Nodup := by
  have hsub : ((env.pairs.filter (·.1 ≠ key)).map (·.1)).Nodup :=
    env.nodup.sublist (List.filter_sublist.map _)
  rw [List.map_append, List.nodup_append]
  refine ⟨hsub, List.nodup_singleton _, fun a ha b hb => ?_⟩
  obtain ⟨pair, hpair, rfl⟩ := List.mem_map.mp ha
  have hne := (List.mem_filter.mp hpair).2
  rw [List.map_singleton, List.mem_singleton] at hb
  rw [hb]
  simpa using hne

/-- `Command::env`: the variable is set, in place of an earlier value. -/
def set (env : CommandEnv) (key value : List UInt8) : CommandEnv :=
  ⟨env.pairs.filter (·.1 ≠ key) ++ [(key, value)], nodup_set env key value⟩

/-- The value of a variable, if the environment has it. -/
def get (env : CommandEnv) (key : List UInt8) : Option (List UInt8) :=
  (env.pairs.find? fun pair => decide (pair.1 = key)).map (·.2)

/-- Sets several variables, one after the other, so that a later one wins. -/
def setAll (env : CommandEnv) (pairs : List (List UInt8 × List UInt8)) : CommandEnv :=
  pairs.foldl (fun env pair => env.set pair.1 pair.2) env

/-- A cleared environment has no variable, so nothing is inherited from the process. -/
@[simp] theorem get_cleared : cleared.get key = none := rfl

/-- A variable that was set has its value, whatever it had before. -/
@[simp] theorem get_set_self : (env.set key value).get key = some value := by
  have hnone : (env.pairs.filter (·.1 ≠ key)).find? (fun pair => decide (pair.1 = key)) = none := by
    rw [List.find?_eq_none]
    intro pair hpair
    simpa using (List.mem_filter.mp hpair).2
  rw [get, set, List.find?_append, hnone]
  simp

/-- Setting one variable leaves the others, so the order of different variables does not matter. -/
theorem get_set_of_ne (h : key' ≠ key) : (env.set key value).get key' = env.get key' := by
  have hfilter : (env.pairs.filter (·.1 ≠ key)).find? (fun pair => decide (pair.1 = key')) =
      env.pairs.find? fun pair => decide (pair.1 = key') := by
    rw [List.find?_filter]
    congr 1
    funext pair
    by_cases hpair : pair.1 = key'
    · simp [hpair, h]
    · simp [hpair]
  have hlast : [(key, value)].find? (fun pair => decide (pair.1 = key')) = none := by
    simp [h.symm]
  rw [get, set, List.find?_append, hfilter, hlast, Option.or_none, get]

/-- Setting several variables leaves the others, by induction on the list. -/
theorem get_setAll_of_notMem {pairs : List (List UInt8 × List UInt8)}
    (h : ∀ pair ∈ pairs, key ≠ pair.1) : (env.setAll pairs).get key = env.get key := by
  induction pairs generalizing env with
  | nil => rfl
  | cons pair pairs ih =>
    obtain ⟨hpair, hpairs⟩ := List.forall_mem_cons.mp h
    exact (ih hpairs).trans (get_set_of_ne hpair)

/-- Setting two lists of variables sets the one and then the other. -/
theorem setAll_append {pairs pairs' : List (List UInt8 × List UInt8)} :
    env.setAll (pairs ++ pairs') = (env.setAll pairs).setAll pairs' := List.foldl_append

end CommandEnv

/-! ### Numbered configuration

Git reads settings from numbered variables.  `NumberedConfig` says that the environment
holds exactly a given list of them; the names of the variables differ by kind and by number,
so setting one of them leaves the others. -/

/-- `GIT_CONFIG_KEY_{index}`: the variable that holds the key of a numbered setting. -/
def configKeyName (index : ℕ) : List UInt8 := ascii "GIT_CONFIG_KEY_" ++ decimal index

/-- `GIT_CONFIG_VALUE_{index}`: the variable that holds its value. -/
def configValueName (index : ℕ) : List UInt8 := ascii "GIT_CONFIG_VALUE_" ++ decimal index

/-- `GIT_CONFIG_COUNT`: the variable that says how many of these Git reads. -/
def configCountName : List UInt8 := ascii "GIT_CONFIG_COUNT"

/-- The two variables of the entry with this number. -/
def configPair (index : ℕ) (entry : ConfigEntry) : List (List UInt8 × List UInt8) :=
  [(configKeyName index, entry.key), (configValueName index, entry.value)]

/-- The variables of a list of entries, numbered from `start`. -/
def configPairs (start : ℕ) : List ConfigEntry → List (List UInt8 × List UInt8)
  | [] => []
  | entry :: entries => configPair start entry ++ configPairs (start + 1) entries

/-- The numbered variables of the environment are those of the list. -/
structure NumberedConfig (env : CommandEnv) (config : List ConfigEntry) : Prop where
  count : env.get configCountName = some (decimal config.length)
  key : ∀ i, env.get (configKeyName i) = (config[i]?).map (·.key)
  value : ∀ i, env.get (configValueName i) = (config[i]?).map (·.value)

/-- Different numbers have different key variables, since their decimals differ. -/
theorem configKeyName_injective : Function.Injective configKeyName := fun _ _ h =>
  decimal_injective (List.append_cancel_left h)

/-- Different numbers have different value variables, since their decimals differ. -/
theorem configValueName_injective : Function.Injective configValueName := fun _ _ h =>
  decimal_injective (List.append_cancel_left h)

/-- A variable that is none of the numbered ones. -/
def Unnumbered (name : List UInt8) : Prop :=
  ¬ascii "GIT_CONFIG_KEY_" <+: name ∧ ¬ascii "GIT_CONFIG_VALUE_" <+: name

instance (name : List UInt8) : Decidable (Unnumbered name) := inferInstanceAs (Decidable (_ ∧ _))

/-- A variable of another form is none of the key variables. -/
theorem Unnumbered.ne_key {name : List UInt8} (h : Unnumbered name) (i : ℕ) :
    configKeyName i ≠ name := fun he => h.1 (he ▸ List.prefix_append _ _)

/-- A variable of another form is none of the value variables. -/
theorem Unnumbered.ne_value {name : List UInt8} (h : Unnumbered name) (i : ℕ) :
    configValueName i ≠ name := fun he => h.2 (he ▸ List.prefix_append _ _)

/-- The variable of the count is of another form. -/
theorem unnumbered_count : Unnumbered configCountName := by decide

/-- A key variable is not a value variable, whatever the two numbers are. -/
theorem configKeyName_ne_value (i j : ℕ) : configKeyName i ≠ configValueName j := by
  intro h
  have htake : (configKeyName i).take 12 = (configValueName j).take 12 := by rw [h]
  have hkey : (configKeyName i).take 12 = ascii "GIT_CONFIG_K" := by
    rw [configKeyName, List.take_append_of_le_length (by decide)]
    decide
  have hvalue : (configValueName j).take 12 = ascii "GIT_CONFIG_V" := by
    rw [configValueName, List.take_append_of_le_length (by decide)]
    decide
  rw [hkey, hvalue] at htake
  exact absurd htake (by decide)

/-- The variables of a numbered list carry its numbers. -/
theorem mem_configPairs {start : ℕ} {entries : List ConfigEntry} {pair : List UInt8 × List UInt8}
    (h : pair ∈ configPairs start entries) :
    ∃ i, start ≤ i ∧ (pair.1 = configKeyName i ∨ pair.1 = configValueName i) := by
  induction entries generalizing start with
  | nil => cases h
  | cons entry entries ih =>
    rw [configPairs, List.mem_append] at h
    rcases h with h | h
    · rcases List.mem_cons.mp h with rfl | h
      · exact ⟨start, le_refl _, .inl rfl⟩
      · rw [List.mem_singleton] at h
        exact ⟨start, le_refl _, .inr (by rw [h])⟩
    · obtain ⟨i, hi, hname⟩ := ih h
      exact ⟨i, by omega, hname⟩

/-- Setting a numbered list leaves the variables of another form. -/
theorem get_configPairs_unnumbered {env : CommandEnv} {start : ℕ} {entries : List ConfigEntry}
    {name : List UInt8} (h : Unnumbered name) :
    (env.setAll (configPairs start entries)).get name = env.get name := by
  refine CommandEnv.get_setAll_of_notMem fun pair hpair => ?_
  obtain ⟨i, -, hname | hname⟩ := mem_configPairs hpair
  · rw [hname]
    exact (h.ne_key i).symm
  · rw [hname]
    exact (h.ne_value i).symm

/-- The entries numbered from `start` are read back, those with other numbers are as
they were. -/
theorem get_configPairs (env : CommandEnv) (start : ℕ) (entries : List ConfigEntry) (i : ℕ) :
    (env.setAll (configPairs start entries)).get (configKeyName i) =
        (if i < start then none else (entries[i - start]?).map (·.key)).or
          (env.get (configKeyName i)) ∧
      (env.setAll (configPairs start entries)).get (configValueName i) =
        (if i < start then none else (entries[i - start]?).map (·.value)).or
          (env.get (configValueName i)) := by
  induction entries generalizing start env with
  | nil => simp [configPairs, CommandEnv.setAll]
  | cons entry entries ih =>
    rw [configPairs, CommandEnv.setAll_append]
    obtain ⟨hkey, hvalue⟩ := ih (env.setAll (configPair start entry)) (start + 1)
    rw [hkey, hvalue]
    have hpair : env.setAll (configPair start entry) =
        (env.set (configKeyName start) entry.key).set (configValueName start) entry.value := rfl
    rw [hpair, CommandEnv.get_set_of_ne (configKeyName_ne_value i start)]
    rcases Nat.lt_trichotomy i start with hi | rfl | hi
    · have hne : i ≠ start := by omega
      rw [CommandEnv.get_set_of_ne (configKeyName_injective.ne hne),
        CommandEnv.get_set_of_ne (configValueName_injective.ne hne),
        CommandEnv.get_set_of_ne (configKeyName_ne_value start i).symm]
      simp [hi, Nat.lt_succ_of_lt hi]
    · simp
    · have hne : i ≠ start := by omega
      have hi' : i - start = (i - (start + 1)) + 1 := by omega
      rw [CommandEnv.get_set_of_ne (configKeyName_injective.ne hne),
        CommandEnv.get_set_of_ne (configValueName_injective.ne hne),
        CommandEnv.get_set_of_ne (configKeyName_ne_value start i).symm]
      simp [hi', show ¬i < start + 1 by omega, show ¬i < start by omega]

/-! ### `git_command`

The command as the source builds it: the fixed variables, the base configuration, the guards
of the filter drivers, the variables that select sources, and the arguments. -/

/-- `GitQuery`: the four commands that the inspection runs. -/
inductive GitQuery where
  | execPath
  | config (file : List UInt8)
  | trackedStatus (filterDrivers : List (List UInt8))
  | indexFlags
deriving DecidableEq

/-- `QueryEnvironment`; the preserved variables are those of the source environment. -/
inductive QueryEnvironment where
  | isolated
  | preserved (environment : SourceEnvironment)

/-- A command with its working directory, environment and arguments. -/
structure GitCommand where
  cwd : List UInt8
  env : CommandEnv
  args : List (List UInt8)

/-- The variables that every command sets: no locale, no prompt, no editor, no pager and no
external diff. -/
def commandEnvironment : List (List UInt8 × List UInt8) :=
  [(ascii "LC_ALL", ascii "C"), (ascii "LANG", ascii "C"),
    (ascii "GIT_OPTIONAL_LOCKS", ascii "0"), (ascii "GIT_TERMINAL_PROMPT", ascii "0"),
    (ascii "GCM_INTERACTIVE", ascii "never"), (ascii "GIT_ASKPASS", ascii "/usr/bin/false"),
    (ascii "SSH_ASKPASS", ascii "/usr/bin/false"), (ascii "GIT_EDITOR", ascii "/usr/bin/false"),
    (ascii "GIT_SEQUENCE_EDITOR", ascii "/usr/bin/false"), (ascii "GIT_PAGER", ascii "cat"),
    (ascii "PAGER", ascii "cat"), (ascii "PATH", ascii "/usr/bin:/bin"),
    (ascii "GIT_EXTERNAL_DIFF", ascii "/usr/bin/false")]

/-- The configuration that every command passes, with the numbers from 0. -/
def baseConfig : List ConfigEntry :=
  [⟨ascii "core.fsmonitor", ascii "false"⟩, ⟨ascii "core.hooksPath", ascii "/dev/null"⟩,
    ⟨ascii "core.pager", ascii "cat"⟩, ⟨ascii "color.ui", ascii "false"⟩]

/-- `BASE_CONFIG_COUNT`: the settings that every command has, before those of the drivers. -/
def baseConfigCount : ℕ := 4

/-- What replaces the variables of every driver: no command is left to run, and a filter that is
required then fails. -/
def driverFields : List (List UInt8 × List UInt8) :=
  [(ascii "clean", []), (ascii "process", []), (ascii "required", ascii "true")]

/-- The key `filter.<driver>.<field>`, whatever bytes the driver consists of. -/
def filterKey (driver name : List UInt8) : List UInt8 :=
  ascii "filter." ++ driver ++ ascii "." ++ name

/-- The variables the loops of `git_command` over the drivers and their fields set. -/
def driverPairs (filterDrivers : List (List UInt8)) : List (List UInt8 × List UInt8) :=
  filterDrivers.zipIdx.flatMap fun (driver, driverIndex) =>
    driverFields.zipIdx.flatMap fun ((name, value), fieldIndex) =>
      let index := baseConfigCount + driverIndex * 3 + fieldIndex
      [(configKeyName index, filterKey driver name), (configValueName index, value)]

/-- `set_optional_env`: a variable that is absent stays unset. -/
def setOptionalEnv (env : CommandEnv) (key : String) : Option (List UInt8) → CommandEnv
  | none => env
  | some value => env.set (ascii key) value

/-- The variables that decide which configuration Git reads: none at all for an isolated query, and
those of the user for a preserved one. -/
def sourceVariables (env : CommandEnv) : QueryEnvironment → CommandEnv
  | .isolated =>
    env.setAll [(ascii "GIT_CONFIG_NOSYSTEM", ascii "1"),
      (ascii "GIT_CONFIG_GLOBAL", ascii "/dev/null"), (ascii "GIT_ATTR_NOSYSTEM", ascii "1")]
  | .preserved environment =>
    let env := setOptionalEnv env "HOME" environment.home
    let env := setOptionalEnv env "XDG_CONFIG_HOME" environment.xdgConfigHome
    let env := setOptionalEnv env "GIT_CONFIG_NOSYSTEM" environment.gitConfigNosystem
    let env := setOptionalEnv env "GIT_CONFIG_SYSTEM" environment.gitConfigSystem
    let env := setOptionalEnv env "GIT_CONFIG_GLOBAL" environment.gitConfigGlobal
    setOptionalEnv env "GIT_ATTR_NOSYSTEM" environment.gitAttrNosystem

/-- `git_dir_argument`: the Git directory that the preflight found, or the one in the working
directory. -/
def gitDirArgument (cwd : List UInt8) (prevalidatedGitDir : Option (List UInt8)) : List UInt8 :=
  ascii "--git-dir=" ++ prevalidatedGitDir.getD (pathJoin cwd (ascii ".git"))

/-- The drivers that a query guards, which are those of a status. -/
def GitQuery.filterDrivers : GitQuery → List (List UInt8)
  | .trackedStatus filterDrivers => filterDrivers
  | _ => []

/-- The arguments of a query, as `git_command` appends them one by one. -/
def queryArguments (cwd : List UInt8) (prevalidatedGitDir : Option (List UInt8)) :
    GitQuery → List (List UInt8)
  | .execPath => [ascii "--exec-path"]
  | .config file =>
    [ascii "--git-dir=/dev/null", ascii "config", ascii "--file", file, ascii "--no-includes",
      ascii "--null", ascii "--list"]
  | .trackedStatus _ =>
    [gitDirArgument cwd prevalidatedGitDir, ascii "-c", ascii "core.filemode=true",
      ascii "--no-optional-locks", ascii "status", ascii "--porcelain=v2", ascii "-z",
      ascii "--untracked-files=no", ascii "--ignore-submodules=untracked"]
  | .indexFlags =>
    [gitDirArgument cwd prevalidatedGitDir, ascii "--no-optional-locks", ascii "ls-files",
      ascii "-v", ascii "-z"]

/-- `git_command`: the environment is built from nothing, then the numbered configuration with the
guards of every filter driver. -/
def gitCommand (cwd : List UInt8) (query : GitQuery) (environment : QueryEnvironment)
    (prevalidatedGitDir : Option (List UInt8)) : GitCommand :=
  let env := CommandEnv.cleared.setAll commandEnvironment
  let env := env.setAll (configPairs 0 baseConfig)
  let env := env.set configCountName
    (decimal (baseConfigCount + query.filterDrivers.length * 3))
  let env := env.setAll (driverPairs query.filterDrivers)
  ⟨cwd, sourceVariables env environment, queryArguments cwd prevalidatedGitDir query⟩

/-! ### The configuration of a command

Read from the outside, the environment of a command is the base configuration and behind it
one entry for each variable of each driver, with consecutive numbers
(`numberedConfig_gitCommand`). -/

/-- The entries that replace the variables of a driver. -/
def driverConfig (driver : List UInt8) : List ConfigEntry :=
  driverFields.map fun (name, value) => ⟨filterKey driver name, value⟩

/-- The entries that a query passes to Git. -/
def queryConfig (filterDrivers : List (List UInt8)) : List ConfigEntry :=
  baseConfig ++ filterDrivers.flatMap driverConfig

/-- The variables of two lists of entries, with the numbers going on. -/
theorem configPairs_append (start : ℕ) (entries entries' : List ConfigEntry) :
    configPairs start (entries ++ entries') =
      configPairs start entries ++ configPairs (start + entries.length) entries' := by
  induction entries generalizing start with
  | nil => rfl
  | cons entry entries ih =>
    rw [List.cons_append, configPairs, configPairs, ih, List.append_assoc, List.length_cons,
      show start + 1 + entries.length = start + (entries.length + 1) by omega]

/-- The numbers of the drivers continue those of the base. -/
theorem driverPairs_eq (filterDrivers : List (List UInt8)) :
    driverPairs filterDrivers =
      configPairs baseConfigCount (filterDrivers.flatMap driverConfig) := by
  have hfrom : ∀ k, (filterDrivers.zipIdx k).flatMap (fun (driver, driverIndex) =>
      driverFields.zipIdx.flatMap fun ((name, value), fieldIndex) =>
        let index := baseConfigCount + driverIndex * 3 + fieldIndex
        [(configKeyName index, filterKey driver name), (configValueName index, value)]) =
      configPairs (baseConfigCount + k * 3) (filterDrivers.flatMap driverConfig) := by
    induction filterDrivers with
    | nil => exact fun _ => rfl
    | cons driver filterDrivers ih =>
      intro k
      rw [List.zipIdx_cons, List.flatMap_cons, List.flatMap_cons, ih, configPairs_append]
      have hlength : (driverConfig driver).length = 3 := rfl
      rw [hlength, show baseConfigCount + k * 3 + 3 = baseConfigCount + (k + 1) * 3 by omega]
      rfl
  have hzero : baseConfigCount + 0 * 3 = baseConfigCount := by omega
  exact hzero ▸ hfrom 0

/-- Setting an optional variable leaves the others, whether it is set or not. -/
theorem setOptionalEnv_get {env : CommandEnv} {key : String} {value : Option (List UInt8)}
    {name : List UInt8} (h : name ≠ ascii key) :
    (setOptionalEnv env key value).get name = env.get name := by
  cases value with
  | none => rfl
  | some value => exact CommandEnv.get_set_of_ne h

/-- The variables that choose the sources are none of the configuration. -/
def sourceNames : List (List UInt8) :=
  [ascii "HOME", ascii "XDG_CONFIG_HOME", ascii "GIT_CONFIG_NOSYSTEM",
    ascii "GIT_CONFIG_SYSTEM", ascii "GIT_CONFIG_GLOBAL", ascii "GIT_ATTR_NOSYSTEM"]

/-- The variables of the sources leave all others, the numbered configuration among them. -/
theorem get_sourceVariables {env : CommandEnv} {environment : QueryEnvironment}
    {name : List UInt8} (h : name ∉ sourceNames) :
    (sourceVariables env environment).get name = env.get name := by
  simp only [sourceNames, List.mem_cons, List.not_mem_nil, or_false, not_or] at h
  obtain ⟨hhome, hxdg, hnosystem, hsystem, hglobal, hattr⟩ := h
  cases environment with
  | isolated =>
    refine CommandEnv.get_setAll_of_notMem fun pair hpair => ?_
    simp only [List.mem_cons, List.not_mem_nil, or_false] at hpair
    rcases hpair with rfl | rfl | rfl
    · exact hnosystem
    · exact hglobal
    · exact hattr
  | preserved environment =>
    rw [sourceVariables, setOptionalEnv_get hattr, setOptionalEnv_get hglobal,
      setOptionalEnv_get hsystem, setOptionalEnv_get hnosystem, setOptionalEnv_get hxdg,
      setOptionalEnv_get hhome]

/-- The variables that every command sets are of another form. -/
theorem unnumbered_commandEnvironment :
    ∀ pair ∈ commandEnvironment, Unnumbered pair.1 ∧ pair.1 ≠ configCountName := by decide

/-- The variables of the sources are of another form. -/
theorem unnumbered_sourceNames : ∀ name ∈ sourceNames, Unnumbered name := by decide

/-- **The configuration a command passes** is the base, unchanged, and after it what
replaces the variables of every driver the query guards. -/
theorem numberedConfig_gitCommand (cwd : List UInt8) (query : GitQuery)
    (environment : QueryEnvironment) (gitDir : Option (List UInt8)) :
    NumberedConfig (gitCommand cwd query environment gitDir).env
      (queryConfig query.filterDrivers) := by
  have hkeys : ∀ i, configKeyName i ∉ sourceNames := fun i hi =>
    (unnumbered_sourceNames _ hi).ne_key i rfl
  have hvalues : ∀ i, configValueName i ∉ sourceNames := fun i hi =>
    (unnumbered_sourceNames _ hi).ne_value i rfl
  have hbase : ∀ i, (CommandEnv.cleared.setAll commandEnvironment).get (configKeyName i) = none ∧
      (CommandEnv.cleared.setAll commandEnvironment).get (configValueName i) = none := by
    intro i
    constructor
    · exact CommandEnv.get_setAll_of_notMem fun pair hpair =>
        (unnumbered_commandEnvironment pair hpair).1.ne_key i
    · exact CommandEnv.get_setAll_of_notMem fun pair hpair =>
        (unnumbered_commandEnvironment pair hpair).1.ne_value i
  have hlength : (queryConfig query.filterDrivers).length =
      baseConfigCount + query.filterDrivers.length * 3 := by
    have hconst : ∀ driver, (driverConfig driver).length = 3 := fun _ => rfl
    rw [queryConfig, List.length_append, List.length_flatMap]
    simp [hconst, baseConfig, baseConfigCount]
  have hindex : ∀ i, (queryConfig query.filterDrivers)[i]? =
      (if i < baseConfigCount then none
        else (query.filterDrivers.flatMap driverConfig)[i - baseConfigCount]?).or
          baseConfig[i]? := by
    intro i
    have hbaseLength : baseConfig.length = baseConfigCount := rfl
    rw [queryConfig]
    by_cases hi : i < baseConfigCount
    · rw [if_pos hi, List.getElem?_append_left (hbaseLength ▸ hi), Option.none_or]
    · rw [if_neg hi, List.getElem?_append_right (by omega), hbaseLength,
        List.getElem?_eq_none (l := baseConfig) (by omega), Option.or_none]
  refine ⟨?_, fun i => ?_, fun i => ?_⟩
  · rw [gitCommand, get_sourceVariables (by decide), driverPairs_eq,
      get_configPairs_unnumbered unnumbered_count, CommandEnv.get_set_self, hlength]
  · rw [gitCommand, get_sourceVariables (hkeys i), driverPairs_eq,
      (get_configPairs _ _ _ i).1,
      CommandEnv.get_set_of_ne (unnumbered_count.ne_key i), (get_configPairs _ _ _ i).1,
      (hbase i).1, hindex]
    split <;> simp [Option.map_or]
  · rw [gitCommand, get_sourceVariables (hvalues i), driverPairs_eq,
      (get_configPairs _ _ _ i).2,
      CommandEnv.get_set_of_ne (unnumbered_count.ne_value i), (get_configPairs _ _ _ i).2,
      (hbase i).2, hindex]
    split <;> simp [Option.map_or]

end Git
end ThinWorkspace
