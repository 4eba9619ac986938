/-
# The loops of an inspection, run by run

Source: as `Git/Inspect.lean`.  Each of the three loops of `inspect_with_options` is
described once, for every run of it: which repositories it passes on and which results it
adds (`preflightAll_traces`, `indexAll_traces`, `statusAll_traces`), and what is settled
when it comes to a status query (`statusAll_query`).

A status query is recognized by its arguments, whoever built the command; that none is run
outside of the third loop is `Git/Silent`.
-/

import ThinWorkspace.Git.Silent
import ThinWorkspace.Lib.Segments

namespace ThinWorkspace
namespace Git

open ThinWorkspace.Core Ports Lib Lib.Fallible Lib.Program Lib.Lexicographic

variable {copyRoot : List UInt8} {discovery : Discovery} {global : GlobalContext}
  {environment : SourceEnvironment} {budget : CooperativeBudget} {t : List InspectExchange}

/-! ### Preflights

Every candidate either passes its preflight, which then ran in the run, or has a final
result. -/

/-- A repository keeps the path it was prepared for. -/
theorem preflightRepository_relativePath {relative : RelativePath} {scanned scanned' : ℕ}
    {repository : PreparedRepository}
    (h : Traces (preflightRepository copyRoot discovery relative global environment budget
      scanned) t (.ok (repository, scanned'))) : repository.relativePath = relative := by
  have hyields : Yields (fun result : PreparedRepository × ℕ => result.1.relativePath = relative)
      (preflightRepository copyRoot discovery relative global environment budget scanned) :=
    yields_bind fun _ => yields_bind fun _ => yields_bind fun _ => yields_bind fun _ =>
      yields_bind fun _ => yields_pure rfl
  exact hyields.traces h

/-- The preflight of this repository succeeded in the run. -/
def PreflightRan (copyRoot : List UInt8) (discovery : Discovery) (global : GlobalContext)
    (environment : SourceEnvironment) (budget : CooperativeBudget)
    (repository : PreparedRepository) (t : List InspectExchange) : Prop :=
  ∃ scanned scanned', Ran (preflightRepository copyRoot discovery repository.relativePath global
    environment budget scanned) (.ok (repository, scanned')) t

/-- A preflight that ran in a part of a run ran in the run. -/
theorem PreflightRan.mono {repository : PreparedRepository} {t' : List InspectExchange}
    (h : PreflightRan copyRoot discovery global environment budget repository t)
    (hsub : t <:+: t') :
    PreflightRan copyRoot discovery global environment budget repository t' := by
  obtain ⟨scanned, scanned', hran⟩ := h
  exact ⟨scanned, scanned', hran.mono hsub⟩

/-- What the loop of preflights adds to its state. -/
structure PreflightAdds (candidates : List RelativePath) (state state' : Preflighted)
    (passed : List PreparedRepository) (refused : List Inspected) : Prop where
  prepared : state'.prepared = state.prepared ++ passed
  repositories : state'.repositories = state.repositories ++ refused
  paths : (passed.map (·.relativePath) ++ refused.map (·.relativePath)).Perm candidates
  unknown : ∀ inspected ∈ refused, inspected.state = .unknown
  complete : state'.completeness = .complete →
    state.completeness = .complete ∧ state'.issues = state.issues

/-- **The loop of preflights.**  Every candidate is prepared, by a preflight that succeeded
in the run, or it has an unknown result. -/
theorem preflightAll_traces {candidates : List RelativePath} {state state' : Preflighted}
    (h : Traces (preflightAll copyRoot discovery global environment budget candidates state) t
      (.ok state')) :
    ∃ passed refused, PreflightAdds candidates state state' passed refused ∧
      ∀ repository ∈ passed,
        PreflightRan copyRoot discovery global environment budget repository t := by
  induction candidates generalizing state t with
  | nil =>
    obtain ⟨rfl, hstate⟩ := traces_pure.mp h
    cases hstate
    exact ⟨[], [], ⟨by simp, by simp, by simp, by simp, fun hc => ⟨hc, rfl⟩⟩, by simp⟩
  | cons relative rest ih =>
    obtain ⟨expired, t₁, t₂, rfl, -, h⟩ := traces_bind_ok.mp h
    have hsub : t₂ <:+: t₁ ++ t₂ := (List.suffix_append t₁ t₂).isInfix
    split at h
    · obtain ⟨passed, refused, hadds, hran⟩ := ih h
      refine ⟨passed, .unknown .budgetExpired relative :: refused, ?_, fun repository hmem =>
        (hran repository hmem).mono hsub⟩
      refine ⟨hadds.prepared, ?_, ?_, ?_, ?_⟩
      · rw [hadds.repositories, Preflighted.expire, List.append_assoc]
        rfl
      · rw [List.map_cons]
        exact List.perm_middle.trans (hadds.paths.cons relative)
      · exact List.forall_mem_cons.mpr ⟨rfl, hadds.unknown⟩
      · intro hc
        exact absurd (hadds.complete hc).1 (by simp [Preflighted.expire])
    · obtain ⟨result, t₃, t₄, rfl, hresult, h⟩ := traces_bind_ok.mp h
      obtain ⟨_, he, hpreflight⟩ := traces_attempt.mp hresult
      cases he
      have hrest : t₄ <:+: t₁ ++ (t₃ ++ t₄) := (List.suffix_append t₃ t₄).isInfix.trans hsub
      cases result with
      | ok result =>
        obtain ⟨repository, scanned⟩ := result
        obtain ⟨passed, refused, hadds, hran⟩ := ih h
        have hpath := preflightRepository_relativePath hpreflight
        refine ⟨repository :: passed, refused, ⟨?_, hadds.repositories, ?_, hadds.unknown,
          hadds.complete⟩, List.forall_mem_cons.mpr ⟨?_, fun other hmem =>
            (hran other hmem).mono hrest⟩⟩
        · rw [hadds.prepared, Preflighted.pass, List.append_assoc]
          rfl
        · rw [List.map_cons, List.cons_append, hpath]
          exact hadds.paths.cons relative
        · rw [PreflightRan, hpath]
          exact ⟨_, _, hpreflight.ran.left.right⟩
      | error failure =>
        obtain ⟨issue, scanned⟩ := failure
        obtain ⟨passed, refused, hadds, hran⟩ := ih h
        refine ⟨passed, .unknown issue relative :: refused, ⟨hadds.prepared, ?_, ?_, ?_,
          hadds.complete⟩, fun other hmem => (hran other hmem).mono hrest⟩
        · rw [hadds.repositories, Preflighted.refuse, List.append_assoc]
          rfl
        · rw [List.map_cons]
          exact List.perm_middle.trans (hadds.paths.cons relative)
        · exact List.forall_mem_cons.mpr ⟨rfl, hadds.unknown⟩

/-! ### Answered queries

A query counts as answered by what is seen of it: the command that was started, its exit
with zero, and the output. -/

/-- A query about this repository was answered in the run.  The Git runner was called with
the command of the query and returned an output; the process had exited with code zero; each
repository of `checked` was revalidated without a failure before the call and again after it;
and `accepted` holds of what the process printed. -/
def Answered (copyRoot : List UInt8) (environment : SourceEnvironment)
    (budget : CooperativeBudget) (repository : PreparedRepository) (query : GitQuery)
    (checked : List PreparedRepository) (accepted : List UInt8 → Prop)
    (t : List InspectExchange) : Prop :=
  ∃ before timeout output after,
    before ++ ⟨.collectCommand (gitCommand (copyPath copyRoot repository.relativePath) query
      (.preserved environment) (some repository.gitDir)) timeout, some output⟩ :: after <:+: t ∧
    Ran (revalidateRepositories copyRoot budget checked) (.ok ()) before ∧
    Ran (revalidateRepositories copyRoot budget checked) (.ok ()) after ∧
    output.exit.code = some 0 ∧ accepted output.stdout

/-- An answer in a part of a run is one in the run. -/
theorem Answered.mono {repository : PreparedRepository} {query : GitQuery}
    {checked : List PreparedRepository} {accepted : List UInt8 → Prop} {t' : List InspectExchange}
    (h : Answered copyRoot environment budget repository query checked accepted t)
    (hsub : t <:+: t') :
    Answered copyRoot environment budget repository query checked accepted t' := by
  obtain ⟨before, timeout, output, after, hpart, hran⟩ := h
  exact ⟨before, timeout, output, after, hpart.trans hsub, hran⟩

/-- A run of the Git runner that succeeds is one exchange whose process exited with zero: the
checks of the inputs call nothing, as only a configuration query looks at the null device. -/
theorem runPrevalidatedRepository_traces {cwd gitDir : List UInt8} {query : GitQuery}
    {timeout : ℕ} {output : GitQueryOutput} (hquery : ∀ file, query ≠ .config file)
    (h : Traces (runPrevalidatedRepository cwd gitDir query environment timeout) t
      (.ok output)) :
    t = [⟨.collectCommand (gitCommand cwd query (.preserved environment) (some gitDir)) timeout,
      some output⟩] ∧ output.exit.code = some 0 := by
  obtain ⟨_, t₁, t₂, rfl, hinputs, h⟩ := traces_bind_ok.mp h
  have hnone : t₁ = [] := by
    obtain ⟨_, -, hinputs⟩ := traces_lift_bind.mp hinputs
    cases query with
    | config file => exact absurd rfl (hquery file)
    | execPath => exact hinputs.1
    | indexFlags => exact hinputs.1
    | trackedStatus drivers => exact hinputs.1
  obtain ⟨result, rest, rfl, hlift⟩ := traces_perform_bind.mp h
  obtain ⟨rfl, hresult⟩ := traces_lift.mp hlift
  obtain ⟨rfl, hsuccess⟩ := mapQueryResult_ok hresult
  have hcode : output.exit.code = some 0 := by simpa [GitExit.success] using hsuccess
  exact ⟨by rw [hnone, List.nil_append], hcode⟩

/-- **A query between two revalidations.**  Where a program revalidates the repositories,
asks for the time that is left, runs the query, revalidates again and accepts what was printed,
the query was answered in its run. -/
theorem answered_of_parts {repository : PreparedRepository} {query : GitQuery}
    {checked : List PreparedRepository} {accepted : List UInt8 → Prop} {timeout : ℕ}
    {output : GitQueryOutput} {t₁ t₂ t₃ t₄ : List InspectExchange}
    (hquery : ∀ file, query ≠ .config file)
    (hbefore : Traces (revalidateRepositories copyRoot budget checked) t₁ (.ok ()))
    (hrun : Traces (runPrevalidatedRepository (copyPath copyRoot repository.relativePath)
      repository.gitDir query environment timeout) t₃ (.ok output))
    (hafter : Traces (revalidateRepositories copyRoot budget checked) t₄ (.ok ()))
    (haccepted : accepted output.stdout) :
    Answered copyRoot environment budget repository query checked accepted
      (t₁ ++ (t₂ ++ (t₃ ++ t₄))) := by
  obtain ⟨rfl, hcode⟩ := runPrevalidatedRepository_traces hquery hrun
  refine ⟨t₁ ++ t₂, timeout, output, t₄, ?_, hbefore.ran.left, hafter.ran, hcode, haccepted⟩
  rw [List.append_assoc, List.singleton_append]

/-! ### Index flags

An accepted listing of the index has no entry that hides a change, and the output behind it
is one that Git printed in this run. -/

/-- What `git ls-files` prints for an index in which no entry is hidden: records that end with
a NUL, each of one flag, a blank and a path, and the flag is neither a lower-case letter (an
entry that is assumed unchanged) nor `S` (one that is left out of the worktree). -/
def FlagsShown (output : List UInt8) : Prop :=
  ∃ records : List (List UInt8), output = records.flatMap (· ++ [0]) ∧
    ∀ record ∈ records, ∃ flag path, record = flag :: space :: path ∧ path ≠ [] ∧
      ¬(97 ≤ flag.toNat ∧ flag.toNat ≤ 122) ∧ flag ≠ 83

/-- An accepted record is a tag, a space and a path, and the tag hides nothing from a status query.
-/
theorem validateIndexFlagsRecord_shown {record : List UInt8}
    (h : validateIndexFlagsRecord record = .ok ()) :
    ∃ flag path, record = flag :: space :: path ∧ path ≠ [] ∧
      ¬(97 ≤ flag.toNat ∧ flag.toNat ≤ 122) ∧ flag ≠ 83 := by
  obtain ⟨_, -, h⟩ := bind_eq_ok.mp h
  obtain ⟨_, hshape, h⟩ := bind_eq_ok.mp h
  have hlong := refuseIf_eq_ok.mp hshape
  have hflag := refuseIf_eq_ok.mp h
  rw [not_or, not_lt, not_not] at hlong
  obtain ⟨hlength, hspace⟩ := hlong
  match record, hlength with
  | flag :: second :: third :: rest, _ =>
    have hsecond : second = space := by simpa using hspace
    have hnot : isLowercase flag = false ∧ flag ≠ 83 := by simpa using hflag
    refine ⟨flag, third :: rest, by rw [hsecond], List.cons_ne_nil _ _, ?_, hnot.2⟩
    have hlower := hnot.1
    simpa [isLowercase] using hlower

/-- **An accepted listing hides nothing**: each of its records has a tag under which Git looks for
changes. -/
theorem validateIndexFlagsOutput_shown {output : List UInt8}
    (h : validateIndexFlagsOutput output = .ok ()) : FlagsShown output := by
  rw [validateIndexFlagsOutput] at h
  split at h
  · exact ⟨[], by assumption, by simp⟩
  · split at h
    · cases h
    · rename_i records hsuffix
      rw [List.dropSuffix?_eq_some_iff] at hsuffix
      obtain ⟨suffix, rfl, hzero⟩ := hsuffix
      have hsuffix : suffix = [0] := by simpa using hzero
      refine ⟨records.splitOn 0, ?_, fun record hmem =>
        validateIndexFlagsRecord_shown (forM_eq_ok.mp h record hmem)⟩
      rw [hsuffix, Segments.flatMap_terminated (List.splitOn_ne_nil 0 records),
        List.intercalate_splitOn]

/-- The check of the index flags of this repository succeeded in the run: it returned without
a failure, and Git's listing of the index was read between two revalidations and hides no
entry. -/
structure IndexRan (copyRoot : List UInt8) (environment : SourceEnvironment)
    (budget : CooperativeBudget) (repository : PreparedRepository) (t : List InspectExchange) :
    Prop where
  ran : Ran (inspectIndexFlags copyRoot repository environment budget) (.ok ()) t
  answered : Answered copyRoot environment budget repository .indexFlags [repository]
    FlagsShown t

/-- So did the check of an index, in every run that it is a part of. -/
theorem IndexRan.mono {repository : PreparedRepository} {t' : List InspectExchange}
    (h : IndexRan copyRoot environment budget repository t) (hsub : t <:+: t') :
    IndexRan copyRoot environment budget repository t' :=
  ⟨h.ran.mono hsub, h.answered.mono hsub⟩

/-- One repository revalidated is a list of one, as the check of an index revalidates. -/
theorem revalidateRepositories_singleton {repository : PreparedRepository}
    (h : Traces (revalidateRepository copyRoot repository budget) t (.ok ())) :
    Traces (revalidateRepositories copyRoot budget [repository]) t (.ok ()) :=
  traces_bind_ok.mpr ⟨(), t, [], (List.append_nil t).symm, h, rfl, rfl⟩

/-- A check of the index flags that succeeds has read a listing that hides nothing. -/
theorem inspectIndexFlags_traces {repository : PreparedRepository}
    (h : Traces (inspectIndexFlags copyRoot repository environment budget) t (.ok ())) :
    IndexRan copyRoot environment budget repository t := by
  refine ⟨h.ran, ?_⟩
  obtain ⟨_, t₁, _, rfl, hbefore, h⟩ := traces_bind_ok.mp h
  obtain ⟨timeout, t₂, _, rfl, -, h⟩ := traces_bind_ok.mp h
  obtain ⟨output, t₃, t₄, rfl, hrun, h⟩ := traces_bind_ok.mp h
  obtain ⟨_, hflags, hafter⟩ := traces_lift_bind.mp h
  exact answered_of_parts (by simp) (revalidateRepositories_singleton hbefore) hrun
    (revalidateRepositories_singleton hafter) (validateIndexFlagsOutput_shown hflags)

/-- What the loop of index flags adds: each repository either passes or has its result, and every
such result is unknown. -/
structure IndexAdds (prepared : List PreparedRepository)
    (before after : List PreparedRepository × List Inspected)
    (passed : List PreparedRepository) (refused : List Inspected) : Prop where
  indexed : after.1 = before.1 ++ passed
  repositories : after.2 = before.2 ++ refused
  paths : (passed.map (·.relativePath) ++ refused.map (·.relativePath)).Perm
    (prepared.map (·.relativePath))
  subset : ∀ repository ∈ passed, repository ∈ prepared
  unknown : ∀ inspected ∈ refused, inspected.state = .unknown

/-- **The loop of index flags.**  Every prepared repository is passed on, after a check of
its flags that succeeded in the run, or it has an unknown result. -/
theorem indexAll_traces {prepared indexed : List PreparedRepository}
    {repositories : List Inspected} {after : List PreparedRepository × List Inspected}
    (h : Traces (indexAll copyRoot environment budget prepared indexed repositories) t
      (.ok after)) :
    ∃ passed refused, IndexAdds prepared (indexed, repositories) after passed refused ∧
      ∀ repository ∈ passed, IndexRan copyRoot environment budget repository t := by
  induction prepared generalizing indexed repositories t with
  | nil =>
    obtain ⟨rfl, hafter⟩ := traces_pure.mp h
    cases hafter
    exact ⟨[], [], ⟨by simp, by simp, by simp, by simp, by simp⟩, by simp⟩
  | cons repository rest ih =>
    obtain ⟨result, t₁, t₂, rfl, hresult, h⟩ := traces_bind_ok.mp h
    obtain ⟨_, he, hflags⟩ := traces_attempt.mp hresult
    cases he
    have hsub : t₂ <:+: t₁ ++ t₂ := (List.suffix_append t₁ t₂).isInfix
    cases result with
    | ok _ =>
      obtain ⟨passed, refused, hadds, hran⟩ := ih h
      refine ⟨repository :: passed, refused, ⟨?_, hadds.repositories, hadds.paths.cons _, ?_,
        hadds.unknown⟩, List.forall_mem_cons.mpr ⟨(inspectIndexFlags_traces hflags).mono
          (List.prefix_append t₁ t₂).isInfix, fun other hmem =>
          (hran other hmem).mono hsub⟩⟩
      · rw [hadds.indexed, List.append_assoc]
        rfl
      · exact List.forall_mem_cons.mpr ⟨List.mem_cons_self, fun other hmem =>
          List.mem_cons_of_mem _ (hadds.subset other hmem)⟩
    | error issue =>
      obtain ⟨passed, refused, hadds, hran⟩ := ih h
      refine ⟨passed, .unknown issue repository.relativePath :: refused, ⟨hadds.indexed, ?_, ?_,
        fun other hmem => List.mem_cons_of_mem _ (hadds.subset other hmem), ?_⟩,
        fun other hmem => (hran other hmem).mono hsub⟩
      · rw [hadds.repositories, List.append_assoc]
        rfl
      · rw [List.map_cons]
        exact List.perm_middle.trans (hadds.paths.cons _)
      · exact List.forall_mem_cons.mpr ⟨rfl, hadds.unknown⟩

/-! ### Status queries

A known state is stated with the exchange it comes from: the command of the status query,
its successful exit, and an output with so many tracked changes.  The loop over the
repositories is an induction that keeps the results of those before. -/

/-- The state that this number of tracked changes stands for: none is a clean repository, and
a dirty one has as many as it reports. -/
def Counts : RepositoryState → ℕ → Prop
  | .clean, count => count = 0
  | .dirty changes, count => changes.val = count
  | .unknown, _ => False

/-- The status of this repository was found in the run, as that of one of `indexed`: the
status query was answered between two revalidations of all that is at or inside it, its process
exited with zero, and the state is the number of tracked changes that Git printed. -/
structure StatusRan (copyRoot : List UInt8) (environment : SourceEnvironment)
    (budget : CooperativeBudget) (indexed : List PreparedRepository)
    (repository : PreparedRepository) (state : RepositoryState) (t : List InspectExchange) :
    Prop where
  ran : Ran (repositoryStatus copyRoot repository (participants indexed repository.relativePath)
    (filterDriverUnion (participants indexed repository.relativePath)) environment budget)
    (.ok state) t
  answered : Answered copyRoot environment budget repository
    (.trackedStatus (filterDriverUnion (participants indexed repository.relativePath)))
    (participants indexed repository.relativePath)
    (fun output => ∃ count, parseTrackedChangeCount output = .ok count ∧ Counts state count) t

/-- So did a status query, in every run that it is a part of. -/
theorem StatusRan.mono {indexed : List PreparedRepository} {repository : PreparedRepository}
    {state : RepositoryState} {t' : List InspectExchange}
    (h : StatusRan copyRoot environment budget indexed repository state t) (hsub : t <:+: t') :
    StatusRan copyRoot environment budget indexed repository state t' :=
  ⟨h.ran.mono hsub, h.answered.mono hsub⟩

/-- Where a status was found, a status query was made. -/
theorem StatusRan.exists_query {indexed : List PreparedRepository}
    {repository : PreparedRepository} {state : RepositoryState}
    (h : StatusRan copyRoot environment budget indexed repository state t) :
    ∃ exchange ∈ t, ¬Silent exchange.op := by
  obtain ⟨before, timeout, output, after, hpart, -⟩ := h.answered
  refine ⟨_, hpart.subset (List.mem_append_right _ List.mem_cons_self), not_not.mpr ?_⟩
  simp [IsStatusQuery, gitCommand, queryArguments]

/-- The state made of a number of changes counts them. -/
theorem counts_fromTrackedChangeCount (count : ℕ) :
    Counts (fromTrackedChangeCount count) count := by
  rw [fromTrackedChangeCount]
  split
  · exact rfl
  · exact Nat.eq_zero_of_not_pos ‹_›

/-- **A state is found by an answered query.**  A run that returns a state revalidated the
participants, ran the query, revalidated them again and parsed what Git printed. -/
theorem repositoryStatus_traces {repository : PreparedRepository}
    {inside : List PreparedRepository} {drivers : List (List UInt8)} {state : RepositoryState}
    (h : Traces (repositoryStatus copyRoot repository inside drivers environment budget) t
      (.ok state)) :
    Answered copyRoot environment budget repository (.trackedStatus drivers) inside
      (fun output => ∃ count, parseTrackedChangeCount output = .ok count ∧ Counts state count)
      t := by
  obtain ⟨_, t₁, _, rfl, hbefore, h⟩ := traces_bind_ok.mp h
  obtain ⟨timeout, t₂, _, rfl, -, h⟩ := traces_bind_ok.mp h
  obtain ⟨output, t₃, _, rfl, hrun, h⟩ := traces_bind_ok.mp h
  obtain ⟨_, t₄, t₅, rfl, hafter, h⟩ := traces_bind_ok.mp h
  split at h
  · rename_i count hcount
    obtain ⟨rfl, he⟩ := traces_pure.mp h
    cases he
    rw [List.append_nil]
    exact answered_of_parts (by simp) hbefore hrun hafter
      ⟨count, hcount, counts_fromTrackedChangeCount count⟩
  · exact absurd h.2 (by simp)

/-- The results of the repositories, each with a state that is unknown or was found in
the run. -/
structure StatusResults (copyRoot : List UInt8) (environment : SourceEnvironment)
    (budget : CooperativeBudget) (indexed inspected : List PreparedRepository)
    (results : List Inspected) (t : List InspectExchange) : Prop where
  paths : results.map (·.relativePath) = inspected.map (·.relativePath)
  found : ∀ result ∈ results, result.state ≠ .unknown → ∃ repository ∈ inspected,
    repository.relativePath = result.relativePath ∧
      StatusRan copyRoot environment budget indexed repository result.state t

/-- No repository has no result: the loop over an empty list adds nothing. -/
theorem StatusResults.nil {indexed : List PreparedRepository} :
    StatusResults copyRoot environment budget indexed [] [] t := ⟨rfl, by simp⟩

/-- The results of one more repository, inspected before the others. -/
theorem StatusResults.cons {indexed inspected : List PreparedRepository}
    {results : List Inspected} {repository : PreparedRepository} {result : Inspected}
    {t₁ t₂ : List InspectExchange} (hpath : result.relativePath = repository.relativePath)
    (hfound : result.state ≠ .unknown →
      StatusRan copyRoot environment budget indexed repository result.state t₁)
    (h : StatusResults copyRoot environment budget indexed inspected results t₂) :
    StatusResults copyRoot environment budget indexed (repository :: inspected)
      (result :: results) (t₁ ++ t₂) := by
  refine ⟨by rw [List.map_cons, List.map_cons, hpath, h.paths], ?_⟩
  refine List.forall_mem_cons.mpr ⟨fun hstate => ?_, fun other hmem hstate => ?_⟩
  · exact ⟨repository, List.mem_cons_self, hpath.symm,
      (hfound hstate).mono (List.prefix_append t₁ t₂).isInfix⟩
  · obtain ⟨found, hmem', hpath', hran⟩ := h.found other hmem hstate
    exact ⟨found, List.mem_cons_of_mem _ hmem', hpath',
      hran.mono (List.suffix_append t₁ t₂).isInfix⟩

/-- A repository with an unknown result before the others. -/
theorem StatusResults.skip {indexed inspected : List PreparedRepository}
    {results : List Inspected} {repository : PreparedRepository} {issue : GitInspectionIssue}
    (h : StatusResults copyRoot environment budget indexed inspected results t) :
    StatusResults copyRoot environment budget indexed (repository :: inspected)
      (.unknown issue repository.relativePath :: results) t := by
  have hunknown : (Inspected.unknown issue repository.relativePath).state ≠ .unknown →
      StatusRan copyRoot environment budget indexed repository
        (Inspected.unknown issue repository.relativePath).state [] := fun h => absurd rfl h
  simpa using StatusResults.cons rfl hunknown h

/-- The result of one inspection is of its repository, and a known state comes from a run of the
query. -/
theorem inspectStatus_traces {repository : PreparedRepository}
    {inside : List PreparedRepository} {drivers : List (List UInt8)} {result : Inspected}
    (h : Traces (inspectStatus copyRoot repository inside drivers environment budget) t
      (.ok result)) :
    result.relativePath = repository.relativePath ∧ (result.state ≠ .unknown →
      Traces (repositoryStatus copyRoot repository inside drivers environment budget) t
        (.ok result.state)) := by
  obtain ⟨outcome, t₁, t₂, rfl, houtcome, h⟩ := traces_bind_ok.mp h
  obtain ⟨_, he, hstatus⟩ := traces_attempt.mp houtcome
  cases he
  cases outcome with
  | ok state =>
    obtain ⟨rfl, hresult⟩ := traces_pure.mp h
    cases hresult
    exact ⟨rfl, fun _ => by rwa [List.append_nil]⟩
  | error issue =>
    obtain ⟨-, hresult⟩ := traces_pure.mp h
    cases hresult
    exact ⟨rfl, fun hstate => absurd rfl hstate⟩

/-- A state that the inspection of the participants found. -/
theorem statusRan_of_traces {indexed : List PreparedRepository} {repository : PreparedRepository}
    {state : RepositoryState}
    (h : Traces (repositoryStatus copyRoot repository
      (participants indexed repository.relativePath)
      (filterDriverUnion (participants indexed repository.relativePath)) environment budget) t
      (.ok state)) :
    StatusRan copyRoot environment budget indexed repository state t :=
  ⟨h.ran, repositoryStatus_traces h⟩

/-- **The loop of status queries.**  Every repository gets a result, in their order. -/
theorem statusAll_traces {indexed rest : List PreparedRepository}
    {repositories repositories' : List Inspected}
    (h : Traces (statusAll copyRoot environment budget indexed rest repositories) t
      (.ok repositories')) :
    ∃ results, repositories' = repositories ++ results ∧
      StatusResults copyRoot environment budget indexed rest results t := by
  induction rest generalizing repositories t with
  | nil =>
    obtain ⟨rfl, he⟩ := traces_pure.mp h
    cases he
    exact ⟨[], by simp, .nil⟩
  | cons repository rest ih =>
    rw [statusAll] at h
    split at h
    · obtain ⟨results, rfl, hresults⟩ := ih h
      exact ⟨.unknown .unsafeDescendant repository.relativePath :: results, by simp,
        hresults.skip⟩
    · obtain ⟨result, t₁, t₂, rfl, hstatus, h⟩ := traces_bind_ok.mp h
      obtain ⟨results, rfl, hresults⟩ := ih h
      obtain ⟨hpath, hfound⟩ := inspectStatus_traces hstatus
      exact ⟨result :: results, by simp, hresults.cons hpath fun hstate =>
        statusRan_of_traces (hfound hstate)⟩

/-- The status query of an inspection is that of its repository. -/
theorem only_inspectStatus {repository : PreparedRepository} {inside : List PreparedRepository}
    {drivers : List (List UInt8)} :
    Only (fun call => Silent call ∨ ∃ timeout,
        call = .collectCommand (statusCommand copyRoot repository environment drivers) timeout)
      (inspectStatus copyRoot repository inside drivers environment budget) := by
  refine Only.bind (Only.attempt ?_) fun result => ?_
  · refine (quiet_revalidateRepositories.mono fun _ => .inl).bind fun _ =>
      (quiet_remainingTimeout.mono fun _ => .inl).bind fun timeout => Only.bind ?_ fun _ =>
      (quiet_revalidateRepositories.mono fun _ => .inl).bind fun _ => ?_
    · exact (quiet_validateInputs.mono fun _ => .inl).bind fun _ =>
        (only_perform (.inr ⟨timeout, rfl⟩)).bind fun _ => only_ofExcept
    · split
      · exact only_pure
      · exact only_throw
  · cases result <;> exact only_pure

/-- **What is settled at a status query.**  The repositories before the one that is queried
have their results, and none inside it has an unknown one. -/
theorem statusAll_query {indexed rest : List PreparedRepository}
    {repositories repositories' : List Inspected} {before after : List InspectExchange}
    {command : GitCommand} {timeout : ℕ} {answer : Option GitQueryOutput}
    (h : Traces (statusAll copyRoot environment budget indexed rest repositories) t
      (.ok repositories'))
    (ht : t = before ++ ⟨.collectCommand command timeout, answer⟩ :: after)
    (hquery : IsStatusQuery command) :
    ∃ inspected repository rest' results, rest = inspected ++ repository :: rest' ∧
      command = statusCommand copyRoot repository environment
        (filterDriverUnion (participants indexed repository.relativePath)) ∧
      StatusResults copyRoot environment budget indexed inspected results before ∧
      repositories ++ results <+: repositories' ∧
      unsafeDescendant (repositories ++ results) repository.relativePath = false := by
  obtain ⟨added, hadded, -⟩ := statusAll_traces h
  induction rest generalizing repositories t before added with
  | nil =>
    obtain ⟨rfl, -⟩ := traces_pure.mp h
    exact absurd ht (List.append_ne_nil_of_right_ne_nil _ (List.cons_ne_nil _ _)).symm
  | cons repository rest ih =>
    rw [statusAll] at h
    split at h
    · obtain ⟨later, hlater, -⟩ := statusAll_traces h
      obtain ⟨inspected, other, rest', results, rfl, hcommand, hresults, hfirst, hsafe⟩ :=
        ih h ht later hlater
      refine ⟨repository :: inspected, other, rest',
        .unknown .unsafeDescendant repository.relativePath :: results, rfl, hcommand,
        hresults.skip, by simpa using hfirst, ?_⟩
      rw [← hsafe]
      simp
    · rename_i hunsafe
      obtain ⟨result, t₁, t₂, rfl, hstatus, h⟩ := traces_bind_ok.mp h
      rcases split_append ht with ⟨rest', ht₁⟩ | ⟨before', rfl, ht₂⟩
      · refine ⟨[], repository, rest, [], rfl, ?_, .nil, ?_, by simpa using hunsafe⟩
        · have hmem : ⟨.collectCommand command timeout, answer⟩ ∈ t₁ := by simp [ht₁]
          rcases only_inspectStatus.traces hstatus _ hmem with hsilent | ⟨timeout', he⟩
          · exact absurd hquery hsilent
          · cases he
            rfl
        · rw [hadded, List.append_nil]
          exact List.prefix_append _ _
      · obtain ⟨later, hlater, -⟩ := statusAll_traces h
        obtain ⟨inspected, other, rest', results, rfl, hcommand, hresults, hfirst, hsafe⟩ :=
          ih h ht₂ later hlater
        obtain ⟨hpath, hfound⟩ := inspectStatus_traces hstatus
        refine ⟨repository :: inspected, other, rest', result :: results, rfl, hcommand,
          hresults.cons hpath (fun hstate => statusRan_of_traces (hfound hstate)),
          by simpa using hfirst, ?_⟩
        rw [← hsafe]
        simp

end Git
end ThinWorkspace
