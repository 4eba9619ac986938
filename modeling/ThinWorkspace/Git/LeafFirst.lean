/-
# Every candidate has a result, and the leaves come first

Source: as `Git/Inspect.lean`.  An inspection never fails; after a complete discovery it
reports every candidate once, in path order; a status query runs only when every candidate
inside the repository has a known state; and a known aggregate is earned by every step of
every candidate: `inspect_leaf_first`.

That a step succeeded is said by the exchanges of the run: `StatusRan` names the query, the
successful exit of its process and the count that its output was parsed to.  The last section
is a copy with a repository inside another one, where both are settled.
-/

import ThinWorkspace.Git.InspectRun

namespace ThinWorkspace
namespace Git

open ThinWorkspace.Core Ports Lib Lib.Fallible Lib.Program Lib.Lexicographic

variable {expectedParent copyRoot : List UInt8} {discovery : Discovery} {global : GlobalContext}
  {environment : SourceEnvironment} {budget : CooperativeBudget} {t : List InspectExchange}

/-! ### An inspection never fails

Each loop turns the failure of a candidate into its result, so no part behind the discovery
fails, and a failure of the discovery is an issue of the report.  The whole always returns.
-/

/-- The preflights do not fail: a repository that is refused is reported with its reason. -/
theorem neverFails_preflightAll {candidates : List RelativePath} {state : Preflighted} :
    NeverFails (preflightAll copyRoot discovery global environment budget candidates state) := by
  induction candidates generalizing state with
  | nil => trivial
  | cons relative rest ih =>
    refine NeverFails.bind (neverFails_perform.bind fun _ => trivial) fun expired => ?_
    split
    · exact ih
    · refine neverFails_attempt.bind fun result => ?_
      split <;> exact ih

/-- The loop over the indices does not fail: what fails in it is a result. -/
theorem neverFails_indexAll {prepared indexed : List PreparedRepository}
    {repositories : List Inspected} :
    NeverFails (indexAll copyRoot environment budget prepared indexed repositories) := by
  induction prepared generalizing indexed repositories with
  | nil => trivial
  | cons repository rest ih =>
    refine neverFails_attempt.bind fun result => ?_
    cases result <;> exact ih

/-- The loop over the status queries does not fail. -/
theorem neverFails_statusAll {indexed rest : List PreparedRepository}
    {repositories : List Inspected} :
    NeverFails (statusAll copyRoot environment budget indexed rest repositories) := by
  induction rest generalizing repositories with
  | nil => trivial
  | cons repository rest ih =>
    rw [statusAll]
    split
    · exact ih
    · refine NeverFails.bind (neverFails_attempt.bind fun result => ?_) fun _ => ih
      cases result <;> trivial

/-- Looking at the root once more does not fail: it says whether it changed. -/
theorem neverFails_revalidateRoot : NeverFails (revalidateRoot copyRoot discovery budget) := by
  refine neverFails_attempt.bind fun result => ?_
  cases result with
  | error issue => trivial
  | ok _ =>
    refine NeverFails.bind (neverFails_perform.bind fun opened => ?_) fun _ => trivial
    split <;> trivial

/-- The inspection of the prepared repositories does not fail. -/
theorem neverFails_inspectPrepared {state : Preflighted} :
    NeverFails (inspectPrepared copyRoot environment budget discovery global state) := by
  refine neverFails_indexAll.bind fun _ => neverFails_statusAll.bind fun _ =>
    neverFails_revalidateRoot.bind fun _ => neverFails_attempt.bind fun result => ?_
  cases result <;> trivial

/-- What follows a discovery does not fail: an unsupported source is an issue, and the loops do not
fail. -/
theorem neverFails_inspectDiscovery {scanned : ℕ} :
    NeverFails (inspectDiscovery expectedParent copyRoot environment budget discovery
      scanned) := by
  unfold inspectDiscovery
  split
  · trivial
  · split
    · trivial
    · refine neverFails_attempt.bind fun result => ?_
      cases result with
      | error issue => trivial
      | ok global => exact neverFails_preflightAll.bind fun _ => neverFails_inspectPrepared

/-- **An inspection never fails**, whatever its calls answer: it returns a report. -/
theorem neverFails_inspectWithOptions {limits : InspectionLimits} :
    NeverFails (inspectWithOptions expectedParent copyRoot environment limits) := by
  refine NeverFails.bind (neverFails_perform.bind fun now => neverFails_attempt.bind fun result =>
    ?_) fun _ => trivial
  cases result with
  | error issue => trivial
  | ok found => exact neverFails_inspectDiscovery

/-! ### What a candidate went through

What a known state means: every step of the candidate succeeded in this run, and its status
query was answered.  `LeafFirst` is the statement about the whole run. -/

/-- Every step of the candidate succeeded in the run, and its status is this state. -/
def Settled (expectedParent copyRoot : List UInt8) (environment : SourceEnvironment)
    (budget : CooperativeBudget) (discovery : Discovery) (candidate : RelativePath)
    (state : RepositoryState) (t : List InspectExchange) : Prop :=
  ∃ global repository indexed, repository.relativePath = candidate ∧
    Ran (preflightSources expectedParent copyRoot environment budget) (.ok global) t ∧
    PreflightRan copyRoot discovery global environment budget repository t ∧
    IndexRan copyRoot environment budget repository t ∧
    StatusRan copyRoot environment budget indexed repository state t

/-- The repository is a candidate, and every candidate at or inside its path is one of
`indexed`: its preflight and the check of its index flags succeeded in the run. -/
structure Guarded (expectedParent copyRoot : List UInt8) (environment : SourceEnvironment)
    (budget : CooperativeBudget) (discovery : Discovery) (global : GlobalContext)
    (indexed : List PreparedRepository) (repository : PreparedRepository)
    (t : List InspectExchange) : Prop where
  candidate : repository.relativePath ∈ discovery.candidates
  sources : Ran (preflightSources expectedParent copyRoot environment budget) (.ok global) t
  inside : ∀ candidate ∈ discovery.candidates, candidate = repository.relativePath ∨
      isStrictDescendant candidate repository.relativePath = true →
    ∃ participant ∈ indexed, participant.relativePath = candidate ∧
      PreflightRan copyRoot discovery global environment budget participant t ∧
      IndexRan copyRoot environment budget participant t

/-- What is said of a run of the inspection that discovered `discovery`. -/
structure LeafFirst (expectedParent copyRoot : List UInt8) (environment : SourceEnvironment)
    (budget : CooperativeBudget) (discovery : Discovery) (t : List InspectExchange)
    (inspection : GitInspection) : Prop where
  /-- One result for each candidate, in their order. -/
  reported : inspection.repositories.map (·.relativePath) = discovery.candidates.map pathBytes
  /-- A status query is that of a candidate; each one inside it has a known result. -/
  leaves : ∀ before command timeout answer after,
    t = before ++ ⟨.collectCommand command timeout, answer⟩ :: after → IsStatusQuery command →
    ∃ global indexed repository,
      Guarded expectedParent copyRoot environment budget discovery global indexed repository
        before ∧
      command = statusCommand copyRoot repository environment
        (filterDriverUnion (participants indexed repository.relativePath)) ∧
      ∀ candidate ∈ discovery.candidates,
        isStrictDescendant candidate repository.relativePath = true →
        ∃ result ∈ inspection.repositories, result.relativePath = pathBytes candidate ∧
          result.state ≠ .unknown ∧ Settled expectedParent copyRoot environment budget discovery
            candidate result.state before
  /-- A step that did not succeed makes the aggregate unknown. -/
  earned : inspection.aggregate ≠ .unknown →
    discovery.completeness = .complete ∧ discovery.issues = [] ∧
      ∀ candidate ∈ discovery.candidates, ∃ state, state ≠ .unknown ∧
        Settled expectedParent copyRoot environment budget discovery candidate state t

/-- A known aggregate is earned: the discovery was complete, nothing is an issue, and every
repository has a known state.  The aggregate is computed from the states only if nothing is an
issue, and it is unknown where one of the states is or the discovery is incomplete. -/
theorem aggregate_known {inspection : GitInspection} (h : inspection.aggregate ≠ .unknown) :
    inspection.discovery = .complete ∧ inspection.issues = [] ∧
      ∀ repository ∈ inspection.repositories, repository.state ≠ .unknown := by
  rw [inspection.aggregate_eq, inspectionAggregate] at h
  split at h
  · rename_i hissues
    unfold aggregateGitState at h
    split at h
    · exact absurd rfl h
    · rename_i hsettled
      rw [not_or] at hsettled
      refine ⟨?_, List.isEmpty_iff.mp hissues, fun repository hmem hstate => ?_⟩
      · cases hdiscovery : inspection.discovery with
        | complete => rfl
        | incomplete => exact absurd hdiscovery hsettled.1
      · exact hsettled.2 (hstate ▸ List.mem_map_of_mem hmem)
  · exact absurd rfl h

/-- Candidates that all have an unknown result for the same reason.  There was no status query, so
the ordering holds of none, and such an inspection has no known aggregate. -/
theorem leafFirst_unknown {completeness : DiscoveryCompleteness}
    {issues : List GitInspectionIssue} {issue : GitInspectionIssue}
    (hfailed : completeness = .incomplete ∨ issues ≠ [])
    (hquiet : ∀ exchange ∈ t, Silent exchange.op) :
    LeafFirst expectedParent copyRoot environment budget discovery t
      (Concluded.finish ⟨completeness, issues, discovery.candidates.map (.unknown issue)⟩) where
  reported := by
    simp [Concluded.finish, GitInspection.new, Inspected.report, Inspected.unknown]
  leaves := by
    intro before command timeout answer after ht hquery
    have hmem : ⟨.collectCommand command timeout, answer⟩ ∈ t := by simp [ht]
    exact absurd hquery (hquiet _ hmem)
  earned := by
    intro h
    obtain ⟨hcomplete, hissues, -⟩ := aggregate_known h
    rcases hfailed with hincomplete | hne
    · exact absurd (hcomplete.symm.trans hincomplete) (by decide)
    · exact absurd hissues hne

/-! ### After the preflights

A repository is inspected behind those inside it, since the sorting by depth puts deeper
ones first.  The invariant of the last loop says which candidates have results and that
their queries came in this order. -/

/-- What the loops have made of the candidates when the last status is known. -/
structure LoopsDone (expectedParent copyRoot : List UInt8) (environment : SourceEnvironment)
    (budget : CooperativeBudget) (discovery : Discovery) (repositories : List Inspected)
    (t : List InspectExchange) : Prop where
  paths : (repositories.map (·.relativePath)).Perm discovery.candidates
  known : ∀ result ∈ repositories, result.state ≠ .unknown →
    Settled expectedParent copyRoot environment budget discovery result.relativePath
      result.state t
  leaves : ∀ before command timeout answer after,
    t = before ++ ⟨.collectCommand command timeout, answer⟩ :: after → IsStatusQuery command →
    ∃ global indexed repository,
      Guarded expectedParent copyRoot environment budget discovery global indexed repository
        before ∧
      command = statusCommand copyRoot repository environment
        (filterDriverUnion (participants indexed repository.relativePath)) ∧
      ∀ candidate ∈ discovery.candidates,
        isStrictDescendant candidate repository.relativePath = true →
        ∃ result ∈ repositories, result.relativePath = candidate ∧ result.state ≠ .unknown ∧
          Settled expectedParent copyRoot environment budget discovery candidate result.state
            before

/-- Sorting by depth keeps the repositories, each as often as it was there. -/
theorem sortByDepth_perm (repositories : List PreparedRepository) :
    (sortByDepth repositories).Perm repositories := List.mergeSort_perm _ _

/-- Sorting by depth puts no repository before a deeper one. -/
theorem sortByDepth_pairwise (repositories : List PreparedRepository) :
    (sortByDepth repositories).Pairwise fun a b =>
      b.relativePath.length ≤ a.relativePath.length := by
  have hsorted : (sortByDepth repositories).Pairwise fun a b =>
      decide (b.relativePath.length ≤ a.relativePath.length) = true := by
    refine List.pairwise_mergeSort (fun a b c hab hbc => ?_) (fun a b => ?_) repositories
    · simp only [decide_eq_true_eq] at hab hbc ⊢
      omega
    · simpa using Nat.le_total b.relativePath.length a.relativePath.length
  exact hsorted.imp fun hab => by simpa using hab

/-- A path strictly inside another is deeper, so its repository comes first. -/
theorem length_lt_of_isStrictDescendant {candidate parent : RelativePath}
    (h : isStrictDescendant candidate parent = true) : parent.length < candidate.length := by
  rw [isStrictDescendant, Bool.and_eq_true, decide_eq_true_eq, List.isPrefixOf_iff_prefix] at h
  obtain ⟨hne, rest, rfl⟩ := h
  have hrest : rest ≠ [] := by
    rintro rfl
    exact hne (by simp)
  have hpos := List.length_pos_of_ne_nil hrest
  rw [List.length_append]
  omega

/-- Where no descendant is unsafe, every candidate inside has a known state. -/
theorem unsafeDescendant_eq_false {repositories : List Inspected} {relative : RelativePath}
    (h : unsafeDescendant repositories relative = false) {result : Inspected}
    (hmem : result ∈ repositories)
    (hinside : isStrictDescendant result.relativePath relative = true) :
    result.state ≠ .unknown := by
  intro hstate
  have hfalse := List.any_eq_false.mp h result hmem
  rw [hstate, hinside] at hfalse
  exact hfalse rfl

/-- A candidate inside a repository whose status query runs was inspected before it: one that was
refused would be an unsafe descendant, and one still to come is not as deep.  The candidate is
among those that passed, and the order by depth puts it before the repository that contains it;
hence it is in the part of the list that was done. -/
theorem mem_inspected {prepared passed inspected rest : List PreparedRepository}
    {refused refused₂ results : List Inspected} {repository : PreparedRepository}
    {candidates : List RelativePath} {candidate : RelativePath}
    (hpaths : (prepared.map (·.relativePath) ++ refused.map (·.relativePath)).Perm candidates)
    (hpaths₂ : (passed.map (·.relativePath) ++ refused₂.map (·.relativePath)).Perm
      (prepared.map (·.relativePath)))
    (hunknown : ∀ result ∈ refused ++ refused₂, result.state = .unknown)
    (hrest : sortByDepth passed = inspected ++ repository :: rest)
    (hsafe : unsafeDescendant (refused ++ refused₂ ++ results) repository.relativePath = false)
    (hcandidate : candidate ∈ candidates)
    (hinside : isStrictDescendant candidate repository.relativePath = true) :
    candidate ∈ inspected.map (·.relativePath) := by
  have hno : ∀ result ∈ refused ++ refused₂, result.relativePath ≠ candidate := by
    rintro result hresult rfl
    exact unsafeDescendant_eq_false hsafe (List.mem_append_left _ hresult) hinside
      (hunknown result hresult)
  have hpath : candidate ∈ passed.map (·.relativePath) := by
    rcases List.mem_append.mp (hpaths.mem_iff.mpr hcandidate) with hpath | hpath
    · rcases List.mem_append.mp (hpaths₂.mem_iff.mpr hpath) with hpath | hpath
      · exact hpath
      · obtain ⟨result, hresult, he⟩ := List.mem_map.mp hpath
        exact absurd he (hno result (List.mem_append_right _ hresult))
    · obtain ⟨result, hresult, he⟩ := List.mem_map.mp hpath
      exact absurd he (hno result (List.mem_append_left _ hresult))
  rw [← ((sortByDepth_perm passed).map _).mem_iff, hrest, List.map_append, List.mem_append,
    List.map_cons, List.mem_cons] at hpath
  have hdeeper := length_lt_of_isStrictDescendant hinside
  rcases hpath with hpath | rfl | hpath
  · exact hpath
  · exact absurd hdeeper (Nat.lt_irrefl _)
  · obtain ⟨other, hother, rfl⟩ := List.mem_map.mp hpath
    have hpairwise := sortByDepth_pairwise passed
    rw [hrest, List.pairwise_append, List.pairwise_cons] at hpairwise
    have hle := hpairwise.2.1.1 other hother
    omega

/-- **What the loops have made of the candidates.**  The repositories that failed the preflight,
the index flags or a status query, and those that were settled, are together all of them.  The two
loops come first, over the index flags and over the status queries, and behind them the copy root
and the evidence of the configuration are checked again.  The reports of all of them together are a
permutation of the candidates. -/
theorem inspectPrepared_traces {start state : Preflighted}
    {passed : List PreparedRepository} {refused : List Inspected} {t₀ : List InspectExchange}
    {concluded : Concluded}
    (hsources : Ran (preflightSources expectedParent copyRoot environment budget) (.ok global) t₀)
    (hadds : PreflightAdds discovery.candidates start state passed refused)
    (hstart : start.prepared = [] ∧ start.repositories = [])
    (hran : ∀ repository ∈ passed,
      PreflightRan copyRoot discovery global environment budget repository t₀)
    (hquiet : ∀ exchange ∈ t₀, Silent exchange.op)
    (h : Traces (inspectPrepared copyRoot environment budget discovery global state) t
      (.ok concluded)) :
    ∃ repositories,
      LoopsDone expectedParent copyRoot environment budget discovery repositories (t₀ ++ t) ∧
      concluded.repositories = sortByPath repositories ∧
      (concluded.completeness = .complete →
        state.completeness = .complete ∧ concluded.issues = state.issues) := by
  obtain ⟨⟨indexed, repositories₂⟩, t₁, t₂, rfl, hindex, h⟩ := traces_bind_ok.mp h
  obtain ⟨passed₂, refused₂, hindexed, hflags⟩ := indexAll_traces hindex
  obtain ⟨repositories, t₃, t₄, rfl, hstatus, h⟩ := traces_bind_ok.mp h
  obtain ⟨fault, t₅, t₆, rfl, hroot, h⟩ := traces_bind_ok.mp h
  obtain ⟨result, t₇, t₈, rfl, hevidence, h⟩ := traces_bind_ok.mp h
  have hprepared : state.prepared = passed := by rw [hadds.prepared, hstart.1, List.nil_append]
  have hrefused : state.repositories = refused := by
    rw [hadds.repositories, hstart.2, List.nil_append]
  have hpassed₂ : indexed = passed₂ := by simpa using hindexed.indexed
  have hrepositories₂ : repositories₂ = refused ++ refused₂ := by
    rw [← hrefused]
    exact hindexed.repositories
  simp only [hpassed₂, hrepositories₂] at hstatus
  have hpassed : ∀ repository ∈ sortByDepth passed₂, ∀ t' : List InspectExchange,
      PreflightRan copyRoot discovery global environment budget repository (t₀ ++ (t₁ ++ t')) ∧
      IndexRan copyRoot environment budget repository (t₀ ++ (t₁ ++ t')) := by
    intro repository hmem t'
    have hmem₂ : repository ∈ passed₂ := (sortByDepth_perm passed₂).mem_iff.mp hmem
    have hmem₁ : repository ∈ passed := hprepared ▸ hindexed.subset repository hmem₂
    exact ⟨(hran repository hmem₁).mono (List.prefix_append _ _).isInfix,
      (hflags repository hmem₂).mono ⟨t₀, t', by simp⟩⟩
  -- a repository whose status was found after the first two loops is settled
  have hsettled : ∀ repository ∈ sortByDepth passed₂, ∀ {state} {t' : List InspectExchange},
      StatusRan copyRoot environment budget (sortByDepth passed₂) repository state t' →
      Settled expectedParent copyRoot environment budget discovery repository.relativePath state
        (t₀ ++ (t₁ ++ t')) := by
    intro repository hmem state t' hstate
    obtain ⟨hpreflight, hindex⟩ := hpassed repository hmem t'
    exact ⟨global, repository, sortByDepth passed₂, rfl, hsources.left, hpreflight, hindex,
      hstate.mono ⟨t₀ ++ t₁, [], by simp⟩⟩
  obtain ⟨results, hrepositories, hresults⟩ := statusAll_traces hstatus
  have hunknown : ∀ result ∈ refused ++ refused₂, result.state = .unknown := by
    intro result hmem
    rcases List.mem_append.mp hmem with hmem | hmem
    · exact hadds.unknown result hmem
    · exact hindexed.unknown result hmem
  refine ⟨repositories, ⟨?_, ?_, ?_⟩, ?_, ?_⟩
  · have hsorted := (sortByDepth_perm passed₂).map (·.relativePath)
    rw [List.perm_iff_count]
    intro path
    have h₁ := (hadds.paths.count_eq path)
    have h₂ := (hindexed.paths.count_eq path)
    have h₃ := (hsorted.count_eq path)
    rw [hprepared] at h₂
    rw [hrepositories, List.map_append, List.map_append, hresults.paths]
    simp only [List.count_append] at h₁ h₂ h₃ ⊢
    omega
  · intro result hmem hstate
    rw [hrepositories, List.mem_append] at hmem
    rcases hmem with hmem | hmem
    · exact absurd (hunknown result hmem) hstate
    · obtain ⟨repository, hrepository, hpath, hfound⟩ := hresults.found result hmem hstate
      rw [← hpath]
      exact hsettled repository hrepository (hfound.mono (List.prefix_append _ _).isInfix)
  · intro before command timeout answer after ht hquery
    have hnot : ∀ {t' : List InspectExchange}, (∀ exchange ∈ t', Silent exchange.op) →
        ∀ {front back : List InspectExchange},
          t' ≠ front ++ ⟨.collectCommand command timeout, answer⟩ :: back := by
      intro t' hsilent front back he
      have hmem : ⟨.collectCommand command timeout, answer⟩ ∈ t' := by simp [he]
      exact absurd hquery (hsilent _ hmem)
    rcases split_append ht with ⟨_, he⟩ | ⟨before₁, rfl, ht₁⟩
    · exact absurd he (hnot hquiet)
    rcases split_append ht₁ with ⟨_, he⟩ | ⟨before₃, rfl, ht₃⟩
    · exact absurd he (hnot (quiet_indexAll.traces hindex))
    rcases split_append ht₃ with ⟨_, he⟩ | ⟨before₅, rfl, ht₅⟩
    · obtain ⟨inspected, repository, rest', results', hrest, hcommand, hresults', hfirst, hsafe⟩ :=
        statusAll_query hstatus he hquery
      have hmem : repository ∈ sortByDepth passed₂ := by simp [hrest]
      have hmem₂ : repository ∈ passed₂ := (sortByDepth_perm passed₂).mem_iff.mp hmem
      have hinspected : ∀ candidate ∈ discovery.candidates,
          isStrictDescendant candidate repository.relativePath = true →
          candidate ∈ inspected.map (·.relativePath) := fun candidate hcandidate hinside =>
        mem_inspected (hprepared ▸ hadds.paths) hindexed.paths hunknown hrest hsafe hcandidate
          hinside
      refine ⟨global, sortByDepth passed₂, repository, ⟨?_, hsources.left, ?_⟩, hcommand, ?_⟩
      · refine hadds.paths.mem_iff.mp (List.mem_append_left _ ?_)
        exact List.mem_map_of_mem (hprepared ▸ hindexed.subset repository hmem₂)
      · rintro candidate hcandidate (rfl | hinside)
        · exact ⟨repository, hmem, rfl, hpassed repository hmem before₃⟩
        · obtain ⟨participant, hparticipant, rfl⟩ :=
            List.mem_map.mp (hinspected candidate hcandidate hinside)
          have hmem' : participant ∈ sortByDepth passed₂ :=
            hrest ▸ List.mem_append_left _ hparticipant
          exact ⟨participant, hmem', rfl, hpassed participant hmem' before₃⟩
      intro candidate hcandidate hinside
      have hpath := hinspected candidate hcandidate hinside
      rw [← hresults'.paths] at hpath
      obtain ⟨result, hresult, rfl⟩ := List.mem_map.mp hpath
      have hstate : result.state ≠ .unknown :=
        unsafeDescendant_eq_false hsafe (List.mem_append_right _ hresult) hinside
      refine ⟨result, hfirst.subset (List.mem_append_right _ hresult), rfl, hstate, ?_⟩
      obtain ⟨found, hfound, he, hran'⟩ := hresults'.found result hresult hstate
      rw [← he]
      exact hsettled found (hrest ▸ List.mem_append_left _ hfound) hran'
    rcases split_append ht₅ with ⟨_, he⟩ | ⟨before₇, rfl, ht₇⟩
    · exact absurd he (hnot (quiet_revalidateRoot.traces hroot))
    rcases split_append ht₇ with ⟨_, he⟩ | ⟨before₈, rfl, ht₈⟩
    · exact absurd he (hnot ((Only.attempt quiet_revalidateFileEvidence).traces hevidence))
    · have hlast : t₈ = [] := by cases result <;> exact (traces_pure.mp h).1
      exact absurd (hlast.symm.trans ht₈)
        (List.append_ne_nil_of_right_ne_nil _ (List.cons_ne_nil _ _)).symm
  · cases result <;> cases (traces_pure.mp h).2 <;> cases fault <;> rfl
  · cases result with
    | ok _ =>
      cases (traces_pure.mp h).2
      cases fault with
      | none => exact fun hc => ⟨hc, rfl⟩
      | some issue => exact fun hc => nomatch hc
    | error issue =>
      cases (traces_pure.mp h).2
      exact fun hc => nomatch hc

/-- Results in path order are those of the candidates, one by one.  Both lists are sorted by the
same linear order and have the same elements, so they are equal. -/
theorem map_sortByPath {repositories : List Inspected}
    (h : (repositories.map (·.relativePath)).Perm discovery.candidates) :
    (sortByPath repositories).map (·.relativePath) = discovery.candidates := by
  have hperm : ((sortByPath repositories).map (·.relativePath)).Perm discovery.candidates :=
    ((List.mergeSort_perm _ _).map _).trans h
  have hsorted : ((sortByPath repositories).map (·.relativePath)).Pairwise fun a b =>
      namesLe a b = true := by
    rw [List.pairwise_map]
    refine List.pairwise_mergeSort (fun a b c hab hbc => ?_) (fun a b => ?_) repositories
    · exact linearLe_namesLe.trans _ _ _ hab hbc
    · rw [Bool.or_eq_true]
      exact linearLe_namesLe.total _ _
  refine hperm.eq_of_pairwise (fun a b _ _ hab hba => linearLe_namesLe.antisymm a b hab hba)
    hsorted (discovery.candidates_pairwise.imp And.left)

/-- The loops end in an inspection whose leaves came first.  The report sorts what the loops have
gathered, which changes no element; a known aggregate then leads back to what the loops say of each
result. -/
theorem LoopsDone.leafFirst {repositories : List Inspected} {concluded : Concluded}
    (h : LoopsDone expectedParent copyRoot environment budget discovery repositories t)
    (hrepositories : concluded.repositories = sortByPath repositories)
    (hcomplete : concluded.completeness = .complete →
      discovery.completeness = .complete ∧ concluded.issues = discovery.issues) :
    LeafFirst expectedParent copyRoot environment budget discovery t concluded.finish := by
  have hmem : ∀ result, result ∈ concluded.repositories ↔ result ∈ repositories := by
    intro result
    rw [hrepositories]
    exact List.mem_mergeSort
  have hreported : ∀ result ∈ repositories,
      result.report ∈ concluded.finish.repositories := fun result hresult =>
    List.mem_map_of_mem ((hmem result).mpr hresult)
  refine ⟨?_, ?_, fun hknown => ?_⟩
  · have hpaths : (concluded.repositories.map Inspected.report).map (·.relativePath) =
        (concluded.repositories.map (·.relativePath)).map pathBytes := by
      rw [List.map_map, List.map_map]
      rfl
    rw [← map_sortByPath h.paths, ← hrepositories]
    exact hpaths
  · intro before command timeout answer after ht hquery
    obtain ⟨global, indexed, repository, hguarded, hcommand, hinside⟩ :=
      h.leaves before command timeout answer after ht hquery
    refine ⟨global, indexed, repository, hguarded, hcommand, fun candidate hc hdesc => ?_⟩
    obtain ⟨result, hresult, rfl, hstate, hsettled⟩ := hinside candidate hc hdesc
    exact ⟨result.report, hreported result hresult, rfl, hstate, hsettled⟩
  · obtain ⟨hdiscovery, hissues, hstates⟩ := aggregate_known hknown
    obtain ⟨hdone, he⟩ := hcomplete hdiscovery
    refine ⟨hdone, he ▸ hissues, fun candidate hcandidate => ?_⟩
    obtain ⟨result, hresult, rfl⟩ := List.mem_map.mp (h.paths.mem_iff.mpr hcandidate)
    have hstate : result.state ≠ .unknown := hstates _ (hreported result hresult)
    exact ⟨result.state, hstate, h.known result hresult hstate⟩

/-- What follows a discovery that found something: with the part before it, whose calls are silent,
the whole inspection is leaf-first.  An incomplete discovery and one without candidates end at
once.  Otherwise the sources are read, each candidate is preflighted, and the loops follow, whose
part is `inspectPrepared_traces`. -/
theorem inspectDiscovery_leafFirst {scanned : ℕ} {concluded : Concluded}
    {t₀ : List InspectExchange} (hquiet : ∀ exchange ∈ t₀, Silent exchange.op)
    (h : Traces (inspectDiscovery expectedParent copyRoot environment budget discovery scanned) t
      (.ok concluded)) :
    LeafFirst expectedParent copyRoot environment budget discovery (t₀ ++ t) concluded.finish := by
  unfold inspectDiscovery at h
  split at h
  · obtain ⟨rfl, he⟩ := traces_pure.mp h
    cases he
    exact leafFirst_unknown (.inl rfl) (by simpa using hquiet)
  split at h
  · rename_i hempty
    obtain ⟨rfl, he⟩ := traces_pure.mp h
    cases he
    have hdone : LoopsDone expectedParent copyRoot environment budget discovery [] (t₀ ++ []) := by
      refine ⟨by simp [hempty], by simp, ?_⟩
      intro before command timeout answer after ht hquery
      have hmem : ⟨.collectCommand command timeout, answer⟩ ∈ t₀ := by
        rw [List.append_nil] at ht
        simp [ht]
      exact absurd hquery (hquiet _ hmem)
    exact hdone.leafFirst List.mergeSort_nil.symm fun hc => ⟨hc, rfl⟩
  · obtain ⟨result, t₁, t₂, rfl, hresult, h₂⟩ := traces_bind_ok.mp h
    obtain ⟨_, he, hsources⟩ := traces_attempt.mp hresult
    cases he
    have hquiet₁ : ∀ exchange ∈ t₀ ++ t₁, Silent exchange.op := by
      intro exchange hmem
      rcases List.mem_append.mp hmem with hmem | hmem
      · exact hquiet exchange hmem
      · exact quiet_preflightSources.traces hsources exchange hmem
    cases result with
    | error issue =>
      obtain ⟨rfl, he⟩ := traces_pure.mp h₂
      cases he
      exact leafFirst_unknown (.inr (List.append_ne_nil_of_right_ne_nil _ (List.cons_ne_nil _ _)))
        (by simpa using hquiet₁)
    | ok global =>
      obtain ⟨state, t₃, t₄, rfl, hpreflights, h₃⟩ := traces_bind_ok.mp h₂
      obtain ⟨passed, refused, hadds, hran⟩ := preflightAll_traces hpreflights
      have hquiet₃ : ∀ exchange ∈ t₀ ++ t₁ ++ t₃, Silent exchange.op := by
        intro exchange hmem
        rcases List.mem_append.mp hmem with hmem | hmem
        · exact hquiet₁ exchange hmem
        · exact quiet_preflightAll.traces hpreflights exchange hmem
      obtain ⟨repositories, hdone, hrepositories, hcomplete⟩ := inspectPrepared_traces
        (hsources.ran.right.left) hadds ⟨rfl, rfl⟩
        (fun repository hmem => (hran repository hmem).mono (List.suffix_append _ _).isInfix)
        hquiet₃ h₃
      have hrun : t₀ ++ (t₁ ++ (t₃ ++ t₄)) = t₀ ++ t₁ ++ t₃ ++ t₄ := by simp
      rw [hrun]
      refine hdone.leafFirst hrepositories fun hc => ?_
      obtain ⟨hstate, hissues'⟩ := hcomplete hc
      obtain ⟨hdiscovery, hissues''⟩ := hadds.complete hstate
      exact ⟨hdiscovery, hissues'.trans hissues''⟩

/-- What is said of a whole run of the inspection. -/
def LeafFirstRun (expectedParent copyRoot : List UInt8) (environment : SourceEnvironment)
    (limits : InspectionLimits) (t : List InspectExchange)
    (outcome : Except GitInspectionIssue GitInspection) : Prop :=
  ∃ inspection now found t₁ t₂, outcome = .ok inspection ∧ t = ⟨.now, now⟩ :: (t₁ ++ t₂) ∧
    Traces (discover copyRoot ⟨now + limits.totalTimeout, limits⟩) t₁ found ∧
    match found with
    | .error _ => inspection.repositories = [] ∧ inspection.aggregate = .unknown
    | .ok (discovery, _) =>
      LeafFirst expectedParent copyRoot environment ⟨now + limits.totalTimeout, limits⟩ discovery t
        inspection

/-- The parts of a run: the discovery, and what follows one that found something.  The run begins
with the reading of the clock that fixes the budget, and the discovery never fails as a whole: its
failure is answered. -/
theorem inspectWithOptions_parts {limits : InspectionLimits}
    {outcome : Except GitInspectionIssue GitInspection}
    (h : Traces (inspectWithOptions expectedParent copyRoot environment limits) t outcome) :
    ∃ concluded now found t₁ t₂, outcome = .ok (Concluded.finish concluded) ∧
      t = ⟨.now, now⟩ :: (t₁ ++ t₂) ∧
      Traces (discover copyRoot ⟨now + limits.totalTimeout, limits⟩) t₁ found ∧
      match found with
      | .error issue => t₂ = [] ∧ concluded = ⟨.incomplete, [issue], []⟩
      | .ok (discovery, scanned) =>
        Traces (inspectDiscovery expectedParent copyRoot environment
          ⟨now + limits.totalTimeout, limits⟩ discovery scanned) t₂ (.ok concluded) := by
  obtain ⟨inspection, rfl⟩ := neverFails_inspectWithOptions.traces h
  obtain ⟨concluded, t', t'', rfl, hconcluded, hfinish⟩ := traces_bind_ok.mp h
  obtain ⟨rfl, he⟩ := traces_pure.mp hfinish
  cases he
  obtain ⟨now, rest, rfl, hrest⟩ := traces_perform_bind.mp hconcluded
  obtain ⟨result, t₁, t₂, rfl, hresult, h₂⟩ := traces_bind_ok.mp hrest
  obtain ⟨_, he, hdiscover⟩ := traces_attempt.mp hresult
  cases he
  refine ⟨concluded, now, result, t₁, t₂, rfl, by simp, hdiscover, ?_⟩
  cases result with
  | error issue =>
    obtain ⟨ht, he⟩ := traces_pure.mp h₂
    exact ⟨ht, Except.ok.inj he⟩
  | ok found => exact h₂

/-- Every run is total and leaf-first, whether its discovery found something or failed.  A
discovery that failed has inspected nothing and is reported by its one issue. -/
theorem leafFirstRun_of_traces {limits : InspectionLimits}
    {outcome : Except GitInspectionIssue GitInspection}
    (h : Traces (inspectWithOptions expectedParent copyRoot environment limits) t outcome) :
    LeafFirstRun expectedParent copyRoot environment limits t outcome := by
  obtain ⟨concluded, now, found, t₁, t₂, rfl, rfl, hdiscover, h₂⟩ := inspectWithOptions_parts h
  refine ⟨concluded.finish, now, found, t₁, t₂, rfl, rfl, hdiscover, ?_⟩
  cases found with
  | error issue =>
    obtain ⟨-, rfl⟩ := h₂
    exact ⟨rfl, rfl⟩
  | ok found =>
    obtain ⟨discovery, scanned⟩ := found
    have hquiet : ∀ exchange ∈ ⟨.now, now⟩ :: t₁, Silent exchange.op :=
      List.forall_mem_cons.mpr ⟨trivial, quiet_discover.traces hdiscover⟩
    exact inspectDiscovery_leafFirst hquiet h₂

/-- **Total and leaf-first.**  Whatever the surroundings answer, an inspection returns; it
reports every candidate of its discovery once, in path order; a status query runs only when
every candidate inside the repository has a known result; and unless the aggregate is
unknown, the discovery was complete and every step of every candidate succeeded. -/
theorem inspect_leaf_first {limits : InspectionLimits}
    {outcome : Except GitInspectionIssue GitInspection}
    (h : Traces (inspectWithOptions expectedParent copyRoot environment limits) t outcome) :
    LeafFirstRun expectedParent copyRoot environment limits t outcome := leafFirstRun_of_traces h

/-! ### A copy with a repository inside another

The root of the copy is a repository, and its directory `a` is one.  Git prints the same
configuration for both, with one filter; it finds no entry of an index and no change.  The
inspection of this copy asks for the status of `a` before that of the root, and both are
clean (`evaluate_nested`). -/

/-- What stands in the copy: the two repositories, each with a head and a configuration. -/
def nestedEntries : List (RelativePath × FileType) :=
  [([], .directory), ([gitName], .directory), ([gitName, ascii "HEAD"], .regularFile),
    ([gitName, ascii "config"], .regularFile), ([ascii "a"], .directory),
    ([ascii "a", gitName], .directory), ([ascii "a", gitName, ascii "HEAD"], .regularFile),
    ([ascii "a", gitName, ascii "config"], .regularFile)]

/-- What stands at a path of the copy, if anything does. -/
def nestedType (path : RelativePath) : Option FileType := nestedEntries.lookup path

/-- The names in a directory of the copy, as they follow from its entries. -/
def nestedNames (directory : RelativePath) : List (List UInt8) :=
  nestedEntries.filterMap fun entry =>
    if entry.1.dropLast == directory then entry.1.getLast? else none

/-- The identity of a file of this type, the same for all of them. -/
def nestedIdentity : FileType → Identity
  | .directory => ⟨1, 2, 4 * 4096, 0, 0, 0⟩
  | _ => ⟨1, 3, 8 * 4096, 0, 0, 0⟩

/-- What a read finds: the head of a repository is detached, and a configuration is a file
whose contents only Git reads. -/
def nestedRead (path : List UInt8) : Except Errno (Identity × List UInt8) :=
  if path == ascii "/.git/HEAD" || path == ascii "/a/.git/HEAD" then
    .ok (nestedIdentity .regularFile, List.replicate 40 48)
  else if path == ascii "/.git/config" || path == ascii "/a/.git/config" then
    .ok (nestedIdentity .regularFile, [])
  else .error .noent

/-- What Git prints: where it is installed, an index without entries, a status without a
change, and a configuration with the filter `lfs`. -/
def nestedOutput (args : List (List UInt8)) : List UInt8 :=
  if args.contains (ascii "--exec-path") then ascii "/usr/libexec/git-core"
  else if args.contains (ascii "ls-files") || args.contains (ascii "status") then []
  else ascii "filter.lfs.clean\ngit-lfs" ++ [0]

/-- What stands at a path is one of the entries of the copy.  The lookup in a list of pairs answers
with one of its pairs. -/
theorem mem_nestedEntries {path : RelativePath} {fileType : FileType}
    (h : nestedType path = some fileType) : (path, fileType) ∈ nestedEntries := by
  have hpairs : ∀ entries : List (RelativePath × FileType), entries.lookup path = some fileType →
      (path, fileType) ∈ entries := by
    intro entries
    induction entries with
    | nil => simp
    | cons entry entries ih =>
      obtain ⟨other, kind⟩ := entry
      rw [List.lookup_cons]
      split
      · rename_i he
        rintro ⟨⟩
        rw [eq_of_beq he]
        exact List.mem_cons_self
      · exact fun hrest => List.mem_cons_of_mem _ (ih hrest)
  exact hpairs nestedEntries h

/-- The copy is a tree: an entry stands in a directory, under a name. -/
theorem nestedType_parent (path : RelativePath) (name : List UInt8)
    (h : nestedType (path ++ [name]) ≠ none) :
    nestedType path = some .directory ∧ IsName name := by
  have hentries : ∀ entry ∈ nestedEntries, entry.1 = [] ∨
      nestedType entry.1.dropLast = some .directory ∧ ∀ last ∈ entry.1.getLast?, IsName last := by
    decide +kernel
  obtain ⟨fileType, hfound⟩ := Option.ne_none_iff_exists'.mp h
  have hparent := hentries _ (mem_nestedEntries hfound)
  simpa using hparent

/-- A file of this type as an entry of the tree in which references are resolved. -/
def nestedTreeEntry : FileType → TreeEntry
  | .directory => .directory
  | _ => .other

/-- The copy as the tree in which references are resolved. -/
def nestedFileTree : FileTree where
  entry path := (nestedType path).map nestedTreeEntry
  opens _ := true
  root := rfl
  parent path name h := by
    have hfound : nestedType (path ++ [name]) ≠ none := fun hnone => h (by rw [hnone]; rfl)
    rw [(nestedType_parent path name hfound).1]
    rfl

/-- The answer to each call, which depends on the call alone: the copy does not change. -/
def nestedAnswer : (call : InspectCall) → call.Result
  | .now => (0 : ℕ)
  | .openAbsoluteDirectory _ =>
    (.ok (some (nestedIdentity .directory)) : Except Errno (Option Identity))
  | .openRelativeDirectory _ =>
    (.ok (some (nestedIdentity .directory)) : Except Errno (Option Identity))
  | .duplicateRoot => true
  | .readDirectory directory => some ((nestedNames directory).map some)
  | .statAt directory name => (nestedType (directory ++ [name])).map nestedIdentity
  | .openAt _ _ => true
  | .statRelative _ => some none
  | .statAbsoluteNofollow _ => some none
  | .openRootFile relative _ => nestedRead (copyPath [slash] relative)
  | .openAbsoluteFile path _ => nestedRead path
  | .tree => nestedFileTree
  | .statNullDevice => some true
  | .etcMetadata => (none : Option (Bool × ℕ))
  | .etcTarget => (none : Option (List UInt8))
  | .directoryMetadata _ => (none : Option (ℕ × ℕ))
  | .collectCommand command _ => some ⟨⟨some 0, none⟩, nestedOutput command.args⟩

/-- The limits of the run, none of which it meets. -/
def nestedLimits : InspectionLimits := ⟨1, 100, 10, 10, 1000⟩

/-- The budget of the run, whose deadline the sample clock never reaches. -/
def nestedBudget : CooperativeBudget := ⟨1, nestedLimits⟩

/-- An environment in which nothing is read outside the copy. -/
def nestedEnvironment : SourceEnvironment :=
  ⟨none, none, some (ascii "1"), none, none, some (ascii "1"), false⟩

/-- What the walk finds: both repositories, after three entries. -/
def nestedScan : Scan := ⟨[], 3, [[], [ascii "a"]], [], .complete, []⟩

/-- The discovery of the copy: a complete one of the two repositories. -/
def nestedDiscovery : Discovery :=
  ⟨nestedIdentity .directory, sortDedup namesLe nestedScan.candidates,
    pairwise_sortDedup linearLe_namesLe, [], .complete, []⟩

/-- Its candidates are the root and the directory `a`. -/
theorem nestedDiscovery_candidates : nestedDiscovery.candidates = [[], [ascii "a"]] := by
  show sortDedup namesLe [[], [ascii "a"]] = _
  rw [sortDedup, mergeSort_pair]
  decide

/-- The walk over the copy finds them, in path order, after three entries. -/
theorem evaluate_nestedDiscover : evaluate nestedAnswer (discover [slash] nestedBudget) =
    .ok (nestedDiscovery, 3) := by
  refine evaluate_bind_ok.mpr ⟨.ok (some (nestedIdentity .directory)), rfl, ?_⟩
  refine evaluate_bind_ok.mpr ⟨(), rfl, ?_⟩
  refine evaluate_bind_ok.mpr ⟨true, rfl, ?_⟩
  refine evaluate_bind_ok.mpr ⟨(), rfl, ?_⟩
  refine evaluate_bind_ok.mpr ⟨nestedScan, ?_, rfl⟩
  decide +kernel

/-- The sources of the sample environment pass their preflight. -/
theorem evaluate_nestedSources : evaluate nestedAnswer (preflightSources (ascii "libexec") [slash]
    nestedEnvironment nestedBudget) = .ok ⟨[], []⟩ := by rfl

/-- A repository of the copy as it is prepared. -/
def nestedRepository (relative : RelativePath) : PreparedRepository :=
  ⟨relative, [ascii "lfs"], nestedIdentity .directory, copyPath [slash] (relative ++ [gitName]),
    nestedIdentity .directory, copyPath [slash] (relative ++ [gitName]),
    nestedIdentity .directory, none,
    [ascii "HEAD", ascii "config"].map fun name =>
      ⟨copyPath [slash] (relative ++ [gitName, name]), nestedIdentity .regularFile⟩⟩

/-- Both repositories as they are prepared, that of the root first. -/
def nestedPrepared : List PreparedRepository :=
  [nestedRepository [], nestedRepository [ascii "a"]]

/-- Both repositories pass their preflights, each with the evidence of its files. -/
theorem evaluate_nestedPreflights :
    evaluate nestedAnswer (preflightAll [slash] nestedDiscovery ⟨[], []⟩ nestedEnvironment
      nestedBudget [[], [ascii "a"]] ⟨3, [], [], .complete, []⟩) =
      .ok ⟨7, nestedPrepared, [], .complete, []⟩ := by
  decide +kernel

/-- The repository of the root is inspected last, behind the one inside it. -/
theorem sortByDepth_nestedPrepared :
    sortByDepth nestedPrepared = [nestedRepository [ascii "a"], nestedRepository []] := by
  rw [sortByDepth, nestedPrepared, mergeSort_pair]
  decide

/-- Both status queries find no change, so both repositories are clean. -/
theorem evaluate_nestedStatus :
    evaluate nestedAnswer (statusAll [slash] nestedEnvironment nestedBudget
      [nestedRepository [ascii "a"], nestedRepository []]
      [nestedRepository [ascii "a"], nestedRepository []] []) =
      .ok [⟨[ascii "a"], .clean, []⟩, ⟨[], .clean, []⟩] := by
  decide +kernel

/-- The inspection reports both repositories, in path order, and no issue.  The two loops, the
check of the configuration and the sorting are evaluated one after another. -/
theorem evaluate_nestedInspected :
    evaluate nestedAnswer (inspectPrepared [slash] nestedEnvironment nestedBudget nestedDiscovery
      ⟨[], []⟩ ⟨7, nestedPrepared, [], .complete, []⟩) =
      .ok ⟨.complete, [], [⟨[], .clean, []⟩, ⟨[ascii "a"], .clean, []⟩]⟩ := by
  refine evaluate_bind_ok.mpr ⟨(nestedPrepared, []), rfl, ?_⟩
  refine evaluate_bind_ok.mpr ⟨[⟨[ascii "a"], .clean, []⟩, ⟨[], .clean, []⟩], ?_, ?_⟩
  · rw [sortByDepth_nestedPrepared]
    exact evaluate_nestedStatus
  refine evaluate_bind_ok.mpr ⟨none, rfl, ?_⟩
  refine evaluate_bind_ok.mpr ⟨.ok (), rfl, ?_⟩
  show Except.ok (Concluded.mk _ _ (sortByPath _)) = _
  rw [sortByPath, mergeSort_pair]
  rfl

/-- The report of the inspection: both repositories are clean. -/
def nestedInspection : GitInspection :=
  .new .complete [⟨[], .clean, []⟩, ⟨ascii "a", .clean, []⟩] []

/-- **The inspection of the copy.**  Discovery, preflights, index flags and both status queries
succeed, so the inspection reports two clean repositories.  The parts are evaluated one after
another, each by its own lemma above. -/
theorem evaluate_nested : evaluate nestedAnswer (inspectWithOptions (ascii "libexec") [slash]
    nestedEnvironment nestedLimits) = .ok nestedInspection := by
  refine evaluate_bind_ok.mpr ⟨⟨.complete, [], [⟨[], .clean, []⟩, ⟨[ascii "a"], .clean, []⟩]⟩,
    ?_, rfl⟩
  refine evaluate_bind_ok.mpr ⟨(0 : ℕ), rfl, ?_⟩
  refine evaluate_bind_ok.mpr ⟨_, evaluate_attempt, ?_⟩
  have hbudget : (⟨0 + nestedLimits.totalTimeout, nestedLimits⟩ : CooperativeBudget) =
      nestedBudget := rfl
  rw [hbudget, evaluate_nestedDiscover]
  show evaluate nestedAnswer (inspectDiscovery _ _ _ _ nestedDiscovery _) = _
  have hcomplete : nestedDiscovery.completeness = .complete := rfl
  rw [inspectDiscovery, if_neg (by rw [hcomplete]; decide),
    if_neg (by rw [nestedDiscovery_candidates]; decide)]
  refine evaluate_bind_ok.mpr ⟨_, evaluate_attempt, ?_⟩
  rw [evaluate_nestedSources]
  refine evaluate_bind_ok.mpr ⟨⟨7, nestedPrepared, [], .complete, []⟩, ?_,
    evaluate_nestedInspected⟩
  rw [nestedDiscovery_candidates]
  exact evaluate_nestedPreflights

/-- The run of the inspection, answered by the copy. -/
theorem exists_nestedRun : ∃ t, Traces (inspectWithOptions (ascii "libexec") [slash]
    nestedEnvironment nestedLimits) t (.ok nestedInspection) ∧
    ∀ exchange ∈ t, exchange.result = nestedAnswer exchange.op := by
  obtain ⟨t, htraces, hanswers⟩ := exists_traces_evaluate nestedAnswer
    (inspectWithOptions (ascii "libexec") [slash] nestedEnvironment nestedLimits)
  rw [evaluate_nested] at htraces
  exact ⟨t, htraces, hanswers⟩

/-- The run on the copy: the aggregate is clean, so both repositories were settled in it, and a
status query was answered.  The theorem is applied to the run that the evaluation gives, and since
the aggregate is known each candidate has its own status query. -/
theorem inspect_leaf_first_nested : ∃ t,
    LeafFirstRun (ascii "libexec") [slash] nestedEnvironment nestedLimits t
      (.ok nestedInspection) ∧
    nestedInspection.aggregate = .clean ∧ ∃ exchange ∈ t, ¬Silent exchange.op := by
  obtain ⟨t, htraces, -⟩ := exists_nestedRun
  have hrun := inspect_leaf_first htraces
  refine ⟨t, hrun, by decide, ?_⟩
  obtain ⟨_, now, found, t₁, t₂, he, -, -, hfound⟩ := hrun
  cases he
  cases found with
  | error issue => exact absurd hfound.2 (by decide)
  | ok found =>
    obtain ⟨hdone, -, hcandidates⟩ := hfound.earned (by decide)
    have hreported := congrArg List.length hfound.reported
    rw [List.length_map, List.length_map] at hreported
    obtain ⟨candidate, hcandidate⟩ := List.exists_mem_of_length_pos
      (show 0 < found.1.candidates.length by rw [← hreported]; decide)
    obtain ⟨_, _, _, _, _, _, _, _, -, hstatus⟩ := hcandidates candidate hcandidate
    exact hstatus.exists_query

end Git
end ThinWorkspace
