/-
# Git states and the removal decision

Source: `crates/thinws-core/src/git.rs` (from `DiscoveryCompleteness` on) and
`removal.rs`.  `decideRemoval` is the table of the source; what it lets pass is
said once, in `decideRemoval_proceed`.

The state of a copy is the worst of its repositories, and unknown where the discovery did
not see all of them; only a forced removal goes on then.
-/

import ThinWorkspace.Core.Workspace

namespace ThinWorkspace
namespace Core

/-! ### Git states

The aggregate over all repositories is the least favourable of their states: an incomplete
discovery and an unknown repository make it unknown, and then any change makes it dirty.
`aggregateGitState_settled` reads this backwards, which is what a removal relies on. -/

/-- `DiscoveryCompleteness`: whether every directory of the copy was searched for repositories. -/
inductive DiscoveryCompleteness where
  | complete | incomplete
deriving DecidableEq

/-- `RepositoryState`: what is known of one repository; the count is a `NonZeroUsize`. -/
inductive RepositoryState where
  | clean
  | dirty (trackedChanges : { n : ℕ // 0 < n })
  | unknown
deriving DecidableEq

/-- `GitState`: what is known of all repositories of a copy together. -/
inductive GitState where
  | notApplicable | clean | dirty | unknown
deriving DecidableEq

/-- The pattern `RepositoryState::Dirty { .. }`, with any count. -/
def RepositoryState.isDirty : RepositoryState → Bool
  | .dirty _ => true
  | _ => false

/-- `aggregate_git_state`: anything unknown makes the whole unknown, then any change makes it
dirty; clean is what is left when there is a repository at all. -/
def aggregateGitState (discovery : DiscoveryCompleteness) (repositories : List RepositoryState) :
    GitState :=
  if discovery = .incomplete ∨ .unknown ∈ repositories then .unknown
  else if repositories.any RepositoryState.isDirty then .dirty
  else if repositories.isEmpty then .notApplicable
  else .clean

/-- An aggregate that is neither dirty nor unknown is earned: discovery was
complete and every repository is clean. -/
theorem aggregateGitState_settled {discovery : DiscoveryCompleteness}
    {repositories : List RepositoryState}
    (hunknown : aggregateGitState discovery repositories ≠ .unknown)
    (hdirty : aggregateGitState discovery repositories ≠ .dirty) :
    discovery = .complete ∧ ∀ state ∈ repositories, state = .clean := by
  unfold aggregateGitState at hunknown hdirty
  split at hunknown
  · exact absurd rfl hunknown
  · rename_i hsettled
    rw [if_neg hsettled] at hdirty
    rw [not_or] at hsettled
    refine ⟨?_, fun state hstate => ?_⟩
    · cases discovery with
      | complete => rfl
      | incomplete => exact absurd rfl hsettled.1
    · cases state with
      | clean => rfl
      | unknown => exact absurd hstate hsettled.2
      | dirty n =>
        have hany : repositories.any RepositoryState.isDirty = true :=
          List.any_eq_true.mpr ⟨_, hstate, rfl⟩
        exact absurd (if_pos hany) hdirty

/-! ### The decision

The table of the source as one function of three arguments.  `decideRemoval_proceed` reads
it backwards: it lists what must have been the case when a removal was let pass, and by
which warning the exception is marked. -/

/-- `ProcessUse`: what a scan of the processes found; an incomplete scan is no evidence of absence.
-/
inductive ProcessUse where
  | noEvidence | scanIncomplete | confirmedInUse
deriving DecidableEq

/-- `RemovalRefusal`: the three reasons to refuse a removal. -/
inductive RemovalRefusal where
  | confirmedInUse | gitCheckIncomplete | trackedChanges
deriving DecidableEq

/-- `RemovalWarning`: what a removal that is allowed has to mention. -/
inductive RemovalWarning where
  | processScanIncomplete
deriving DecidableEq

/-- `RemovalDecision`: go on, with or without a warning, or refuse for one reason. -/
inductive RemovalDecision where
  | proceed (warning : Option RemovalWarning)
  | refuse (reason : RemovalRefusal)
deriving DecidableEq

/-- `decide_removal`: confirmed use refuses every removal, and the state of the repositories only a
removal that is not forced. -/
def decideRemoval (git : GitState) (processUse : ProcessUse) (mode : RemovalMode) :
    RemovalDecision :=
  if processUse = .confirmedInUse then .refuse .confirmedInUse
  else if mode = .normal ∧ git = .unknown then .refuse .gitCheckIncomplete
  else if mode = .normal ∧ git = .dirty then .refuse .trackedChanges
  else .proceed (if processUse = .scanIncomplete then some .processScanIncomplete else none)

/-- **What the decision lets pass.**  A proven use stops every removal; without
force an unknown or a dirty state does too. -/
theorem decideRemoval_proceed {git : GitState} {processUse : ProcessUse} {mode : RemovalMode}
    {warning : Option RemovalWarning} (h : decideRemoval git processUse mode = .proceed warning) :
    processUse ≠ .confirmedInUse ∧ (mode = .normal → git ≠ .unknown ∧ git ≠ .dirty) := by
  unfold decideRemoval at h
  split at h
  · cases h
  · split at h
    · cases h
    · split at h
      · cases h
      · rename_i hbusy hunknown hdirty
        exact ⟨hbusy, fun hmode => ⟨fun hg => hunknown ⟨hmode, hg⟩, fun hg => hdirty ⟨hmode, hg⟩⟩⟩

end Core
end ThinWorkspace
