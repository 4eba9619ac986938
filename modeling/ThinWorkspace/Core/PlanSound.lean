/-
# A plan is sound whatever led to it

Source: `crates/thinws-core/src/materialization.rs`, the three constructors of
`MaterializationPlan` and `phase1_volume_layout`, `report_paths_match_plan`,
`receipt_matches_plan` and `receipt_restored_baseline`.

A plan value is trusted by every later step: the adapters materialize under it
and the store keeps its digest and attempts without a second look.  `PlanSound`
is what they rely on, relative to the report the plan was made from:

* the four path reports lie on one known volume of the one filesystem type of the
  CoW backend, for Btrfs under one known mount (`OneLayout`);
* a full copy was allowed and its candidate supported (`FullCopyAllowed`);
* adapter, mode, reason and attempts belong together (`Consistent`), and the one
  attempt behind a runtime fallback is what a clean failure of a CoW plan over
  the same evidence leaves (`RetainedAttempt`).
-/

import ThinWorkspace.Core.Materialization

namespace ThinWorkspace
namespace Core

open Lib.Fallible (bind_ok refuseIf_ok refuseIf_bind_ok)

/-! ### What soundness says

`PlanSound` is the specification, and it is not stated with the checks of the code: the
layout, the equality of the evidence and the empty target are the readings that the checks
were shown to have.  `Consistent` lists the three histories that a plan can have; only the
third one speaks of an attempt before it. -/

/-- A full copy needs the policy and a supported candidate. -/
structure FullCopyAllowed (report : MaterializationPathReport) (plan : MaterializationPlan) :
    Prop where
  policy : plan.fallbackPolicy = .allowFullCopyOnCowUnsupported
  kind : report.fullCopy.kind = .fullCopy
  state : report.fullCopy.state = .supported

/-- `attempt` is what `receipt`, a failure of the CoW plan `prior` over the same
evidence, leaves behind: nothing in the target, nothing unconfirmed, and the
manifest of the source. -/
structure RetainedAttempt (plan prior : MaterializationPlan) (receipt : MaterializationReceipt)
    (attempt : FailedMaterializationAttempt) : Prop where
  cowPlan : ∃ priorReport,
    MaterializationPlan.forCowClone priorReport plan.fallbackPolicy = .ok prior
  paths : plan.sourcePath = prior.sourcePath ∧ plan.targetPath = prior.targetPath ∧
    plan.stagingPath = prior.stagingPath ∧ plan.trashPath = prior.trashPath
  evidence : List.Forall₂ SameEvidence plan.pathEvidence prior.pathEvidence
  digest : attempt.probeEvidenceDigest = prior.probeEvidenceDigest
  adapter : attempt.actualAdapter = prior.selectedAdapter
  mode : attempt.attemptedMode = .cowClone
  volumes : attempt.sourceVolumeId = some prior.sourceVolumeId ∧
    attempt.targetVolumeId = some prior.targetVolumeId ∧
    prior.sourceVolumeId = plan.sourceVolumeId ∧ prior.targetVolumeId = plan.targetVolumeId
  failed : attempt.outcome ≠ .succeeded ∧ attempt.failureKind = .cowUnavailable ∧
    receipt.failureKind = some .cowUnavailable
  ofReceipt : attempt = receipt.toFailedAttempt
  noStaging : receipt.unconfirmedStaging = none
  nothingLeft : LeftNothing attempt.outcome attempt.created attempt.evidence.cloneCallsSucceeded
    attempt.rollback
  manifest : attempt.evidence.sourceManifestDigest.isSome = true

/-- The three histories of a plan made from `report`. -/
inductive Consistent (report : MaterializationPathReport) (plan : MaterializationPlan) : Prop
  | cowClone (mode : plan.effectiveMode = .cowClone)
      (adapter : plan.selectedAdapter = report.cowClone.kind)
      (reason : plan.fallbackReason = none) (attempts : plan.failedAttempts = [])
  | preflight (mode : plan.effectiveMode = .fullCopy) (adapter : plan.selectedAdapter = .fullCopy)
      (reason : plan.fallbackReason = some .cloneUnsupportedAtPreflight)
      (attempts : plan.failedAttempts = [])
  | runtime (mode : plan.effectiveMode = .fullCopy) (adapter : plan.selectedAdapter = .fullCopy)
      (reason : plan.fallbackReason = some .cloneUnavailableAtRuntime)
      (attempts : ∃ prior receipt attempt, plan.failedAttempts = [attempt] ∧
        prior.selectedAdapter = report.cowClone.kind ∧ RetainedAttempt plan prior receipt attempt)

/-- A plan that everything after it may trust, made from `report`. -/
structure PlanSound (report : MaterializationPathReport) (plan : MaterializationPlan) : Prop where
  evidence : plan.pathEvidence = report.paths
  paths : plan.pathEvidence.map (·.requestedPath) =
    [plan.sourcePath, plan.targetPath, plan.stagingPath, plan.trashPath]
  digest : plan.probeEvidenceDigest = report.evidenceDigest
  requested : plan.requestedMode = .cowClone
  layout : OneLayout report.cowClone.kind plan.pathEvidence plan.sourceVolumeId
  volumes : plan.targetVolumeId = plan.sourceVolumeId
  fullCopy : plan.effectiveMode = .fullCopy → FullCopyAllowed report plan
  consistent : Consistent report plan

variable {report fresh : MaterializationPathReport} {policy : FallbackPolicy}
  {plan prior : MaterializationPlan} {receipt : MaterializationReceipt}

/-- The comparison zips two lists; against four frozen reports it misses none. -/
theorem forall₂_of_zip_paths {priorReport : MaterializationPathReport}
    (h : ∀ pair ∈ fresh.paths.zip priorReport.paths, SameEvidence pair.1 pair.2) :
    List.Forall₂ SameEvidence fresh.paths priorReport.paths := by
  simpa [MaterializationPathReport.paths] using h

/-! ### The constructors

One lemma for each constructor, and the theorem is the three of them.  For the runtime
fallback the plan before is itself a result of a constructor (`Built`), and since it is one
to clone, `Built.of_cow` recovers the report that it was made from. -/

namespace MaterializationPlan

/-- A report that passes has a full copy as its second candidate. -/
theorem requireCandidateKinds_ok {u : Unit} (h : requireCandidateKinds report = .ok u) :
    report.fullCopy.kind = .fullCopy := by
  unfold requireCandidateKinds at h
  obtain ⟨_, _, h⟩ := bind_ok h
  simpa using refuseIf_ok h

/-- A report that passes supports a full copy: an unknown answer does not pass. -/
theorem requireFullCopySupported_ok {u : Unit} (h : requireFullCopySupported report = .ok u) :
    report.fullCopy.state = .supported := by
  unfold requireFullCopySupported at h
  split at h
  · assumption
  · cases h

/-- The two checks every full copy makes of its candidate. -/
theorem forFullCopyAfterPreflight_candidate
    (h : forFullCopyAfterPreflight report policy = .ok plan) :
    report.fullCopy.kind = .fullCopy ∧ report.fullCopy.state = .supported := by
  unfold forFullCopyAfterPreflight at h
  obtain ⟨_, _, h⟩ := bind_ok h
  obtain ⟨_, hkinds, h⟩ := bind_ok h
  obtain ⟨_, _, h⟩ := bind_ok h
  obtain ⟨_, hstate, _⟩ := bind_ok h
  exact ⟨requireCandidateKinds_ok hkinds, requireFullCopySupported_ok hstate⟩

/-- A full copy after a failed clone has made both checks of the fresh report. -/
theorem forFullCopyAfterCowUnavailable_candidate
    (h : forFullCopyAfterCowUnavailable fresh prior receipt = .ok plan) :
    fresh.fullCopy.kind = .fullCopy ∧ fresh.fullCopy.state = .supported := by
  unfold forFullCopyAfterCowUnavailable at h
  obtain ⟨_, _, h⟩ := bind_ok h
  obtain ⟨_, hkinds, h⟩ := bind_ok h
  obtain ⟨_, h⟩ := refuseIf_bind_ok h
  obtain ⟨_, h⟩ := refuseIf_bind_ok h
  obtain ⟨_, h⟩ := refuseIf_bind_ok h
  obtain ⟨_, h⟩ := refuseIf_bind_ok h
  obtain ⟨_, h⟩ := refuseIf_bind_ok h
  obtain ⟨_, _, h⟩ := bind_ok h
  obtain ⟨_, h⟩ := refuseIf_bind_ok h
  obtain ⟨_, hstate, _⟩ := bind_ok h
  exact ⟨requireCandidateKinds_ok hkinds, requireFullCopySupported_ok hstate⟩

/-- A CoW plan keeps the report's evidence and its layout. -/
theorem forCowClone_evidence (h : forCowClone report policy = .ok plan) :
    plan.pathEvidence = report.paths ∧ plan.probeEvidenceDigest = report.evidenceDigest ∧
      plan.selectedAdapter = report.cowClone.kind ∧
      [plan.sourcePath, plan.targetPath, plan.stagingPath, plan.trashPath] =
        report.paths.map (·.requestedPath) ∧
      plan.targetVolumeId = plan.sourceVolumeId ∧
      OneLayout report.cowClone.kind report.paths plan.sourceVolumeId := by
  unfold forCowClone at h
  obtain ⟨_, _, h⟩ := bind_ok h
  obtain ⟨⟨source, target⟩, hlayout, h⟩ := bind_ok h
  obtain ⟨_, h⟩ := refuseIf_bind_ok h
  cases h
  exact ⟨rfl, rfl, rfl, rfl, phase1VolumeLayout_eq_ok.mp hlayout⟩

/-- Only `forCowClone` builds a plan in CoW mode, so such a plan was made from a report that allows
it. -/
theorem Built.of_cow (h : Built plan) (hmode : plan.effectiveMode = .cowClone) :
    ∃ report, forCowClone report plan.fallbackPolicy = .ok plan := by
  cases h with
  | cowClone h =>
    obtain ⟨_, _, _, rfl, _⟩ := forCowClone_ok h
    exact ⟨_, h⟩
  | afterPreflight h =>
    obtain ⟨_, _, _, _, _, _, rfl⟩ := forFullCopyAfterPreflight_ok h
    cases hmode
  | afterCowUnavailable h =>
    obtain ⟨_, rfl⟩ := forFullCopyAfterCowUnavailable_ok h
    cases hmode

/-- A plan to clone is sound for the report it was made from. -/
theorem forCowClone_sound (h : forCowClone report policy = .ok plan) : PlanSound report plan := by
  obtain ⟨hrequested, heffective, _, _, hreason, hattempts, _⟩ := forCowClone_ok h
  obtain ⟨hevidence, hdigest, hadapter, hpaths, hvolumes, hlayout⟩ := forCowClone_evidence h
  refine ⟨hevidence, hevidence ▸ hpaths.symm, hdigest, hrequested, hevidence ▸ hlayout, hvolumes,
    fun hmode => ?_, .cowClone heffective hadapter hreason hattempts⟩
  rw [heffective] at hmode
  cases hmode

/-- A plan to copy after the preflight is sound for its report. -/
theorem forFullCopyAfterPreflight_sound (h : forFullCopyAfterPreflight report policy = .ok plan) :
    PlanSound report plan := by
  obtain ⟨hkind, hstate⟩ := forFullCopyAfterPreflight_candidate h
  obtain ⟨hpolicy, _, _, source, target, hlayout, rfl⟩ := forFullCopyAfterPreflight_ok h
  obtain ⟨hvolumes, hlayout⟩ := phase1VolumeLayout_eq_ok.mp hlayout
  exact ⟨rfl, rfl, rfl, rfl, hlayout, hvolumes, fun _ => ⟨hpolicy, hkind, hstate⟩,
    .preflight rfl rfl rfl rfl⟩

/-- The attempt behind a runtime fallback, from what the constructor has checked. -/
theorem RuntimeFallback.retained (hprior : Built prior)
    (hfallback : RuntimeFallback fresh prior receipt) :
    RetainedAttempt
      (fullCopy fresh prior.fallbackPolicy prior.sourceVolumeId prior.targetVolumeId
        .cloneUnavailableAtRuntime [receipt.toFailedAttempt])
      prior receipt receipt.toFailedAttempt := by
  obtain ⟨priorReport, hcow⟩ := hprior.of_cow hfallback.cow.2.1
  obtain ⟨hfrozen, _, _, hpaths, _, _⟩ := forCowClone_evidence hcow
  have hsame := forall₂_of_zip_paths (hfrozen ▸ hfallback.unmoved)
  obtain ⟨hdigest, _, _, hmode, hadapter, hsource, htarget, _, _, houtcome⟩ := hfallback.matched
  have hrequested :
      fresh.paths.map (·.requestedPath) = priorReport.paths.map (·.requestedPath) := by
    obtain ⟨h₁, h₂, h₃, h₄⟩ := by simpa [MaterializationPathReport.paths] using hsame
    simp [MaterializationPathReport.paths, h₁.requestedPath, h₂.requestedPath, h₃.requestedPath,
      h₄.requestedPath]
  rw [← hpaths] at hrequested
  refine ⟨⟨priorReport, hcow⟩, ?_, hfrozen ▸ hsame, hdigest, hadapter, hmode,
    ⟨hsource, htarget, rfl, rfl⟩, ⟨houtcome, rfl, hfallback.unavailable⟩, rfl, hfallback.staging,
    hfallback.restored, hfallback.manifest⟩
  simpa [MaterializationPathReport.paths, fullCopy] using hrequested

/-- A plan to copy after a failed clone is sound for the fresh report, and says of the clone what
its receipt does. -/
theorem forFullCopyAfterCowUnavailable_sound (hprior : Built prior)
    (h : forFullCopyAfterCowUnavailable fresh prior receipt = .ok plan) :
    PlanSound fresh plan := by
  obtain ⟨hkind, hstate⟩ := forFullCopyAfterCowUnavailable_candidate h
  obtain ⟨hfallback, rfl⟩ := forFullCopyAfterCowUnavailable_ok h
  have hadapter := hfallback.cow.2.2
  have hlayout := hfallback.layout
  rw [hadapter] at hlayout
  exact ⟨rfl, rfl, rfl, rfl, hlayout, hfallback.volumes, fun _ => ⟨hfallback.policy, hkind, hstate⟩,
    .runtime rfl rfl rfl ⟨prior, receipt, _, rfl, hadapter, hfallback.retained hprior⟩⟩

/-- **Whatever constructor returns it, a plan is sound.**  `Built` asks nothing of
the plan before a runtime fallback, so every chain of constructors is covered. -/
theorem constructed_plan_sound :
    (∀ report policy plan, forCowClone report policy = .ok plan → PlanSound report plan) ∧
    (∀ report policy plan, forFullCopyAfterPreflight report policy = .ok plan →
      PlanSound report plan) ∧
    (∀ fresh prior receipt plan, Built prior →
      forFullCopyAfterCowUnavailable fresh prior receipt = .ok plan → PlanSound fresh plan) :=
  ⟨fun _ _ _ => forCowClone_sound, fun _ _ _ => forFullCopyAfterPreflight_sound,
    fun _ _ _ _ => forFullCopyAfterCowUnavailable_sound⟩

/-! ### A fallback that is sound

The sample follows the longest history.  A probe that cannot tell whether cloning works
allows a clone; the kernel refuses it before anything was created; the receipt of that
refusal earns a full copy, which keeps the failed attempt. -/

/-- The root directory has an absolute path, of which the sample reports are. -/
theorem validatePath_slash : validatePath [slash] = .ok () := by decide

/-- The digit `0` is one of sixteen. -/
theorem zero_lt_sixteen : 0 < 16 := by decide

/-- The digit `0`, of which the digests and volumes of the sample consist. -/
def zeroDigit : Fin 16 := ⟨0, zero_lt_sixteen⟩

/-- As many zeros as a UUID has digits, so the volume of the sample is one. -/
theorem length_zeros : (List.replicate 32 zeroDigit).length = 32 := rfl

/-- A Btrfs volume, whose identity consists of zeros. -/
def plannedVolume : VolumeId := ⟨⟨List.replicate 32 zeroDigit, length_zeros⟩⟩

/-- The ancestry of the sample report is not empty. -/
theorem planned_ancestry :
    [DirectoryIdentityEvidence.mk ⟨[slash], validatePath_slash⟩ ⟨1, 256⟩] ≠ [] :=
  List.cons_ne_nil _ _

/-- A report without missing components is one of an existing directory. -/
theorem planned_existing :
    PathResolution.existingDirectory = .existingDirectory ↔ ([] : List (List UInt8)) = [] :=
  iff_of_true rfl rfl

/-- The ancestry of the sample report ends with its own path. -/
theorem planned_last :
    [DirectoryIdentityEvidence.mk ⟨[slash], validatePath_slash⟩ ⟨1, 256⟩].getLast?.map (·.path) =
      some ⟨[slash], validatePath_slash⟩ := rfl

/-- The root directory of that volume, with clones supported. -/
def plannedRoot : PathCapabilityReport where
  requestedPath := ⟨[slash], validatePath_slash⟩
  resolution := .existingDirectory
  nearestExistingAncestor := ⟨[slash], validatePath_slash⟩
  missingComponents := []
  ancestry := [⟨⟨[slash], validatePath_slash⟩, ⟨1, 256⟩⟩]
  filesystem := ⟨"btrfs", (0, 0), .known plannedVolume⟩
  mount := ⟨0, true, some 1⟩
  readability := .supported
  writability := .supported
  cowClone := .unknown
  ancestry_ne_nil := planned_ancestry
  existing_iff := planned_existing
  last_ancestry := planned_last

/-- A probe that cannot tell whether cloning works. -/
def plannedReport : MaterializationPathReport where
  source := plannedRoot
  targetRoot := plannedRoot
  staging := plannedRoot
  trash := plannedRoot
  cowClone := ⟨.btrfsReflink, .unknown, []⟩
  fullCopy := ⟨.fullCopy, .supported, []⟩
  evidenceDigest := ⟨List.replicate 32 0, length_zeros⟩

/-- The clone the probe allows. -/
def plannedClone : MaterializationPlan where
  requestedMode := .cowClone
  effectiveMode := .cowClone
  selectedAdapter := .btrfsReflink
  fallbackPolicy := .allowFullCopyOnCowUnsupported
  probeEvidenceDigest := plannedReport.evidenceDigest
  pathEvidence := plannedReport.paths
  sourcePath := plannedRoot.requestedPath
  targetPath := plannedRoot.requestedPath
  stagingPath := plannedRoot.requestedPath
  trashPath := plannedRoot.requestedPath
  sourceVolumeId := plannedVolume
  targetVolumeId := plannedVolume
  fallbackReason := none
  failedAttempts := []

/-- The receipt of a clone the kernel refused before anything was created. -/
def refusedClone : MaterializationReceipt where
  probeEvidenceDigest := plannedClone.probeEvidenceDigest
  requestedMode := .cowClone
  effectiveMode := .cowClone
  actualMode := .cowClone
  actualAdapter := .btrfsReflink
  outcome := .failed
  cowEvidence := .unknown
  sourceVolumeId := some plannedVolume
  targetVolumeId := some plannedVolume
  created := []
  unconfirmedStaging := none
  rollback := .new .notNeeded [] []
  elapsedMillis := 1
  logicalBytes := none
  physicalBytes := none
  regularFileCount := none
  cloneCallsSucceeded := 0
  sourceManifestDigest := some ⟨List.replicate 32 0, length_zeros⟩
  targetManifestDigest := none
  failureKind := some .cowUnavailable
  fallbackReason := none
  failedAttempts := []

/-- The sample report allows the sample clone, so the plan is one that the program can make. -/
theorem forCowClone_planned :
    forCowClone plannedReport .allowFullCopyOnCowUnsupported = .ok plannedClone := by
  decide +kernel

/-- The refused clone is followed by a full copy that keeps its attempt. -/
theorem forFullCopyAfterCowUnavailable_planned :
    forFullCopyAfterCowUnavailable plannedReport plannedClone refusedClone =
      .ok (fullCopy plannedReport .allowFullCopyOnCowUnsupported plannedVolume plannedVolume
        .cloneUnavailableAtRuntime [refusedClone.toFailedAttempt]) := by
  decide +kernel

/-- The refused clone is followed by a sound full copy, which keeps that one attempt; the plan of
the clone is sound as well. -/
theorem constructed_plan_sound_refused :
    PlanSound plannedReport plannedClone ∧
      PlanSound plannedReport
        (fullCopy plannedReport .allowFullCopyOnCowUnsupported plannedVolume plannedVolume
          .cloneUnavailableAtRuntime [refusedClone.toFailedAttempt]) :=
  ⟨constructed_plan_sound.1 _ _ _ forCowClone_planned,
    constructed_plan_sound.2.2 _ _ _ _ (.cowClone forCowClone_planned)
      forFullCopyAfterCowUnavailable_planned⟩

end MaterializationPlan
end Core
end ThinWorkspace
