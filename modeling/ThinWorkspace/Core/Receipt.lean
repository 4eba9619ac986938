/-
# The constructors of a receipt

Source: `crates/thinws-core/src/materialization.rs`, `impl MaterializationReceipt`.
The fields of a receipt are private in the source, so every receipt an adapter
hands over was made by one of the four constructors, possibly with an object left
in staging: `MaterializationReceipt.Built` says so.  `Built.successful` is what
a receipt that reports success can be.
-/

import ThinWorkspace.Core.Materialization

namespace ThinWorkspace
namespace Core

open Lib.Fallible (refuseIf refuseIf_bind_ok)

/-- `MaterializationReceiptError`: which of the claims of a success does not hold. -/
inductive MaterializationReceiptError where
  | cloneCountMismatch | manifestMismatch | adapterMismatch
deriving DecidableEq

namespace MaterializationReceipt

/-- The fields every constructor takes over from the plan. -/
def underPlan (plan : MaterializationPlan) (mode : MaterializationMode) (adapter : MaterializerKind)
    (outcome : MaterializationOutcome) (cow : CowEvidence) (created : List CreatedObjectEvidence)
    (rollback : RollbackEvidence) (evidence : MaterializationAttemptEvidence)
    (failureKind : Option MaterializationFailureKind) (elapsedMillis : UInt64) :
    MaterializationReceipt where
  probeEvidenceDigest := plan.probeEvidenceDigest
  requestedMode := plan.requestedMode
  effectiveMode := plan.effectiveMode
  actualMode := mode
  actualAdapter := adapter
  outcome := outcome
  cowEvidence := cow
  sourceVolumeId := some plan.sourceVolumeId
  targetVolumeId := some plan.targetVolumeId
  created := created
  unconfirmedStaging := none
  rollback := rollback
  elapsedMillis := elapsedMillis
  logicalBytes := evidence.logicalBytes
  physicalBytes := evidence.physicalBytes
  regularFileCount := evidence.regularFileCount
  cloneCallsSucceeded := evidence.cloneCallsSucceeded
  sourceManifestDigest := evidence.sourceManifestDigest
  targetManifestDigest := evidence.targetManifestDigest
  failureKind := failureKind
  fallbackReason := plan.fallbackReason
  failedAttempts := plan.failedAttempts

/-- `MaterializationReceipt::successful_cow_clone`: refused unless every regular file was cloned
and the two manifests agree. -/
def successfulCowClone (plan : MaterializationPlan) (regularFileCount cloneCallsSucceeded : UInt64)
    (created : List CreatedObjectEvidence) (sourceManifestDigest targetManifestDigest : TreeDigest)
    (elapsedMillis logicalBytes : UInt64) (physicalBytes : Option UInt64) :
    Except MaterializationReceiptError MaterializationReceipt := do
  refuseIf ((requireCowBackend plan.selectedAdapter).toBool = false ∨
    plan.effectiveMode ≠ .cowClone) .adapterMismatch
  refuseIf (regularFileCount ≠ cloneCallsSucceeded) .cloneCountMismatch
  refuseIf (sourceManifestDigest ≠ targetManifestDigest) .manifestMismatch
  pure (underPlan plan .cowClone plan.selectedAdapter .succeeded
    (if cloneCallsSucceeded = 0 then .notUsed else .confirmed) created (.new .notNeeded [] [])
    ⟨some logicalBytes, physicalBytes, some regularFileCount, cloneCallsSucceeded,
      some sourceManifestDigest, some targetManifestDigest⟩ none elapsedMillis)

/-- The outcome of a failed attempt: partial where the target was changed or an object was made. -/
def failedOutcome (created : List CreatedObjectEvidence) (targetModified : Bool) :
    MaterializationOutcome :=
  if targetModified || !created.isEmpty then .partialWork else .failed

/-- `MaterializationReceipt::failed_cow_clone`: what is known of shared blocks is nothing, since
the attempt did not finish. -/
def failedCowClone (plan : MaterializationPlan) (failureKind : MaterializationFailureKind)
    (created : List CreatedObjectEvidence) (targetModified : Bool) (rollback : RollbackEvidence)
    (evidence : MaterializationAttemptEvidence) (elapsedMillis : UInt64) :
    MaterializationReceipt :=
  underPlan plan .cowClone plan.selectedAdapter (failedOutcome created targetModified) .unknown
    created rollback evidence (some failureKind) elapsedMillis

/-- `MaterializationReceipt::failed_full_copy`: a copy never counts clone calls. -/
def failedFullCopy (plan : MaterializationPlan) (failureKind : MaterializationFailureKind)
    (created : List CreatedObjectEvidence) (targetModified : Bool) (rollback : RollbackEvidence)
    (evidence : MaterializationAttemptEvidence) (elapsedMillis : UInt64) :
    MaterializationReceipt :=
  underPlan plan .fullCopy .fullCopy (failedOutcome created targetModified) .notUsed
    created rollback { evidence with cloneCallsSucceeded := 0 } (some failureKind) elapsedMillis

/-- `MaterializationReceipt::successful_full_copy`: refused unless the plan is one for a full copy
and the two manifests agree. -/
def successfulFullCopy (plan : MaterializationPlan) (regularFileCount : UInt64)
    (created : List CreatedObjectEvidence) (sourceManifestDigest targetManifestDigest : TreeDigest)
    (elapsedMillis logicalBytes : UInt64) (physicalBytes : Option UInt64) :
    Except MaterializationReceiptError MaterializationReceipt := do
  refuseIf (plan.selectedAdapter ≠ .fullCopy ∨ plan.effectiveMode ≠ .fullCopy) .adapterMismatch
  refuseIf (sourceManifestDigest ≠ targetManifestDigest) .manifestMismatch
  pure (underPlan plan .fullCopy .fullCopy .succeeded .notUsed created (.new .notNeeded [] [])
    ⟨some logicalBytes, physicalBytes, some regularFileCount, 0, some sourceManifestDigest,
      some targetManifestDigest⟩ none elapsedMillis)

/-- `MaterializationReceipt::with_unconfirmed_staging`: an object that could not be removed from
staging makes the outcome partial.  The result `none` is the panic on a success. -/
def withUnconfirmedStaging (self : MaterializationReceipt) (object : CreatedObjectEvidence) :
    Option MaterializationReceipt :=
  if self.outcome = .succeeded then none
  else some { self with unconfirmedStaging := some object, outcome := .partialWork }

/-- Every receipt is the result of a constructor. -/
inductive Built : MaterializationReceipt → Prop
  | cowClone {plan : MaterializationPlan} {files calls : UInt64}
      {created : List CreatedObjectEvidence} {source target : TreeDigest} {elapsed bytes : UInt64}
      {physical : Option UInt64} {receipt : MaterializationReceipt}
      (h : successfulCowClone plan files calls created source target elapsed bytes physical =
        .ok receipt) : Built receipt
  | fullCopy {plan : MaterializationPlan} {files : UInt64}
      {created : List CreatedObjectEvidence} {source target : TreeDigest} {elapsed bytes : UInt64}
      {physical : Option UInt64} {receipt : MaterializationReceipt}
      (h : successfulFullCopy plan files created source target elapsed bytes physical =
        .ok receipt) : Built receipt
  | cowCloneFailed (plan : MaterializationPlan) (kind : MaterializationFailureKind)
      (created : List CreatedObjectEvidence) (modified : Bool) (rollback : RollbackEvidence)
      (evidence : MaterializationAttemptEvidence) (elapsed : UInt64) :
      Built (failedCowClone plan kind created modified rollback evidence elapsed)
  | fullCopyFailed (plan : MaterializationPlan) (kind : MaterializationFailureKind)
      (created : List CreatedObjectEvidence) (modified : Bool) (rollback : RollbackEvidence)
      (evidence : MaterializationAttemptEvidence) (elapsed : UInt64) :
      Built (failedFullCopy plan kind created modified rollback evidence elapsed)
  | staged {receipt staged : MaterializationReceipt} {object : CreatedObjectEvidence}
      (prior : Built receipt) (h : receipt.withUnconfirmedStaging object = some staged) :
      Built staged

/-- The outcome of a failed attempt is not a success. -/
theorem failedOutcome_ne_succeeded (created : List CreatedObjectEvidence) (modified : Bool) :
    failedOutcome created modified ≠ .succeeded := by
  unfold failedOutcome
  split <;> decide

/-- **A receipt that reports success** is a clone that used CoW or had nothing to
clone, or a full copy without CoW. -/
theorem Built.successful {receipt : MaterializationReceipt} (h : Built receipt)
    (hs : receipt.outcome = .succeeded) :
    receipt.actualMode = .cowClone ∧ receipt.actualAdapter ≠ .fullCopy ∧
        (receipt.cowEvidence = .confirmed ∨ receipt.cowEvidence = .notUsed) ∨
      receipt.actualMode = .fullCopy ∧ receipt.actualAdapter = .fullCopy ∧
        receipt.cowEvidence = .notUsed := by
  cases h with
  | @cowClone plan _ _ _ _ _ _ _ _ _ h =>
    obtain ⟨hplan, h⟩ := refuseIf_bind_ok h
    obtain ⟨_, h⟩ := refuseIf_bind_ok h
    obtain ⟨_, h⟩ := refuseIf_bind_ok h
    cases h
    have hadapter : plan.selectedAdapter ≠ .fullCopy := fun he => hplan (.inl (by rw [he]; rfl))
    refine .inl ⟨rfl, hadapter, ?_⟩
    unfold underPlan
    split
    · exact .inr rfl
    · exact .inl rfl
  | fullCopy h =>
    obtain ⟨_, h⟩ := refuseIf_bind_ok h
    obtain ⟨_, h⟩ := refuseIf_bind_ok h
    cases h
    exact .inr ⟨rfl, rfl, rfl⟩
  | cowCloneFailed => exact absurd hs (failedOutcome_ne_succeeded _ _)
  | fullCopyFailed => exact absurd hs (failedOutcome_ne_succeeded _ _)
  | staged prior h =>
    unfold withUnconfirmedStaging at h
    split at h
    · cases h
    · cases h
      cases hs

end MaterializationReceipt
end Core
end ThinWorkspace
