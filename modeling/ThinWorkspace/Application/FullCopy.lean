/-
# The authorization of a full copy

A creation starts a full copy, or commits the receipt of one, only if the request
allows it and one of two things happened: the probe of the prepared paths said
that cloning is unsupported (`PreflightAuthorized`), or the one attempt before it
was a clone that found CoW unavailable and restored its baseline
(`RuntimeAuthorized`).  The receipts are whatever the materializers return.
-/

import ThinWorkspace.Application.CreateOutcome

namespace ThinWorkspace
namespace Application

open ThinWorkspace.Core Lib Ports
open Metadata (Database)
open Program (Only Safe)

/-! ### Authorizations

The two cases in which a full copy is authorized are predicates on the history: a probe that
says why a clone is not supported, or one failed clone whose receipt earns the fallback.
`fullCopyGuard` asks for one of them at the call that copies, and at the call that commits
the receipt of a copy. -/

/-- The calls that start a materialization, by a clone or by a full copy. -/
def PortCall.materializes : PortCall → Bool
  | .cloneMaterialize _ _ | .copyMaterialize _ _ => true
  | _ => false

/-- The materializations of a history, in the order in which they were started. -/
def attempts (history : List Event) : List Event := history.filter (·.call.materializes)

/-- Nothing was attempted, and the probe of the request's paths said that CoW is
unsupported for the one reason that counts. -/
def PreflightAuthorized (request : MaterializeRequest) (plan : MaterializationPlan)
    (history : List Event) : Prop :=
  attempts history = [] ∧ ∃ report,
    ⟨.inspectMaterializationPaths (.fromRequest request), .ok report⟩ ∈ history ∧
    MaterializationPlan.forFullCopyAfterPreflight report .allowFullCopyOnCowUnsupported =
      .ok plan ∧
    report.cowClone.state = .unsupported ∧
    report.cowClone.reasons = ["clone_capability_unsupported"] ∧
    plan.fallbackReason = some .cloneUnsupportedAtPreflight ∧ plan.failedAttempts = []

/-- Exactly one clone was attempted, it failed for want of CoW, and its receipt
and a fresh probe allow a fallback (`MaterializationPlan.RuntimeFallback`). -/
def RuntimeAuthorized (request : MaterializeRequest) (plan : MaterializationPlan)
    (history : List Event) : Prop :=
  ∃ before after prior failure fresh,
    history = before ++ ⟨.cloneMaterialize request prior, .error failure⟩ :: after ∧
    attempts history = [⟨.cloneMaterialize request prior, .error failure⟩] ∧
    ⟨.inspectMaterializationPaths (.fromRequest request), .ok fresh⟩ ∈ after ∧
    MaterializationPlan.RuntimeFallback fresh prior failure.receipt ∧
    plan.fallbackReason = some .cloneUnavailableAtRuntime ∧
    plan.failedAttempts = [failure.receipt.toFailedAttempt]

/-- The request allows a full copy, and one of the two cases holds. -/
def FullCopyAuthorized (create : CreateRequest) (request : MaterializeRequest)
    (plan : MaterializationPlan) (history : List Event) : Prop :=
  create.allowFullCopy = true ∧
    (PreflightAuthorized request plan history ∨ RuntimeAuthorized request plan history)

/-- The last attempt was an authorized full copy, and it returned the receipt. -/
def CopyReturned (create : CreateRequest) (request : MaterializeRequest)
    (plan : MaterializationPlan) (receipt : MaterializationReceipt) (history : List Event) : Prop :=
  ∃ before after, history = before ++ ⟨.copyMaterialize request plan, .ok receipt⟩ :: after ∧
    attempts after = [] ∧ FullCopyAuthorized create request plan before

/-- The receipt is the one an authorized full copy returned, and it repeats the
reason and the attempts of its plan. -/
def CopyCommitted (create : CreateRequest) (plan : MaterializationPlan)
    (receipt : MaterializationReceipt) (history : List Event) : Prop :=
  (∃ request, CopyReturned create request plan receipt history) ∧
    receipt.fallbackReason = plan.fallbackReason ∧ receipt.failedAttempts = plan.failedAttempts

/-- When a call may start a full copy or commit one.  The clone executor never
gets the plan of a full copy, and a commit is a completion that can return. -/
def fullCopyGuard (json : JsonLibrary) (installation : InstallationRecord)
    (create : CreateRequest) : PortCall → World → Prop
  | .cloneMaterialize _ plan, _ => plan.effectiveMode = .cowClone
  | .copyMaterialize request plan, w => FullCopyAuthorized create request plan w.history
  | .completeMaterialization id plan receipt now, w =>
    ∀ record w', (portEnvironment json installation).step w
        (.completeMaterialization id plan receipt now) (.ok record) w' →
      receipt.effectiveMode = .fullCopy ∨ receipt.actualMode = .fullCopy →
        CopyCommitted create plan receipt w.history
  | _, _ => True

/-! ### Frames

Calls that neither materialize nor complete do not matter here: they are safe under the
guard, and the attempts of the history are the same behind them. -/

variable {json : JsonLibrary} {installation : InstallationRecord} {create : CreateRequest}
  {materializers : Materializers} {w w' : World} {α : Type} {x : UseCase α}
  {prepared : PreparedWorkspace} {materialize : MaterializeRequest} {plan : MaterializationPlan}

/-- The calls the authorization is about: the two materializations, and the completion that stores
how it was done. -/
def PortCall.copies : PortCall → Bool
  | .cloneMaterialize _ _ | .copyMaterialize _ _ | .completeMaterialization _ _ _ _ => true
  | _ => false

/-- A call that copies nothing needs no authorization, so the guard asks nothing of it. -/
theorem fullCopyGuard_of_calm (c : PortCall) (w : World) (h : c.copies = false) :
    fullCopyGuard json installation create c w := by
  cases c <;> first | cases h; done | trivial

/-- An observing call copies nothing, since it changes nothing at all. -/
theorem not_copies_of_observes (c : PortCall) (h : c.observes = true) : c.copies = false := by
  cases c <;> first | rfl | cases h

/-- A part without copies is safe, and leaves the attempts as they are. -/
theorem uncopied_part (hx : Only (fun c => c.copies = false) x) :
    Safe (portEnvironment json installation) (fullCopyGuard json installation create)
      (fun _ w' => Calm PortCall.copies w w') x w :=
  calm_safe fullCopyGuard_of_calm hx

/-- A part that only observes is safe, and leaves the attempts as they are. -/
theorem observed_part (hx : Only (fun c => c.observes = true) x) :
    Safe (portEnvironment json installation) (fullCopyGuard json installation create)
      (fun _ w' => Calm PortCall.copies w w') x w :=
  uncopied_part (hx.mono not_copies_of_observes)

/-- Events of a part without copies are no attempts. -/
theorem attempts_eq_nil {events : List Event} (h : ∀ e ∈ events, e.call.copies = false) :
    attempts events = [] := by
  refine List.filter_eq_nil_iff.mpr fun e he hm => ?_
  have hcalm := h e he
  obtain ⟨c, r⟩ := e
  cases c <;> first | cases hcalm; done | cases hm

/-- The attempts of two histories, one after the other, are those of both. -/
theorem attempts_append (before after : List Event) :
    attempts (before ++ after) = attempts before ++ attempts after :=
  List.filter_append ..

/-- A part without copies adds no attempt to the history. -/
theorem Calm.attempts (h : Calm PortCall.copies w w') :
    Application.attempts w'.history = Application.attempts w.history := by
  obtain ⟨events, he, hcalm⟩ := h.events
  rw [he, attempts_append, attempts_eq_nil hcalm, List.append_nil]

/-! ### Plans and attempts

A plan in the hands of the code is a result of `select_plan` or of the runtime fallback, and
each of them says why it is a plan to copy.  `materializePrepared_safe` puts the two
together: every copy that is started is authorized. -/

/-- What `select_plan` returns: a plan for a clone, or one for a full copy that the request allows
and the probe supports. -/
theorem selectPlan_ok {report : MaterializationPathReport} {allow : Bool}
    (h : selectPlan report allow = .ok plan) :
    plan.effectiveMode = .cowClone ∧ plan.selectedAdapter ≠ .fullCopy ∨
      allow = true ∧ plan.selectedAdapter = .fullCopy ∧
        MaterializationPlan.forFullCopyAfterPreflight report .allowFullCopyOnCowUnsupported =
          .ok plan := by
  unfold selectPlan at h
  dsimp only at h
  split at h
  · rename_i hfall
    have hplan := Fallible.mapError_ok h
    rw [hfall.2, if_pos rfl] at hplan
    obtain ⟨_, _, _, _, _, _, hbuilt⟩ := MaterializationPlan.forFullCopyAfterPreflight_ok hplan
    exact .inr ⟨hfall.2, by rw [hbuilt]; rfl, hplan⟩
  · have hplan := MaterializationPlan.forCowClone_ok (Fallible.mapError_ok h)
    exact .inl ⟨hplan.2.1, hplan.2.2.1⟩

/-- The first plan rests on a probe of the prepared paths.  Only the probe and the selection
matter; everything between and behind them makes no copy and keeps the history. -/
theorem planPrepared_safe {dataRoot : AbsolutePath} {reservation : WorkspaceReservation}
    {probe : MaterializationPathProbeRequest} :
    Safe (portEnvironment json installation) (fullCopyGuard json installation create)
      (fun outcome w' => Calm PortCall.copies w w' ∧ ∀ plan, outcome = .ok plan → ∃ report,
        ⟨.inspectMaterializationPaths probe, .ok report⟩ ∈ w'.history ∧
          selectPlan report create.allowFullCopy = .ok plan)
      (planPrepared create materializers dataRoot reservation prepared probe) w := by
  refine (observed_part only_planPrepared).and ?_
  refine ⟨trivial, fun probed w₁ h₁ => ?_⟩
  rcases probed with e | report
  · rintro _ ⟨⟩
  have hevent : (⟨.inspectMaterializationPaths probe, .ok report⟩ : Event) ∈ w₁.history := by
    rw [step_history h₁]
    exact List.mem_append_right _ (List.mem_singleton_self _)
  refine Safe.bind (x := requirePreparedTarget _ _) (observed_part only_requirePreparedTarget)
    (fun _ w₂ h₂ => ?_) fun e w₂ h₂ => by rintro _ ⟨⟩
  refine Safe.bind (x := check _) (uncopied_part only_check)
    (fun _ w₃ h₃ => ?_) fun e w₃ h₃ => by rintro _ ⟨⟩
  refine Safe.bind (x := port _ _) (uncopied_part (Only.orFail (only_call rfl)))
    (fun _ w₄ h₄ => ?_) fun e w₄ h₄ => by rintro _ ⟨⟩
  refine Safe.bind (x := unlessFail _ _) (uncopied_part only_unlessFail)
    (fun _ w₅ h₅ => ?_) fun e w₅ h₅ => by rintro _ ⟨⟩
  cases hselect : selectPlan report create.allowFullCopy with
  | error e => rintro _ ⟨⟩
  | ok plan =>
    refine Safe.bind (x := unlessFail _ _) (uncopied_part only_unlessFail)
      (fun _ w₆ h₆ => ?_) fun e w₆ h₆ => by rintro _ ⟨⟩
    refine Safe.bind (x := unlessFail _ _) (uncopied_part only_unlessFail)
      (fun _ w₇ h₇ => ?_) fun e w₇ h₇ => by rintro _ ⟨⟩
    rintro _ ⟨⟩
    have hcalm := (((h₂.trans h₃).trans (h₄.trans h₅)).trans (h₆.trans h₇))
    exact ⟨report, hcalm.mem hevent, hselect⟩

/-- What a materialization leaves: a clone under its plan, or an authorized copy. -/
def Materialized (create : CreateRequest) (materialize : MaterializeRequest) (w : World) :
    Except UseCaseError (MaterializationPlan × MaterializationReceipt) → World → Prop
  | .ok (plan, receipt), w' => (w.db.Consistent → w'.db.Consistent) ∧
      (plan.effectiveMode = .cowClone ∨ CopyReturned create materialize plan receipt w'.history)
  | .error _, _ => True

/-- **The runtime fallback is authorized.**  It follows a clone that was the only
attempt, and it copies only under the plan the core makes of that clone's receipt. -/
theorem fallBack_safe {before : List Event} {failure : MaterializationFailure}
    (hbefore : attempts before = [])
    (hw : w.history = before ++ [⟨.cloneMaterialize materialize plan, .error failure⟩]) :
    Safe (portEnvironment json installation) (fullCopyGuard json installation create)
      (Materialized create materialize w)
      (fallBack create materializers prepared materialize plan failure) w := by
  refine Safe.bind (x := unlessFail _ _) (uncopied_part only_unlessFail)
    (fun _ w₁ h₁ => ?_) fun _ _ _ => trivial
  by_cases hallow : create.allowFullCopy = true
  case neg =>
    rw [unlessFail, if_neg hallow]
    trivial
  rw [unlessFail, if_pos hallow]
  refine ⟨trivial, fun probed w₂ h₂ => ?_⟩
  rcases probed with e | fresh
  · trivial
  refine Safe.bind (x := Program.mapError _ _)
    (observed_part only_requirePreparedTarget.mapError) (fun _ w₃ h₃ => ?_) fun _ _ _ => trivial
  cases hplan : MaterializationPlan.forFullCopyAfterCowUnavailable fresh plan failure.receipt with
  | error e => trivial
  | ok copyPlan =>
    obtain ⟨hfallback, hcopy⟩ := MaterializationPlan.forFullCopyAfterCowUnavailable_ok hplan
    refine Safe.bind (x := unlessFail _ _) (uncopied_part only_unlessFail)
      (fun _ w₄ h₄ => ?_) fun _ _ _ => trivial
    -- The history is: what came before, the failed clone, and calms with a probe in them.
    have hprobe : Calm PortCall.copies w₁ w₂ := Calm.step rfl h₂
    have hcalm : Calm PortCall.copies w w₄ := (h₁.trans hprobe).trans (h₃.trans h₄)
    have hauthorized : FullCopyAuthorized create materialize copyPlan w₄.history := by
      obtain ⟨middle, hmiddle, -⟩ := h₁.events
      obtain ⟨last, hlast, -⟩ := (h₃.trans h₄).events
      have hevent := step_history h₂
      refine ⟨hallow, .inr ⟨before, middle ++ [⟨.inspectMaterializationPaths
        (.fromRequest materialize), .ok fresh⟩] ++ last, plan, failure, fresh, ?_, ?_, ?_,
        hfallback, by rw [hcopy]; rfl, by rw [hcopy]; rfl⟩⟩
      · rw [hlast, hevent, hmiddle, hw]
        simp only [List.append_assoc, List.cons_append, List.nil_append]
      · rw [hcalm.attempts, hw, attempts_append, hbefore]
        rfl
      · exact List.mem_append_left _ (List.mem_append_right _ (List.mem_singleton_self _))
    refine ⟨hauthorized, fun copied w₅ h₅ => ?_⟩
    rcases copied with e | receipt
    · trivial
    refine ⟨fun hdb => step_consistent h₅ (hcalm.consistent hdb),
      .inr ⟨w₄.history, [], step_history h₅, rfl, hauthorized⟩⟩

/-- **Every full copy is authorized.**  It is started under the plan of a request that allows it,
after the probe or a failed clone has shown that the clone is not supported. -/
theorem materializePrepared_safe {report : MaterializationPathReport}
    (hnone : attempts w.history = [])
    (hreport : ⟨.inspectMaterializationPaths (.fromRequest materialize), .ok report⟩ ∈ w.history)
    (hplan : selectPlan report create.allowFullCopy = .ok plan) :
    Safe (portEnvironment json installation) (fullCopyGuard json installation create)
      (Materialized create materialize w)
      (materializePrepared create materializers prepared materialize plan) w := by
  unfold materializePrepared
  rcases selectPlan_ok hplan with ⟨hmode, hadapter⟩ | ⟨hallow, hadapter, hbuilt⟩
  · rw [if_neg hadapter]
    refine ⟨hmode, fun cloned w₁ h₁ => ?_⟩
    rcases cloned with failure | receipt
    · refine (fallBack_safe hnone (step_history h₁)).mono fun outcome w₂ h₂ => ?_
      rcases outcome with e | ⟨plan', receipt⟩
      · trivial
      · exact ⟨fun hdb => h₂.1 (step_consistent h₁ hdb), h₂.2⟩
    · exact ⟨step_consistent h₁, .inl hmode⟩
  · rw [if_pos hadapter]
    refine Safe.bind (x := unlessFail _ _) (uncopied_part only_unlessFail)
      (fun _ w₁ h₁ => ?_) fun _ _ _ => trivial
    have hauthorized : FullCopyAuthorized create materialize plan w₁.history := by
      obtain ⟨_, hstate, hreasons, _, _, _, hcopy⟩ :=
        MaterializationPlan.forFullCopyAfterPreflight_ok hbuilt
      refine ⟨hallow, .inl ⟨by rw [h₁.attempts, hnone], report, h₁.mem hreport, hbuilt, hstate,
        hreasons, by rw [hcopy]; rfl, by rw [hcopy]; rfl⟩⟩
    refine ⟨hauthorized, fun copied w₂ h₂ => ?_⟩
    rcases copied with e | receipt
    · trivial
    exact ⟨fun hdb => step_consistent h₂ (h₁.consistent hdb),
      .inr ⟨w₁.history, [], step_history h₂, rfl, hauthorized⟩⟩

/-! ### Commits

A receipt that is committed belongs to the last attempt.  The store accepts it only if its
modes are those of the plan, so a receipt of a copy comes from a copy that was authorized
before. -/

/-- The store's checks tie the receipt to its plan. -/
theorem receiptAccepted_modes {reservation : WorkspaceReservation}
    {receipt : MaterializationReceipt}
    (h : Metadata.receiptAccepted reservation plan receipt = true) :
    receipt.effectiveMode = plan.effectiveMode ∧ receipt.actualMode = plan.effectiveMode ∧
      receipt.fallbackReason = plan.fallbackReason ∧
      receipt.failedAttempts = plan.failedAttempts := by
  unfold Metadata.receiptAccepted at h
  simp only [Bool.and_eq_true, beq_iff_eq, Prod.mk.injEq] at h
  obtain ⟨⟨⟨-, -, -, heffective, hactual, -, -, -, hreason, hattempts⟩, -⟩, -⟩ := h
  exact ⟨heffective, hactual, hreason, hattempts⟩

/-- A part without copies keeps the last attempt the last. -/
theorem CopyReturned.calm {receipt : MaterializationReceipt}
    (h : CopyReturned create materialize plan receipt w.history)
    (hw : Calm PortCall.copies w w') :
    CopyReturned create materialize plan receipt w'.history := by
  obtain ⟨before, after, hhistory, hafter, hauthorized⟩ := h
  obtain ⟨events, he, hcalm⟩ := hw.events
  refine ⟨before, after ++ events, ?_, ?_, hauthorized⟩
  · rw [he, hhistory, List.append_assoc, List.cons_append]
  · rw [attempts_append, hafter, attempts_eq_nil hcalm, List.append_nil]

/-- The end of a creation completes a copy only behind one that returned.  The completion is the
one call that the guard speaks of.  It is reached from a clone or from a copy that returned, and
the store has accepted the receipt that it is given. -/
theorem finishReserved_authorized {reservation : WorkspaceReservation}
    {receipt : MaterializationReceipt} (hdb : w.db.Consistent)
    (h : plan.effectiveMode = .cowClone ∨
      CopyReturned create materialize plan receipt w.history) :
    Safe (portEnvironment json installation) (fullCopyGuard json installation create)
      (fun _ _ => True) (finishReserved create reservation prepared plan receipt) w := by
  refine Safe.bind (x := port _ _) (uncopied_part (Only.orFail (only_call rfl)))
    (fun _ w₁ h₁ => ?_) fun _ _ _ => trivial
  refine Safe.bind (x := port _ _) (uncopied_part (Only.orFail (only_call rfl)))
    (fun _ w₂ h₂ => ?_) fun _ _ _ => trivial
  refine Safe.bind (x := port _ _) (uncopied_part (Only.orFail (only_call rfl)))
    (fun _ w₃ h₃ => ?_) fun _ _ _ => trivial
  refine Safe.bind (x := port _ _) (uncopied_part (Only.orFail (only_call rfl)))
    (fun _ w₄ h₄ => ?_) fun _ _ _ => trivial
  have hcalm := (h₁.trans h₂).trans (h₃.trans h₄)
  refine ⟨fun record w₅ step hcopy => ?_, fun completed w₅ h₅ => ?_⟩
  · obtain ⟨faults, c, run, -⟩ := StoreStep.ran step.2
    obtain ⟨_, before, _, _, _, haccepted, -⟩ :=
      Metadata.completeMaterialization_ok (hcalm.consistent hdb).ids_nodup run
    obtain ⟨heffective, hactual, hreason, hattempts⟩ := receiptAccepted_modes haccepted
    rw [heffective, hactual, or_self] at hcopy
    rcases h with hclone | hreturned
    · rw [hclone] at hcopy
      cases hcopy
    · exact ⟨⟨materialize, hreturned.calm hcalm⟩, hreason, hattempts⟩
  · cases completed <;> trivial

/-! ### The whole use case

The composition along `createImpl`, and a run whose clone is refused at run time. -/

/-- A creation behind its reservation copies only as it is authorized to. -/
theorem createReserved_authorized {dataRoot : AbsolutePath} {reservation : WorkspaceReservation}
    (hdb : w.db.Consistent) (hnone : attempts w.history = []) :
    Safe (portEnvironment json installation) (fullCopyGuard json installation create)
      (fun _ _ => True) (createReserved create materializers dataRoot reservation) w := by
  refine Safe.bind (x := port _ _) (uncopied_part (Only.orFail (only_call rfl)))
    (fun prepared w₁ h₁ => ?_) fun _ _ _ => trivial
  refine Safe.bind (x := unlessFail _ _) (uncopied_part only_unlessFail)
    (fun _ w₂ h₂ => ?_) fun _ _ _ => trivial
  refine Safe.bind (x := planPrepared _ _ _ _ _ _) planPrepared_safe
    (fun plan w₃ h₃ => ?_) fun _ _ _ => trivial
  obtain ⟨h₃, hplan⟩ := h₃
  obtain ⟨report, hreport, hselect⟩ := hplan plan rfl
  have hcalm := (h₁.trans h₂).trans h₃
  refine Safe.bind (x := materializePrepared _ _ _ _ _)
    (materializePrepared_safe (by rw [hcalm.attempts, hnone]) hreport hselect)
    (fun made w₄ h₄ => ?_) fun _ _ _ => trivial
  exact finishReserved_authorized (h₄.1 (hcalm.consistent hdb)) h₄.2

/-- So does a creation that makes its reservation: no attempt precedes the part that materializes.
The reservation and what follows it up to the materialization make no attempt, so the list of
attempts is empty there. -/
theorem reserveAndCreate_authorized {identity : InstallationIdentity}
    {reservation : WorkspaceReservation} (hdb : w.db.Consistent)
    (hnone : attempts w.history = []) :
    Safe (portEnvironment json installation) (fullCopyGuard json installation create)
      (fun _ _ => True) (reserveAndCreate create materializers identity reservation) w := by
  refine Safe.bind (x := port _ _) (uncopied_part (Only.orFail (only_call rfl)))
    (fun record w₁ h₁ => ?_) fun _ _ _ => trivial
  have hreserved : Safe (portEnvironment json installation)
      (fullCopyGuard json installation create) (fun _ _ => True)
      ((createReserved create materializers identity.dataRoot reservation).mapError
        fun error => error.withWorkspaceId reservation.workspaceId) w₁ :=
    Safe.mapError ((createReserved_authorized (h₁.consistent hdb)
      (by rw [h₁.attempts, hnone])).mono fun _ _ _ => trivial)
  refine Safe.bind hreserved.attempt (fun result w₂ _ => ?_) fun _ _ _ => trivial
  cases result with
  | ok outcome => trivial
  | error e =>
    refine ⟨trivial, fun recorded w₃ _ => ?_⟩
    cases recorded <;> trivial

/-- So does every creation, from any consistent database and whatever the ports answer.  Everything
before the reservation only observes, which adds no attempt. -/
theorem createImpl_authorized {db : Database} (hdb : db.Consistent) :
    Safe (portEnvironment json installation) (fullCopyGuard json installation create)
      (fun _ _ => True) (createImpl create materializers) ⟨db, []⟩ := by
  refine Safe.bind (x := unlessFail _ _) (uncopied_part only_unlessFail)
    (fun _ w₁ h₁ => ?_) fun _ _ _ => trivial
  refine Safe.bind (x := readIdentity)
    (observed_part (only_readIdentity.mono observes_of_opensStore))
    (fun identity w₂ h₂ => ?_) fun _ _ _ => trivial
  refine Safe.bind (x := unlessFail _ _) (uncopied_part only_unlessFail)
    (fun _ w₃ h₃ => ?_) fun _ _ _ => trivial
  refine Safe.bind (x := openMetadata _ _)
    (observed_part (only_openMetadata.mono observes_of_opensStore))
    (fun _ w₄ h₄ => ?_) fun _ _ _ => trivial
  refine Safe.bind (x := port _ _) (uncopied_part (Only.orFail (only_call rfl)))
    (fun active w₅ h₅ => ?_) fun _ _ _ => trivial
  cases findByName create.name active with
  | some existing => exact (observed_part only_createExisting).mono fun _ _ _ => trivial
  | none =>
    refine Safe.bind (x := observe _ _ _) (observed_part only_observe)
      (fun reservation w₆ h₆ => ?_) fun _ _ _ => trivial
    have hcalm := ((h₁.trans h₂).trans (h₃.trans h₄)).trans (h₅.trans h₆)
    exact reserveAndCreate_authorized (hcalm.consistent hdb) hcalm.attempts

/-- **No silent full copy.**  In every run of `create` on every reachable database,
complete or stopped and whatever the ports do, a full copy is started only under
`FullCopyAuthorized`, the clone executor never gets the plan of a full copy, and a
receipt of a full copy is committed only if an authorized copy returned it and it
repeats the reason and the attempts of its plan. -/
theorem create_full_copy_authorized (json : JsonLibrary) (installation : InstallationRecord)
    (create : CreateRequest) (materializers : Materializers)
    (calls : List (Metadata.Call × List Bool)) {c : PortCall} {w : World}
    (issued : Program.Issues (portEnvironment json installation)
      (createImpl create materializers)
      ⟨Metadata.runCalls json installation (.initialized installation) calls, []⟩ c w) :
    fullCopyGuard json installation create c w :=
  (createImpl_authorized (Metadata.consistent_runCalls json installation calls)).of_issues issued

/-- A clone that the file system refused before anything was created. -/
def sampleUnavailable : MaterializationFailure where
  error := .new .capabilityUnavailable "clone file"
  receipt := { sampleReceipt with
    outcome := .failed, failureKind := some .cowUnavailable, targetManifestDigest := none }

/-- The plan of the full copy after it. -/
def sampleCopyPlan : MaterializationPlan :=
  .fullCopy sampleReport samplePlan.fallbackPolicy samplePlan.sourceVolumeId
    samplePlan.targetVolumeId .cloneUnavailableAtRuntime
    [sampleUnavailable.receipt.toFailedAttempt]

/-- The materialization of the sample creation, in its prepared directories. -/
def sampleMaterialize : MaterializeRequest :=
  ⟨sampleReservation.sourcePath, sampleReservation.targetPath, samplePrepared.stagingRoot,
    samplePrepared.trashRoot⟩

/-- A creation whose clone is refused at run time gets as far as its full copy.  The answers are
written out up to the copy: the clone is refused as unavailable, the paths are probed again, and
the plan to copy follows. -/
theorem create_full_copy_authorized_fallback : ∃ w,
    Program.Issues (portEnvironment sampleLibrary sampleInstallation)
        (createImpl sampleCreate sampleMaterializers) ⟨.initialized sampleInstallation, []⟩
        (.copyMaterialize sampleMaterialize sampleCopyPlan) w ∧
      fullCopyGuard sampleLibrary sampleInstallation sampleCreate
        (.copyMaterialize sampleMaterialize sampleCopyPlan) w := by
  have run : ∃ w, Program.Issues (portEnvironment sampleLibrary sampleInstallation)
      (createImpl sampleCreate sampleMaterializers) ⟨.initialized sampleInstallation, []⟩
      (.copyMaterialize sampleMaterialize sampleCopyPlan) w := by
    refine issues_after (.ok (some sampleInstallation.identity)) _ rfl ?_
    refine issues_after (.ok ()) _ rfl ?_
    refine issues_after (.ok ()) _ rfl ?_
    refine issues_after (.ok ()) _ rfl ?_
    refine issues_after (.ok ()) _ rfl ?_
    refine issues_after (.ok (some ⟨sampleInstallation.identity, .ready⟩)) _ rfl ?_
    refine issues_after (.ok ()) _ rfl ?_
    refine issues_after (.ok []) _ initialized_workspaces ?_
    refine issues_after (.ok (sampleDirectory sampleReservation.sourcePath 2)) _ rfl ?_
    refine issues_after (.ok (sampleDirectory sampleInstallation.identity.dataRoot 3)) _ rfl ?_
    refine issues_after sampleReservation.workspaceId _ rfl ?_
    refine issues_after (.ok samplePreliminary) _ rfl ?_
    refine issues_after (.ok sampleRecord) _ initialized_reserve ?_
    refine issues_after (.ok samplePrepared) _ rfl ?_
    refine issues_after (.ok sampleReport) _ rfl ?_
    refine issues_after (.ok ()) _ rfl ?_
    refine issues_after (.ok (sampleDirectory sampleInstallation.identity.dataRoot 3)) _ rfl ?_
    refine issues_after (.error sampleUnavailable) _ rfl ?_
    refine issues_after (.ok sampleReport) _ rfl ?_
    refine issues_after (.ok ()) _ rfl ?_
    exact ⟨_, .here⟩
  obtain ⟨w, run⟩ := run
  exact ⟨w, run, create_full_copy_authorized sampleLibrary sampleInstallation sampleCreate
    sampleMaterializers [] run⟩

end Application
end ThinWorkspace
