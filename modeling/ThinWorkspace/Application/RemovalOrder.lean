/-
# The order of a removal

Whatever the ports answer, the one call that destroys files comes after four
others, in this order and with nothing in between: the container was located, the
process scan returned, `Started` was logged and the row became `deleting`; and
the decision between the second and the third was to proceed.  `Clearance` is
that evidence, `Preflighted` what the preflight leaves of it, and `removalGuard`
the condition under which each call may be made.
-/

import ThinWorkspace.Application.Remove
import ThinWorkspace.Application.World

namespace ThinWorkspace
namespace Application

open ThinWorkspace.Core Lib Ports
open Metadata (Database)
open Program (Only Safe)

/-! ### The evidence

`Clearance` collects what the code has found out, and `Clearance.Justifies` says what of it
must be in the history when files are destroyed: the location of the container, the scan of
its processes, the record of the start and the row's transition are the last four calls. -/

/-- The calls the order is about: two inspections, the destruction and the tombstone. -/
def PortCall.isDecisive : PortCall → Bool
  | .removeWorkspace _ | .completeDeletion _ _ _ | .gitInspect _ | .processInspect _ => true
  | _ => false

/-- The calls a removal makes around these; a reservation is not among them. -/
def PortCall.accompanies : PortCall → Bool
  | .reserveWorkspace _ => false
  | c => !c.isDecisive

/-- The event is a read of the store that returned the record. -/
def Event.Returned (active : WorkspaceRecord) : Event → Prop
  | ⟨.workspaces, .ok records⟩ => active ∈ records
  | ⟨.workspace _, .ok found⟩ => found = some active
  | _ => False

/-- What was found out and decided about a record before its files are destroyed. -/
structure Clearance where
  active : WorkspaceRecord
  container : AbsolutePath
  observation : ProcessObservation
  inspection : Option GitInspection
  warning : Option RemovalWarning
  started : RemovalLogRecord
  logPath : AbsolutePath
  deleting : WorkspaceRecord

/-- The four calls that come last before the destruction. -/
def Clearance.lastCalls (k : Clearance) (request : RemoveRequest) : List Event :=
  [⟨.inspectRemovalContainer k.active.reservation, .ok (some k.container)⟩,
    ⟨.processInspect k.container, .ok k.observation⟩,
    ⟨.appendRemovalLog k.started, .ok k.logPath⟩,
    ⟨.beginRemoval k.active.reservation.workspaceId k.active.state request.mode request.now,
      .ok k.deleting⟩]

/-- The evidence justifies destroying the files of the reservation in `w`. -/
structure Clearance.Justifies (k : Clearance) (request : RemoveRequest)
    (reservation : WorkspaceReservation) (w : World) : Prop where
  selected : k.active.reservation = reservation ∧ ∃ e ∈ w.history, e.Returned k.active
  ordered : ∃ before, w.history = before ++ k.lastCalls request
  proceeds : decideRemoval (gitStateOf k.inspection) k.observation.useState request.mode =
    .proceed k.warning
  started : k.started.event = .started ∧ k.started.workspaceId = reservation.workspaceId
  deleting : ∃ row, w.db.selectWorkspace reservation.workspaceId.toText = some row ∧
    row.state = "deleting"
  unforced : request.mode = .normal → k.active.state = .ready ∧ ∃ path inspection,
    k.inspection = some inspection ∧ ⟨.gitInspect path, inspection⟩ ∈ w.history ∧
      inspection.Settled
  unused : ∀ container observation,
    ⟨.processInspect container, .ok observation⟩ ∈ w.history →
      observation.useState ≠ .confirmedInUse

/-- When each call of a removal may be made. -/
def removalGuard (request : RemoveRequest) : PortCall → World → Prop
  | .removeWorkspace reservation, w =>
    ∃ k : Clearance, k.Justifies request reservation w
  | .completeDeletion id _ _, w =>
    ∃ before reservation removal, reservation.workspaceId = id ∧
      w.history = before ++ [⟨.removeWorkspace reservation, .ok removal⟩,
        ⟨.inspectRemovalContainer reservation, .ok none⟩]
  | _, _ => True

variable {json : JsonLibrary} {installation : InstallationRecord} {request : RemoveRequest}
variable {w : World} {α : Type} {x : UseCase α}

/-- A call that decides nothing needs nothing before it. -/
theorem removalGuard_of_calm (c : PortCall) (w : World) (h : c.isDecisive = false) :
    removalGuard request c w := by
  cases c <;> trivial

/-- A call that only accompanies a removal decides nothing. -/
theorem not_isDecisive_of_accompanies (c : PortCall) (h : c.accompanies = true) :
    c.isDecisive = false := by
  cases c <;> first | rfl | cases h

/-- A part without decisive calls is safe and keeps what was found out so far. -/
theorem calm_part (hx : Only (fun c => c.accompanies = true) x) :
    Safe (portEnvironment json installation) (removalGuard request)
      (fun _ w' => Calm PortCall.isDecisive w w') x w :=
  calm_safe removalGuard_of_calm (hx.mono not_isDecisive_of_accompanies)

/-- A last part without decisive calls is safe, since the guard asks nothing of the others. -/
theorem calm_rest (hx : Only (fun c => c.accompanies = true) x) :
    Safe (portEnvironment json installation) (removalGuard request) (fun _ _ => True) x w :=
  (calm_part hx).mono fun _ _ _ => trivial

/-! ### Parts without decisive calls

What merely accompanies a removal can be passed over, in any state. -/

section CalmParts

/-- Opening the store accompanies a removal: it is none of the four decisive calls. -/
theorem accompanies_of_opensStore (c : PortCall) (h : c.opensStore = true) :
    c.accompanies = true := by
  cases c <;> first | rfl | cases h

/-- Appending to the log accompanies it: none of its calls is decisive. -/
theorem only_appendLog {id : WorkspaceId} {record : RemovalLogRecord} :
    Only (fun c => c.accompanies = true) (appendLog id record) :=
  (Only.orFail (only_call rfl))

/-- The removal of an identifier without an active record consists of such calls. -/
theorem only_removeAbsent {identity : InstallationIdentity} :
    Only (fun c => c.accompanies = true) (removeAbsent request identity) := by
  refine Only.bind only_orMissing fun id => Only.bind (Only.orFail (only_call rfl)) fun _ => ?_
  refine Only.bind only_orMissing fun _ => Only.bind only_unlessFail fun _ => ?_
  refine Only.bind (only_call rfl) fun _ => Only.bind only_appendLog fun _ => ?_
  exact Only.bind only_appendLog fun _ => Program.only_pure

/-- So does a failed preflight, which is logged and ends the removal. -/
theorem only_preflightFailed {operationId : OperationId} {id : WorkspaceId}
    {failure : UseCaseError} :
    Only (fun c => c.accompanies = true)
      (preflightFailed request operationId id failure : UseCase α) :=
  Only.bind (only_call rfl) fun
    | .ok _ => Program.only_throw
    | .error _ => Program.only_throw

variable {operationId : OperationId} {inspection : Option GitInspection}
  {processUse : Option ProcessUse} {active : WorkspaceRecord}

/-- So does a failure that is logged. -/
theorem only_failLogged {failure : UseCaseError} :
    Only (fun c => c.accompanies = true)
      (failLogged request operationId inspection processUse active failure : UseCase α) :=
  Only.bind only_appendLog fun _ => Program.only_throw

/-- So does a refusal, which is logged and ends the removal. -/
theorem only_refuse {reason : RemovalRefusal} :
    Only (fun c => c.accompanies = true)
      (refuse request operationId inspection processUse active reason : UseCase α) :=
  Only.bind only_appendLog fun _ => Program.only_throw

/-- So does a refusal for want of a complete inspection. -/
theorem only_refuseIncomplete :
    Only (fun c => c.accompanies = true)
      (refuseIncomplete request operationId inspection processUse active : UseCase α) :=
  Only.bind only_appendLog fun _ => Program.only_throw

/-- So does the record of a failed removal in the row. -/
theorem only_recordRemovalFailure {failure : UseCaseError} :
    Only (fun c => c.accompanies = true) (recordRemovalFailure request active failure) :=
  Only.bind (only_call rfl) fun
    | .ok _ => Program.only_pure
    | .error _ => Program.only_pure

end CalmParts

/-! ### Selection and preflight

Reads, validations and inspections collect the evidence.  Where the preflight returns, its
last two calls were the location and the scan, and the inspection behind them was made for
the same record. -/

/-- What a read of the store returned is in the history from then on.  There is one case for each
form of the target; a record that is selected was in the answer of the last read. -/
theorem selectActive_safe {target : RemoveTarget} :
    Safe (portEnvironment json installation) (removalGuard request)
      (fun outcome w' => Calm PortCall.isDecisive w w' ∧ ∀ active, outcome = .ok (some active) →
        ∃ e ∈ w'.history, e.Returned active)
      (selectActive target) w := by
  have hfind : ∀ {name : WorkspaceName} {records : List WorkspaceRecord} {active},
      findByName name records = some active → active ∈ records :=
    fun h => List.mem_of_find?_eq_some h
  cases target with
  | name name =>
    refine ⟨trivial, fun r w₁ h₁ => ?_⟩
    have hcalm : Calm PortCall.isDecisive w w₁ := Calm.step rfl h₁
    cases r with
    | error e => exact ⟨hcalm, fun _ h => by cases h⟩
    | ok records =>
      refine ⟨hcalm, fun active h => ⟨⟨.workspaces, .ok records⟩, ?_, ?_⟩⟩
      · rw [step_history h₁]
        exact List.mem_append_right _ (List.mem_singleton_self _)
      · exact hfind (Except.ok.inj h)
  | id id =>
    refine ⟨trivial, fun r w₁ h₁ => ?_⟩
    have hcalm : Calm PortCall.isDecisive w w₁ := Calm.step rfl h₁
    cases r with
    | error e => exact ⟨hcalm, fun _ h => by cases h⟩
    | ok found =>
      refine ⟨hcalm, fun active h => ⟨⟨.workspace id, .ok found⟩, ?_, Except.ok.inj h⟩⟩
      rw [step_history h₁]
      exact List.mem_append_right _ (List.mem_singleton_self _)
  | ambiguous name id =>
    refine ⟨trivial, fun r w₁ h₁ => ?_⟩
    have hcalm₁ : Calm PortCall.isDecisive w w₁ := Calm.step rfl h₁
    cases r with
    | error e => exact ⟨hcalm₁, fun _ h => by cases h⟩
    | ok records =>
      refine ⟨trivial, fun r w₂ h₂ => ?_⟩
      have hcalm₂ := hcalm₁.trans (Calm.step rfl h₂)
      cases r with
      | error e => exact ⟨hcalm₂, fun _ h => by cases h⟩
      | ok byId =>
        -- Both reads are in the history; what follows only looks at a tombstone.
        have hread : ∀ active, (findByName name records).or byId = some active →
            ∃ e ∈ w₂.history, e.Returned active := by
          intro active h
          rcases Option.or_eq_some_iff.mp h with h | ⟨_, h⟩
          · refine ⟨⟨.workspaces, .ok records⟩, ?_, hfind h⟩
            rw [step_history h₂, step_history h₁]
            simp
          · refine ⟨⟨.workspace id, .ok byId⟩, ?_, h⟩
            rw [step_history h₂]
            simp
        refine Safe.bind (x := isOldId byId id) (calm_part (only_isOldId rfl))
          (fun oldId w₃ h₃ => ?_) fun e w₃ h₃ => ⟨hcalm₂.trans h₃, fun _ h => by cases h⟩
        refine Safe.bind (x := unlessFail _ _) (calm_part only_unlessFail) (fun _ w₄ h₄ => ?_)
          fun e w₄ h₄ => ⟨hcalm₂.trans (h₃.trans h₄), fun _ h => by cases h⟩
        refine ⟨hcalm₂.trans (h₃.trans h₄), fun active h => ?_⟩
        obtain ⟨e, he, hreturned⟩ := hread active (Except.ok.inj h)
        exact ⟨e, (h₃.trans h₄).mem he, hreturned⟩

/-- What is known of the selected record before the process scan. -/
structure Inspected (mode : RemovalMode) (active : WorkspaceRecord)
    (inspection : Option GitInspection) (w : World) : Prop where
  consistent : w.db.Consistent
  selected : ∃ e ∈ w.history, e.Returned active
  unscanned : ∀ container r, ⟨.processInspect container, r⟩ ∉ w.history
  inspected : active.state = .ready → mode = .normal → ∃ path result,
    inspection = some result ∧ ⟨.gitInspect path, result⟩ ∈ w.history

/-- What a preflight that returned leaves: its last two calls located the
container and scanned its processes, and it made no other scan. -/
structure Preflighted (mode : RemovalMode) (active : WorkspaceRecord)
    (inspection : Option GitInspection) (processUse : Option ProcessUse) (w : World) : Prop where
  consistent : w.db.Consistent
  selected : ∃ e ∈ w.history, e.Returned active
  scanned : ∃ before container observation, processUse = some observation.useState ∧
    w.history = before ++ [⟨.inspectRemovalContainer active.reservation, .ok (some container)⟩,
      ⟨.processInspect container, .ok observation⟩]
  only_scan : ∀ container observation,
    ⟨.processInspect container, .ok observation⟩ ∈ w.history →
      processUse = some observation.useState
  inspected : active.state = .ready → mode = .normal → ∃ path result,
    inspection = some result ∧ ⟨.gitInspect path, result⟩ ∈ w.history

variable {active : WorkspaceRecord} {mode : RemovalMode} {inspection : Option GitInspection}
  {processUse : Option ProcessUse} {w' : World}

/-- What was inspected stays so while nothing decisive is done. -/
theorem Inspected.calm (h : Inspected mode active inspection w)
    (hcalm : Calm PortCall.isDecisive w w') : Inspected mode active inspection w' where
  consistent := hcalm.consistent h.consistent
  selected := by
    obtain ⟨e, he, hreturned⟩ := h.selected
    exact ⟨e, hcalm.mem he, hreturned⟩
  unscanned container r he := h.unscanned container r (hcalm.mem_of_kind he rfl)
  inspected hs hm := by
    obtain ⟨path, result, hresult, he⟩ := h.inspected hs hm
    exact ⟨path, result, hresult, hcalm.mem he⟩

/-- The inspection of a Ready workspace: the path is validated, its repositories are inspected, and
the inspection is the one that is reported. -/
theorem inspectReady_safe (mode : RemovalMode) (hw : w.db.Consistent)
    (hselected : ∃ e ∈ w.history, e.Returned active)
    (hfresh : ∀ container r, ⟨.processInspect container, r⟩ ∉ w.history) :
    Safe (portEnvironment json installation) (removalGuard request)
      (fun outcome w' => ∀ result, outcome = .ok result → Inspected mode active (some result) w')
      (inspectReady active.reservation) w := by
  refine Safe.bind (x := validateReady _) (calm_part (only_validateReady rfl))
    (fun path w₁ h₁ => ?_) fun e w₁ h₁ result h => by cases h
  refine Safe.bind (x := unlessFail _ _) (calm_part only_unlessFail) (fun _ w₂ h₂ => ?_)
    fun e w₂ h₂ result h => by cases h
  refine ⟨trivial, fun result w₃ h₃ => ?_⟩
  refine Safe.bind (x := validateReady _) (calm_part (only_validateReady rfl)) (fun _ w₄ h₄ => ?_)
    fun e w₄ h₄ result h => by cases h
  rintro _ ⟨⟩
  have hcalm := h₁.trans h₂
  have hevent : (⟨.gitInspect path, result⟩ : Event) ∈ w₃.history := by
    rw [step_history h₃]
    exact List.mem_append_right _ (List.mem_singleton_self _)
  refine Inspected.calm (w := w₃) ?_ h₄
  refine ⟨step_consistent h₃ (hcalm.consistent hw), ?_, fun container r he => ?_,
    fun _ _ => ⟨path, result, rfl, hevent⟩⟩
  · obtain ⟨e, he, hreturned⟩ := hselected
    refine ⟨e, ?_, hreturned⟩
    rw [step_history h₃]
    exact List.mem_append_left _ (hcalm.mem he)
  · rw [step_history h₃] at he
    rcases List.mem_append.mp he with he | he
    · exact hfresh container r (hcalm.mem_of_kind he rfl)
    · cases List.mem_singleton.mp he

/-- The Git part of the preflight: it inspects, or is skipped where the removal is forced or the
workspace is not Ready. -/
theorem inspectGit_safe (hw : w.db.Consistent) (hselected : ∃ e ∈ w.history, e.Returned active)
    (hfresh : ∀ container r, ⟨.processInspect container, r⟩ ∉ w.history) :
    Safe (portEnvironment json installation) (removalGuard request)
      (fun outcome w' => ∀ inspection, outcome = .ok inspection →
        Inspected mode active inspection w')
      (inspectGit mode active) w := by
  unfold inspectGit
  split
  · refine Safe.bind (inspectReady_safe mode hw hselected hfresh) (fun result w₁ h₁ => ?_)
      fun e w₁ h₁ inspection h => by cases h
    rintro _ ⟨⟩
    exact h₁ result rfl
  · rename_i hskip
    rintro _ ⟨⟩
    exact ⟨hw, hselected, hfresh, fun hs hm => absurd ⟨hs, hm⟩ hskip⟩

/-- **The preflight.**  Where it returns, the container was located and the processes were scanned,
and what it returns is what was found.  The container is located, the repository is inspected and
the processes are scanned in this order, and each part keeps what the earlier ones have put into
the history. -/
theorem preflight_safe (hw : w.db.Consistent) (hselected : ∃ e ∈ w.history, e.Returned active)
    (hfresh : ∀ container r, ⟨.processInspect container, r⟩ ∉ w.history) :
    Safe (portEnvironment json installation) (removalGuard request)
      (fun outcome w' => ∀ facts, outcome = .ok facts → Preflighted mode active facts.1 facts.2 w')
      (preflight mode active) w := by
  refine Safe.bind (x := locateContainer _) (calm_part (only_locateContainer rfl))
    (fun _ w₁ h₁ => ?_) fun e w₁ h₁ facts h => by cases h
  have hselected₁ : ∃ e ∈ w₁.history, e.Returned active := by
    obtain ⟨e, he, hreturned⟩ := hselected
    exact ⟨e, h₁.mem he, hreturned⟩
  refine Safe.bind (x := inspectGit _ _) (inspectGit_safe (h₁.consistent hw) hselected₁
    fun container r he => hfresh container r (h₁.mem_of_kind he rfl))
    (fun inspection w₂ h₂ => ?_) fun e w₂ h₂ facts h => by cases h
  have hinspected := h₂ inspection rfl
  refine ⟨trivial, fun located w₃ h₃ => ?_⟩
  rcases located with e | _ | container
  · rintro _ ⟨⟩
  · rintro _ ⟨⟩
  · refine ⟨trivial, fun scanned w₄ h₄ => ?_⟩
    rcases scanned with e | observation
    · rintro _ ⟨⟩
    · rintro _ ⟨⟩
      have hinspected₃ := hinspected.calm (Calm.step rfl h₃)
      have hmem : ∀ {e : Event}, e ∈ w₃.history → e ∈ w₄.history := fun he => by
        rw [step_history h₄]
        exact List.mem_append_left _ he
      refine ⟨step_consistent h₄ hinspected₃.consistent, ?_, ?_, fun other observed he => ?_,
        fun hs hm => ?_⟩
      · obtain ⟨e, he, hreturned⟩ := hinspected₃.selected
        exact ⟨e, hmem he, hreturned⟩
      · refine ⟨w₂.history, container, observation, rfl, ?_⟩
        rw [step_history h₄, step_history h₃, List.append_assoc]
        rfl
      · rw [step_history h₄] at he
        rcases List.mem_append.mp he with he | he
        · exact absurd he (hinspected₃.unscanned other _)
        · cases List.mem_singleton.mp he
          rfl
      · obtain ⟨path, result, hresult, he⟩ := hinspected₃.inspected hs hm
        exact ⟨path, result, hresult, hmem he⟩

/-! ### The destruction

From the decision to the destruction and the tombstone.  The decision table tells why the
removal may go on, and the two calls behind it come directly before the one that destroys.
-/

/-- The removal of a container that is cleared, and the look that follows it.  The destructive call
is permitted by the clearance, and what is returned comes from the look that follows it. -/
theorem removeContainer_safe {reservation : WorkspaceReservation}
    (hcleared : ∃ k : Clearance, k.Justifies request reservation w) :
    Safe (portEnvironment json installation) (removalGuard request)
      (fun outcome w' => ∀ removal, outcome = .ok removal → ∃ before,
        w'.history = before ++ [⟨.removeWorkspace reservation, .ok removal⟩,
          ⟨.inspectRemovalContainer reservation, .ok none⟩])
      (removeContainer reservation) w := by
  refine ⟨hcleared, fun removed w₁ h₁ => ?_⟩
  rcases removed with e | removal
  · rintro _ ⟨⟩
  · refine ⟨trivial, fun located w₂ h₂ => ?_⟩
    rcases located with e | _ | container
    · rintro _ ⟨⟩
    · rintro _ ⟨⟩
      refine ⟨w.history, ?_⟩
      rw [step_history h₂, step_history h₁, List.append_assoc]
      rfl
    · rintro _ ⟨⟩

variable {operationId : OperationId} {identity : InstallationIdentity} {logPath : AbsolutePath}
  {warning : Option RemovalWarning}

/-- The destruction is safe behind a clearance that justifies it.  Behind the container's removal
only the store and the log are written, and no call of either is one that the guard restricts. -/
theorem destroy_safe
    (hcleared : ∃ k : Clearance, k.Justifies request active.reservation w) :
    Safe (portEnvironment json installation) (removalGuard request) (fun _ _ => True)
      (destroy request operationId inspection processUse active identity logPath warning) w := by
  refine Safe.bind (x := Program.attempt _) (removeContainer_safe hcleared).attempt
    (fun outcome w₁ h₁ => ?_) fun e w₁ h₁ => trivial
  obtain ⟨_, ⟨⟩, h₁⟩ := h₁
  cases outcome with
  | error failure =>
    exact calm_rest (Only.bind only_recordRemovalFailure fun _ => only_failLogged)
  | ok removal =>
    obtain ⟨before, hhistory⟩ := h₁ removal rfl
    refine ⟨⟨before, active.reservation, removal, rfl, hhistory⟩, fun completed w₂ h₂ => ?_⟩
    cases completed with
    | error e => exact calm_rest only_failLogged
    | ok _ =>
      exact calm_rest (Only.bind (x := appendEvent _ _ _ _ _ _ _ _ _) only_appendLog
        fun _ => Program.only_pure)

/-- **From the decision to the destruction.**  The `Started` record and the `begin_removal` that
follow a decision to proceed complete the clearance.  The facts of the preflight and the decision
make up the clearance, and neither the log record nor the guarded update takes any of them away. -/
theorem beginAndDestroy_safe
    (hpre : Preflighted request.mode active inspection processUse w)
    (hready : request.mode = .normal → active.state = .ready)
    (hproceed : decideRemoval (gitStateOf inspection) (processUse.getD .noEvidence) request.mode =
      .proceed warning) :
    Safe (portEnvironment json installation) (removalGuard request) (fun _ _ => True)
      (beginAndDestroy request operationId inspection processUse active identity warning) w := by
  obtain ⟨before, container, observation, hobserved, hscanned⟩ := hpre.scanned
  rw [hobserved, Option.getD_some] at hproceed
  obtain ⟨hunused, hgit⟩ := decideRemoval_proceed hproceed
  refine ⟨trivial, fun logged w₁ h₁ => ?_⟩
  rcases logged with e | path
  · trivial
  refine ⟨trivial, fun began w₂ h₂ => ?_⟩
  rcases began with e | deleting
  · exact calm_rest only_failLogged
  have hmem : ∀ {e : Event}, e ∈ w.history → e ∈ w₂.history := fun he => by
    rw [step_history h₂, step_history h₁]
    exact List.mem_append_left _ (List.mem_append_left _ he)
  let started := removalRecord request operationId active.reservation.workspaceId inspection
    processUse .started none none none
  refine destroy_safe ⟨⟨active, container, observation, inspection, warning, started, path,
    deleting⟩, ⟨rfl, ?_⟩, ⟨before, ?_⟩, hproceed, ⟨rfl, rfl⟩, ?_, fun hmode => ?_,
    fun other observed he => ?_⟩
  · obtain ⟨e, he, hreturned⟩ := hpre.selected
    exact ⟨e, hmem he, hreturned⟩
  · rw [step_history h₂, step_history h₁, hscanned]
    simp only [List.append_assoc, List.cons_append, List.nil_append]
    rfl
  · have hconsistent := step_consistent h₁ hpre.consistent
    obtain ⟨faults, c, run, hdata⟩ := StoreStep.ran h₂.2
    exact hdata ▸ (Metadata.beginRemoval_ok hconsistent.ids_nodup run).2
  · obtain ⟨path', result, hresult, he⟩ := hpre.inspected (hready hmode) hmode
    refine ⟨hready hmode, path', result, hresult, hmem he, ?_⟩
    obtain ⟨hunknown, hdirty⟩ := hgit hmode
    rw [hresult] at hunknown hdirty
    exact GitInspection.settled_of_aggregate hunknown hdirty
  · rw [step_history h₂, step_history h₁] at he
    rcases List.mem_append.mp he with he | he
    · rcases List.mem_append.mp he with he | he
      · have hsame := hpre.only_scan other observed he
        rw [hobserved, Option.some.injEq] at hsame
        exact hsame ▸ hunused
      · cases List.mem_singleton.mp he
    · cases List.mem_singleton.mp he

/-- From the preflight on, whatever is decided is safe. -/
theorem decideAndRemove_safe (hpre : Preflighted request.mode active inspection processUse w) :
    Safe (portEnvironment json installation) (removalGuard request) (fun _ _ => True)
      (decideAndRemove request operationId inspection processUse active identity) w := by
  unfold decideAndRemove
  split
  · exact calm_rest only_refuseIncomplete
  · rename_i hready
    split
    · exact calm_rest only_refuse
    · rename_i warning hproceed
      refine beginAndDestroy_safe hpre (fun hmode => ?_) hproceed
      by_contra hstate
      exact hready ⟨hstate, hmode⟩

/-- The removal of an active record is safe, once the record was read and before any process was
looked at. -/
theorem removeActive_safe (hw : w.db.Consistent) (hselected : ∃ e ∈ w.history, e.Returned active)
    (hfresh : ∀ container r, ⟨.processInspect container, r⟩ ∉ w.history) :
    Safe (portEnvironment json installation) (removalGuard request) (fun _ _ => True)
      (removeActive request identity active) w := by
  refine Safe.bind (x := call .newOperationId) (calm_part (only_call rfl))
    (fun operationId w₁ h₁ => ?_) fun e w₁ h₁ => trivial
  have hselected₁ : ∃ e ∈ w₁.history, e.Returned active := by
    obtain ⟨e, he, hreturned⟩ := hselected
    exact ⟨e, h₁.mem he, hreturned⟩
  refine Safe.bind (x := Program.attempt _) (preflight_safe (h₁.consistent hw) hselected₁
    fun container r he => hfresh container r (h₁.mem_of_kind he rfl)).attempt
    (fun outcome w₂ h₂ => ?_) fun e w₂ h₂ => trivial
  obtain ⟨_, ⟨⟩, h₂⟩ := h₂
  cases outcome with
  | error failure => exact calm_rest only_preflightFailed
  | ok facts => exact decideAndRemove_safe (h₂ facts rfl)

/-- Every removal is safe, from any consistent database: its parts are put together along the
definition. -/
theorem remove_safe {db : Database} (hdb : db.Consistent) :
    Safe (portEnvironment json installation) (removalGuard request) (fun _ _ => True)
      (remove request) ⟨db, []⟩ := by
  refine Safe.bind (x := readIdentity) 
    (calm_part (only_readIdentity.mono accompanies_of_opensStore))
    (fun identity w₁ h₁ => ?_) fun e w₁ h₁ => trivial
  refine Safe.bind (x := openMetadata _ _) 
    (calm_part (only_openMetadata.mono accompanies_of_opensStore))
    (fun _ w₂ h₂ => ?_) fun e w₂ h₂ => trivial
  refine Safe.bind (x := selectActive _) selectActive_safe (fun found w₃ h₃ => ?_)
    fun e w₃ h₃ => trivial
  have hcalm := (h₁.trans h₂).trans h₃.1
  cases found with
  | none => exact calm_rest only_removeAbsent
  | some active =>
    refine removeActive_safe (hcalm.consistent hdb) (h₃.2 active rfl) fun container r he => ?_
    exact absurd (hcalm.mem_of_kind he rfl) List.not_mem_nil

/-- **The order of a removal.**  In every run of `remove` on every reachable
database, for every request and every result the ports may give, the files are
destroyed only under a `Clearance`: the container was located, the processes were
scanned, `Started` was logged and the row became `deleting`, in this order and
last of all; the decision was to proceed; without force the record was Ready and
its Git inspection settled; and no scan confirmed a use.  The deletion is
completed only right after the removal returned and nothing was found. -/
theorem remove_order (json : JsonLibrary) (installation : InstallationRecord)
    (request : RemoveRequest) (calls : List (Metadata.Call × List Bool)) {c : PortCall} {w : World}
    (run : Program.Issues (portEnvironment json installation) (remove request)
      ⟨Metadata.runCalls json installation (.initialized installation) calls, []⟩ c w) :
    removalGuard request c w :=
  (remove_safe (Metadata.consistent_runCalls json installation calls)).of_issues run

/-- A removal of `sampleReservation` with force, one moment after its creation. -/
def sampleRequest : RemoveRequest :=
  ⟨.id sampleReservation.workspaceId, .force, sampleLater⟩

/-- The order holds in a run that gets as far as the destruction: a workspace
that was reserved and never finished is removed with force. -/
theorem remove_order_forced : ∃ w,
    Program.Issues (portEnvironment sampleLibrary sampleInstallation) (remove sampleRequest)
        ⟨sampleDatabase, []⟩ (.removeWorkspace sampleReservation) w ∧
      removalGuard sampleRequest (.removeWorkspace sampleReservation) w := by
  have hbegin : ∃ db, StoreStep (Metadata.beginRemoval sampleReservation.workspaceId .creating
      sampleRequest.mode sampleRequest.now) sampleDatabase (.ok sampleDeleting) db :=
    ⟨_, @StoreStep.returned _ _ sampleDatabase [] _ _ rfl⟩
  obtain ⟨db, hbegin⟩ := hbegin
  have run : ∃ w, Program.Issues (portEnvironment sampleLibrary sampleInstallation)
      (remove sampleRequest) ⟨sampleDatabase, []⟩ (.removeWorkspace sampleReservation) w := by
    refine issues_after (.ok (some sampleInstallation.identity)) sampleDatabase rfl ?_
    refine issues_after (.ok ()) sampleDatabase rfl ?_
    refine issues_after (.ok ()) sampleDatabase rfl ?_
    refine issues_after (.ok ()) sampleDatabase rfl ?_
    refine issues_after (.ok ()) sampleDatabase rfl ?_
    refine issues_after (.ok (some ⟨sampleInstallation.identity, .ready⟩)) sampleDatabase rfl ?_
    refine issues_after (.ok ()) sampleDatabase rfl ?_
    refine issues_after (.ok (some sampleRecord)) sampleDatabase sampleDatabase_workspace ?_
    refine issues_after ⟨sampleUuid 4⟩ sampleDatabase rfl ?_
    refine issues_after (.ok (some sampleReservation.targetPath)) sampleDatabase rfl ?_
    refine issues_after (.ok (some sampleReservation.targetPath)) sampleDatabase rfl ?_
    refine issues_after (.ok ⟨sampleLater, .noEvidence⟩) sampleDatabase rfl ?_
    refine issues_after (.ok sampleReservation.sourcePath) sampleDatabase rfl ?_
    refine issues_after (.ok sampleDeleting) db hbegin ?_
    exact ⟨_, .here⟩
  obtain ⟨w, run⟩ := run
  refine ⟨w, run, remove_order sampleLibrary sampleInstallation _
    [(.reserveWorkspace sampleReservation, [])] ?_⟩
  rw [sampleDatabase_reachable]
  exact run

end Application
end ThinWorkspace
