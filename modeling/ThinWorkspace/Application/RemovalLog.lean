/-
# The removal log

Source: `crates/thinws-application/src/remove.rs`, and the record checks at the
head of `append_removal_record` in `crates/thinws-adapter-linux/src/operation_log.rs`
and `crates/thinws-adapter-macos/src/operation_log.rs`, which are the same in both.

A removal appends records from many exit points.  `logGuard` is what each of them
meets: the adapters accept the record, it continues one of `logSequences`, and a
`Completed` record finds its tombstone stored.  `Ended` is what a run leaves that got
as far as an operation identifier, with the outcome tied to the last record.
-/

import ThinWorkspace.Application.Remove
import ThinWorkspace.Application.World
import ThinWorkspace.Metadata.Timestamps

namespace ThinWorkspace
namespace Application

open ThinWorkspace.Core Lib Ports
open Metadata (Database)
open Program (Only Safe)

/-! ### What the adapters check

Both adapters check a record before they write it.  The checks are modelled once, with their
two refusals in the order of the source. -/

/-- The fields of each event: the reasons of a refusal or a failure, the outcome of a
completion. -/
def validEvent (record : RemovalLogRecord) : Bool :=
  match record.event with
  | .refused => record.protection.isSome && record.errorCode.isSome && record.outcome.isNone
  | .started => record.protection.isNone && record.errorCode.isNone && record.outcome.isNone
  | .completed => record.protection.isNone && record.errorCode.isNone && record.outcome.isSome
  | .failed => record.errorCode.isSome && record.outcome.isNone

/-- A path without a root and without a `..`. -/
def isRelativePath (path : List UInt8) : Bool :=
  path.head? != some slash && !(path.splitOn slash).contains [46, 46]

/-- What `append_removal_record` checks before it writes: the fields that an event requires, and
relative paths of the repositories. -/
def checkRemovalRecord (record : RemovalLogRecord) : Except PortError Unit := do
  Fallible.refuseIf (validEvent record = false ∨
      record.gitCheckComplete = true ∧ record.gitState = .unknown)
    (.new .invalidData "cleanup log event fields are inconsistent")
  Fallible.refuseIf (record.repositories.any (fun r => !isRelativePath r.relativePath) = true)
    (.new .invalidData "cleanup log repository path is not relative")

/-- The paths a Git inspection lists are relative to the copy root. -/
def RelativeRepositories (inspection : GitInspection) : Prop :=
  ∀ repository ∈ inspection.repositories, isRelativePath repository.relativePath = true

/-! ### The log of a run

The complete logs of an operation are a list of four sequences.  The guard lets a record be
appended when it continues one of them, and asks of a completion that the tombstone is
stored; `Ended` relates the end of the log to the outcome. -/

/-- The record an event appended, and whether the append returned. -/
def Event.append? : Event → Option (RemovalLogRecord × Bool)
  | ⟨.appendRemovalLog record, .ok _⟩ => some (record, true)
  | ⟨.appendRemovalLog record, .error _⟩ => some (record, false)
  | _ => none

/-- The records a run passed to `append_removal_log`, in order. -/
def World.appends (w : World) : List (RemovalLogRecord × Bool) := w.history.filterMap Event.append?

/-- The events of a list of records, as the protocol of the log orders them. -/
def logEvents (appends : List (RemovalLogRecord × Bool)) : List RemovalLogEvent :=
  appends.map (·.1.event)

/-- The complete logs of an operation: a failure or a refusal at once, or a start and how it ended.
-/
def logSequences : List (List RemovalLogEvent) :=
  [[.failed], [.refused], [.started, .failed], [.started, .completed]]

/-- An event that may come next in the log of an operation. -/
def Continues (appends : List (RemovalLogRecord × Bool)) (event : RemovalLogEvent) : Prop :=
  (∀ a ∈ appends, a.2 = true) ∧ ∃ sequence ∈ logSequences, logEvents appends ++ [event] <+: sequence

/-- When a record may be appended: the adapters accept it, it continues one of the complete logs,
and a completion has its tombstone. -/
def logGuard : PortCall → World → Prop
  | .appendRemovalLog record, w =>
    ((∀ path inspection, ⟨.gitInspect path, inspection⟩ ∈ w.history →
      RelativeRepositories inspection) → checkRemovalRecord record = .ok ()) ∧
    (validEvent record = true ∧ ¬(record.gitCheckComplete = true ∧ record.gitState = .unknown)) ∧
    Continues w.appends record.event ∧
    (record.event = .completed → ∃ t ∈ w.db.tombstones, t.workspaceId = record.workspaceId.toText)
  | _, _ => True

/-- How the log of an operation ends, with the outcome of the run. -/
structure Ended (operationId : OperationId) (id : WorkspaceId)
    (outcome : Except UseCaseError RemoveOutcome) (appends : List (RemovalLogRecord × Bool)) :
    Prop where
  operation : ∀ a ∈ appends, a.1.operationId = operationId ∧ a.1.workspaceId = id
  last : ∃ earlier record appended, appends = earlier ++ [(record, appended)] ∧
    Continues earlier record.event ∧
    (appended = true → logEvents appends ∈ logSequences ∧
      ((∃ result, outcome = .ok result) ↔ record.event = .completed) ∧
      ∀ e, outcome = .error e → record.errorCode = some e.diagnostic.code) ∧
    (appended = false → ∃ e, outcome = .error e)

/-! ### Calls that do not log

Most calls of a removal do not log; they leave the appended records as they are. -/

/-- The calls the log is about: an append, and the identifier that begins an operation. -/
def PortCall.logs : PortCall → Bool
  | .appendRemovalLog _ | .newOperationId => true
  | _ => false

variable {json : JsonLibrary} {installation : InstallationRecord} {request : RemoveRequest}
variable {w w' : World} {α : Type} {x : UseCase α}

/-- An event of another call is no append, so it adds nothing to the log. -/
theorem append?_of_not_logs {e : Event} (h : e.call.logs = false) : e.append? = none := by
  obtain ⟨c, r⟩ := e
  cases c <;> first | rfl | cases h

/-- A part that does not log leaves the appended records as they were. -/
theorem appends_of_calm (h : Calm PortCall.logs w w') : w'.appends = w.appends := by
  obtain ⟨⟨events, hevents, hnot⟩, _⟩ := h
  unfold World.appends
  rw [hevents, List.filterMap_append]
  have hnone : events.filterMap Event.append? = [] :=
    List.filterMap_eq_nil_iff.mpr fun e he => append?_of_not_logs (hnot e he)
  rw [hnone, List.append_nil]

/-- A call that does not log meets the guard. -/
theorem logGuard_of_not_logs (c : PortCall) (w : World) (h : c.logs = false) : logGuard c w := by
  cases c <;> trivial

/-- Opening the store does not log: none of its calls is an append. -/
theorem not_logs_of_opensStore (c : PortCall) (h : c.opensStore = true) : c.logs = false := by
  cases c <;> first | rfl | cases h

/-- A part that does not log meets the guard and leaves the log as it was. -/
theorem quiet_part (hx : Only (fun c => c.logs = false) x) :
    Safe (portEnvironment json installation) logGuard (fun _ w' => Calm PortCall.logs w w') x w :=
  calm_safe logGuard_of_not_logs hx

section Quiet

variable {reservation : WorkspaceReservation}

/-- Looking at the processes does not log, whatever is found. -/
theorem quiet_inspectProcesses : Only (fun c => c.logs = false) (inspectProcesses reservation) :=
  Only.bind (only_locateContainer rfl) fun _ =>
    Only.bind (Only.orFail (only_call rfl)) fun _ => Program.only_pure

/-- Removing the container does not log; its result is logged by the caller. -/
theorem quiet_removeContainer : Only (fun c => c.logs = false) (removeContainer reservation) :=
  Only.bind (Only.orFail (only_call rfl)) fun _ => Only.bind (Only.orFail (only_call rfl)) fun _ =>
    Only.bind only_unlessFail fun _ => Program.only_pure

end Quiet

/-! ### The inspection behind a record

A record that claims a complete check has an inspection behind it, which is a result of the
Git port in this run.  Its paths are as relative as the port made them. -/

/-- The inspection, if there is one, is a result of the Git inspector in this run. -/
def Inspects (inspection : Option GitInspection) (w : World) : Prop :=
  ∀ result, inspection = some result → ∃ path, ⟨.gitInspect path, result⟩ ∈ w.history

/-- What was inspected stays inspected while nothing is logged. -/
theorem Inspects.calm {inspection : Option GitInspection} (h : Inspects inspection w)
    (hcalm : Calm PortCall.logs w w') : Inspects inspection w' := by
  intro result hresult
  obtain ⟨path, he⟩ := h result hresult
  exact ⟨path, hcalm.mem he⟩

/-- Inspecting a Ready workspace does not log, and returns what the Git port returned.  The
workspace is validated, inspected and validated again, and only the answer of the second step is
returned. -/
theorem inspectReady_quietly {reservation : WorkspaceReservation} :
    Safe (portEnvironment json installation) logGuard
      (fun outcome w' => Calm PortCall.logs w w' ∧
        ∀ result, outcome = .ok result → Inspects (some result) w')
      (inspectReady reservation) w := by
  refine Safe.bind (x := validateReady _) (quiet_part (only_validateReady rfl))
    (fun path w₁ h₁ => ?_) fun e w₁ h₁ => ⟨h₁, fun _ h => by cases h⟩
  refine Safe.bind (x := unlessFail _ _) (quiet_part only_unlessFail) (fun _ w₂ h₂ => ?_)
    fun e w₂ h₂ => ⟨h₁.trans h₂, fun _ h => by cases h⟩
  refine ⟨trivial, fun result w₃ h₃ => ?_⟩
  have hcalm : Calm PortCall.logs w w₃ := (h₁.trans h₂).trans (Calm.step rfl h₃)
  refine Safe.bind (x := validateReady _) (quiet_part (only_validateReady rfl)) (fun _ w₄ h₄ => ?_)
    fun e w₄ h₄ => ⟨hcalm.trans h₄, fun _ h => by cases h⟩
  refine ⟨hcalm.trans h₄, ?_⟩
  rintro _ ⟨⟩ _ ⟨⟩
  refine ⟨path, h₄.mem ?_⟩
  rw [step_history h₃]
  exact List.mem_append_right _ (List.mem_singleton_self _)

/-- The inspection before a removal does not log, and what it returns, if anything, is what the Git
port returned. -/
theorem inspectGit_quietly {mode : RemovalMode} {active : WorkspaceRecord} :
    Safe (portEnvironment json installation) logGuard
      (fun outcome w' => Calm PortCall.logs w w' ∧
        ∀ inspection, outcome = .ok inspection → Inspects inspection w')
      (inspectGit mode active) w := by
  unfold inspectGit
  split
  · refine Safe.bind inspectReady_quietly (fun result w₁ h₁ => ⟨h₁.1, ?_⟩)
      fun e w₁ h₁ => ⟨h₁.1, fun _ h => by cases h⟩
    rintro _ ⟨⟩
    exact h₁.2 result rfl
  · refine ⟨.refl w, ?_⟩
    rintro _ ⟨⟩ _ h
    cases h

/-- **The preflight** logs nothing, and its inspection is the inspector's. -/
theorem preflight_quietly {mode : RemovalMode} {active : WorkspaceRecord} :
    Safe (portEnvironment json installation) logGuard
      (fun outcome w' => Calm PortCall.logs w w' ∧
        ∀ facts, outcome = .ok facts → Inspects facts.1 w')
      (preflight mode active) w := by
  refine Safe.bind (x := locateContainer _) (quiet_part (only_locateContainer rfl))
    (fun _ w₁ h₁ => ?_) fun e w₁ h₁ => ⟨h₁, fun _ h => by cases h⟩
  refine Safe.bind (x := inspectGit _ _) inspectGit_quietly (fun inspection w₂ h₂ => ?_)
    fun e w₂ h₂ => ⟨h₁.trans h₂.1, fun _ h => by cases h⟩
  refine Safe.bind (x := inspectProcesses _) (quiet_part quiet_inspectProcesses)
    (fun processUse w₃ h₃ => ?_) fun e w₃ h₃ => ⟨(h₁.trans h₂.1).trans h₃, fun _ h => by cases h⟩
  refine ⟨(h₁.trans h₂.1).trans h₃, ?_⟩
  rintro _ ⟨⟩
  exact (h₂.2 inspection rfl).calm h₃

/-! ### The log under way

An operation in progress, with all of its appends returned.  It is the invariant between two
records. -/

/-- The log of an operation so far: every append returned, with these events. -/
structure Underway (operationId : OperationId) (id : WorkspaceId) (events : List RemovalLogEvent)
    (w : World) : Prop where
  operation : ∀ a ∈ w.appends, a.1.operationId = operationId ∧ a.1.workspaceId = id
  appended : ∀ a ∈ w.appends, a.2 = true
  events : logEvents w.appends = events

variable {operationId : OperationId} {id : WorkspaceId} {events : List RemovalLogEvent}
  {record : RemovalLogRecord} {inspection : Option GitInspection}

/-- A log under way stays as it is while nothing is logged. -/
theorem Underway.calm (h : Underway operationId id events w) (hcalm : Calm PortCall.logs w w') :
    Underway operationId id events w' := by
  have hsame := appends_of_calm hcalm
  refine ⟨?_, ?_, ?_⟩ <;> rw [hsame]
  · exact h.operation
  · exact h.appended
  · exact h.events

/-- A record of the operation that is appended is the next event of its log. -/
theorem Underway.append (h : Underway operationId id events w)
    (hrecord : record.operationId = operationId ∧ record.workspaceId = id)
    (hw' : w'.appends = w.appends ++ [(record, true)]) :
    Underway operationId id (events ++ [record.event]) w' := by
  refine ⟨fun a ha => ?_, fun a ha => ?_, ?_⟩
  · rw [hw'] at ha
    rcases List.mem_append.mp ha with ha | ha
    · exact h.operation a ha
    · rw [List.mem_singleton.mp ha]
      exact hrecord
  · rw [hw'] at ha
    rcases List.mem_append.mp ha with ha | ha
    · exact h.appended a ha
    · rw [List.mem_singleton.mp ha]
  · rw [hw', logEvents, List.map_append, ← h.events]
    rfl

/-- A log under way may go on to the next event of a sequence. -/
theorem Underway.continues (h : Underway operationId id events w) {event : RemovalLogEvent}
    {sequence : List RemovalLogEvent} (hsequence : sequence ∈ logSequences)
    (hstart : events ++ [event] <+: sequence) : Continues w.appends event :=
  ⟨h.appended, sequence, hsequence, h.events.symm ▸ hstart⟩

/-! ### Records

A record that the use case makes is one that the adapters accept, by the way it is made. -/

/-- The record of an attempt never claims a complete check of an unknown state. -/
theorem removalRecord_git {processUse : Option ProcessUse} {event : RemovalLogEvent}
    {protection : Option RemovalRefusal} {code : Option ErrorCode}
    {outcome : Option WorkspaceRemoval} :
    ¬((removalRecord request operationId id inspection processUse event protection code
        outcome).gitCheckComplete = true ∧
      (removalRecord request operationId id inspection processUse event protection code
        outcome).gitState = .unknown) := by
  rintro ⟨hcomplete, hstate⟩
  cases inspection with
  | none => cases hcomplete
  | some result =>
    have hsettled : result.discovery = .complete ∧ result.aggregate ≠ .unknown := by
      simpa [removalRecord] using hcomplete
    exact hsettled.2 hstate

/-- The adapters accept a record whose fields and whose paths are as they require.  Its two
refusals, of the fields and of the paths, are what the assumptions exclude. -/
theorem checkRemovalRecord_ok (hvalid : validEvent record = true)
    (hgit : ¬(record.gitCheckComplete = true ∧ record.gitState = .unknown))
    (hpaths : ∀ repository ∈ record.repositories,
      isRelativePath repository.relativePath = true) :
    checkRemovalRecord record = .ok () := by
  have hfields : ¬(validEvent record = false ∨
      record.gitCheckComplete = true ∧ record.gitState = .unknown) := by
    rintro (hinvalid | hunknown)
    · rw [hvalid] at hinvalid
      cases hinvalid
    · exact hgit hunknown
  have hlisted : ¬record.repositories.any (fun r => !isRelativePath r.relativePath) = true := by
    intro hany
    obtain ⟨repository, hmem, hbad⟩ := List.any_eq_true.mp hany
    rw [hpaths repository hmem] at hbad
    cases hbad
  unfold checkRemovalRecord Fallible.refuseIf
  rw [if_neg hfields, if_neg hlisted]
  rfl

/-- A record of an attempt may be appended where the log goes on and, for a
completion, the tombstone is stored. -/
theorem logGuard_removalRecord {processUse : Option ProcessUse} {event : RemovalLogEvent}
    {protection : Option RemovalRefusal} {code : Option ErrorCode}
    {outcome : Option WorkspaceRemoval} (hinspects : Inspects inspection w)
    (hvalid : validEvent (removalRecord request operationId id inspection processUse event
      protection code outcome) = true)
    (hcontinues : Continues w.appends event)
    (hstored : event = .completed → ∃ t ∈ w.db.tombstones, t.workspaceId = id.toText) :
    logGuard (.appendRemovalLog (removalRecord request operationId id inspection processUse event
      protection code outcome)) w := by
  refine ⟨fun hrelative => checkRemovalRecord_ok hvalid removalRecord_git fun repository hmem => ?_,
    ⟨hvalid, removalRecord_git⟩, hcontinues, hstored⟩
  cases inspection with
  | none => cases hmem
  | some result =>
    obtain ⟨path, he⟩ := hinspects result rfl
    exact hrelative path result he repository hmem

/-! ### Appending

The two rules of the protocol: a record that is not the last leaves the log under way, and a
last one ends it together with the use case. -/

/-- The world after an append has one record more, and knows whether the append succeeded. -/
theorem appends_of_step {r : Except PortError AbsolutePath}
    (h : (portEnvironment json installation).step w (.appendRemovalLog record) r w') :
    (∃ appended, w'.appends = w.appends ++ [(record, appended)] ∧
      (appended = true ↔ ∃ path, r = .ok path)) ∧ w'.db = w.db := by
  refine ⟨?_, h.2⟩
  unfold World.appends
  rw [step_history h, List.filterMap_append]
  cases r with
  | ok path => exact ⟨true, rfl, fun _ => ⟨path, rfl⟩, fun _ => rfl⟩
  | error e => exact ⟨false, rfl, fun h => (by cases h), fun ⟨_, h⟩ => (by cases h)⟩

/-- The end of a log, from the log before its last record.  The events so far are those of the log
before it, so the new list is one longer; whether the append returned decides which of the two ends
it is. -/
theorem Underway.ended {outcome : Except UseCaseError RemoveOutcome} {appended : Bool}
    (h : Underway operationId id events w)
    (hrecord : record.operationId = operationId ∧ record.workspaceId = id)
    (hw' : w'.appends = w.appends ++ [(record, appended)])
    (hcontinues : Continues w.appends record.event)
    (hreturned : appended = true → events ++ [record.event] ∈ logSequences ∧
      ((∃ result, outcome = .ok result) ↔ record.event = .completed) ∧
      ∀ e, outcome = .error e → record.errorCode = some e.diagnostic.code)
    (hfailed : appended = false → ∃ e, outcome = .error e) :
    Ended operationId id outcome w'.appends := by
  have hevents : logEvents w'.appends = events ++ [record.event] := by
    rw [hw', logEvents, List.map_append, ← h.events]
    rfl
  refine ⟨fun a ha => ?_, w.appends, record, appended, hw', hcontinues, fun ht => ?_, hfailed⟩
  · rw [hw'] at ha
    rcases List.mem_append.mp ha with ha | ha
    · exact h.operation a ha
    · rw [List.mem_singleton.mp ha]
      exact hrecord
  · rw [hevents]
    exact hreturned ht

/-- How a use case ends after a record: it fails with the record's code, or returns
after a completion. -/
def Closes (record : RemovalLogRecord) (x : UseCase RemoveOutcome) : Prop :=
  (∃ e, x = throw e ∧ record.event ≠ .completed ∧ record.errorCode = some e.diagnostic.code) ∨
    ∃ result, x = pure result ∧ record.event = .completed

/-- **The last record**: the operation's log is complete, or its append failed.  The append may
fail, which ends the operation with an error, or return, which ends it as the record says. -/
theorem lastAppend_safe {next : Except PortError AbsolutePath → UseCase RemoveOutcome}
    (h : Underway operationId id events w)
    (hrecord : record.operationId = operationId ∧ record.workspaceId = id)
    (hguard : logGuard (.appendRemovalLog record) w)
    (hlast : events ++ [record.event] ∈ logSequences)
    (hok : ∀ path, Closes record (next (.ok path)))
    (herror : ∀ e, ∃ failure, next (.error e) = throw failure) :
    Safe (portEnvironment json installation) logGuard
      (fun outcome w' => Ended operationId id outcome w'.appends)
      (Program.call (.appendRemovalLog record) next) w := by
  refine ⟨hguard, fun r w₁ step => ?_⟩
  obtain ⟨⟨appended, happends, hreturned⟩, -⟩ := appends_of_step step
  cases r with
  | error e =>
    obtain ⟨failure, hfailure⟩ := herror e
    rw [hfailure]
    refine h.ended hrecord happends hguard.2.2.1 (fun ht => ?_) fun _ => ⟨failure, rfl⟩
    obtain ⟨_, hr⟩ := hreturned.mp ht
    cases hr
  | ok path =>
    have happended : appended = true := hreturned.mpr ⟨path, rfl⟩
    rcases hok path with ⟨failure, hfailure, hevent, hcode⟩ | ⟨result, hresult, hevent⟩
    · rw [hfailure]
      refine h.ended hrecord happends hguard.2.2.1 (fun _ => ⟨hlast, ?_, ?_⟩)
        fun hf => by rw [happended] at hf; cases hf
      · exact iff_of_false (fun ⟨_, hr⟩ => by cases hr) hevent
      · rintro _ ⟨⟩
        exact hcode
    · rw [hresult]
      refine h.ended hrecord happends hguard.2.2.1 (fun _ => ⟨hlast, ?_, ?_⟩)
        fun hf => by rw [happended] at hf; cases hf
      · exact iff_of_true ⟨result, rfl⟩ hevent
      · rintro _ ⟨⟩

/-- A record that is not the last: the log goes on, or its append failed.  An append that fails
ends the operation with an error, and one that returns hands the longer log to what follows. -/
theorem append_safe {next : Except PortError AbsolutePath → UseCase RemoveOutcome}
    (h : Underway operationId id events w)
    (hrecord : record.operationId = operationId ∧ record.workspaceId = id)
    (hguard : logGuard (.appendRemovalLog record) w)
    (hok : ∀ path w₁, Underway operationId id (events ++ [record.event]) w₁ → w₁.db = w.db →
      (∀ e ∈ w.history, e ∈ w₁.history) →
      Safe (portEnvironment json installation) logGuard
        (fun outcome w' => Ended operationId id outcome w'.appends) (next (.ok path)) w₁)
    (herror : ∀ e, ∃ failure, next (.error e) = throw failure) :
    Safe (portEnvironment json installation) logGuard
      (fun outcome w' => Ended operationId id outcome w'.appends)
      (Program.call (.appendRemovalLog record) next) w := by
  refine ⟨hguard, fun r w₁ step => ?_⟩
  obtain ⟨⟨appended, happends, hreturned⟩, hdb⟩ := appends_of_step step
  cases r with
  | error e =>
    obtain ⟨failure, hfailure⟩ := herror e
    rw [hfailure]
    refine h.ended hrecord happends hguard.2.2.1 (fun ht => ?_) fun _ => ⟨failure, rfl⟩
    obtain ⟨_, hr⟩ := hreturned.mp ht
    cases hr
  | ok path =>
    have happended : appended = true := hreturned.mpr ⟨path, rfl⟩
    rw [happended] at happends
    refine hok path w₁ (h.append hrecord happends) hdb fun e he => ?_
    rw [step_history step]
    exact List.mem_append_left _ he

/-! ### The removal of a removed identifier

A removal of an identifier that was deleted before logs a start and a completion; the
tombstone is there already. -/

/-- A tombstone that `deletion_tombstone` returned is stored, in the database as it is then. -/
theorem deletionTombstone_stored {found : DeletionTombstone}
    (h : (portEnvironment json installation).step w (.deletionTombstone id) (.ok (some found)) w') :
    ∃ t ∈ w'.db.tombstones, t.workspaceId = id.toText := by
  obtain ⟨faults, c, hrun, hdb⟩ := StoreStep.ran h.2
  have hdata : c.data = w.db := (reads_deletionTombstone.ok hrun).symm
  obtain ⟨c₁, h₁, hrest⟩ := Session.query_bind_ok hrun
  cases hselect : w.db.selectTombstone id.toText with
  | none =>
    rw [hselect] at hrest
    cases hrest
  | some t =>
    rw [hdb, hdata]
    exact ⟨t, List.mem_of_find?_eq_some hselect, by simpa using List.find?_some hselect⟩

/-- A run that has not begun an operation: neither an identifier nor a record. -/
def Silent (w : World) : Prop := ∀ e ∈ w.history, e.call.logs = false

/-- What every complete run leaves: nothing logged and a failure, or the log of one
operation. -/
def LogOutcome (outcome : Except UseCaseError RemoveOutcome) (w : World) : Prop :=
  (Silent w ∧ ∃ e, outcome = .error e) ∨ ∃ operationId id, Ended operationId id outcome w.appends

/-- A silent run stays silent while nothing is logged. -/
theorem Silent.calm (h : Silent w) (hcalm : Calm PortCall.logs w w') : Silent w' := by
  obtain ⟨⟨es, hes, hnot⟩, _⟩ := hcalm
  intro e he
  rw [hes] at he
  rcases List.mem_append.mp he with he | he
  · exact h e he
  · exact hnot e he

/-- A silent run has appended no record, so its log is empty. -/
theorem Silent.appends (h : Silent w) : w.appends = [] :=
  List.filterMap_eq_nil_iff.mpr fun e he => append?_of_not_logs (h e he)

/-- An operation begins with an empty log, under the identifier that was drawn. -/
theorem Silent.underway (h : Silent w)
    (step : (portEnvironment json installation).step w .newOperationId operationId w') :
    Underway operationId id [] w' := by
  have hempty : w'.appends = [] := by
    unfold World.appends
    rw [step_history step, List.filterMap_append]
    show w.appends ++ [] = []
    rw [h.appends]
    rfl
  refine ⟨?_, ?_, ?_⟩ <;> rw [hempty]
  · exact fun _ ha => absurd ha List.not_mem_nil
  · exact fun _ ha => absurd ha List.not_mem_nil
  · rfl

/-- A condition that is checked first: the rest starts from the same world where it holds, and the
error stands where it does not. -/
theorem safe_unlessFail_bind {β : Type} {p : Prop} [Decidable p] {error : UseCaseError}
    {f : Unit → UseCase β} {post : Except UseCaseError β → World → Prop}
    (hp : p → Safe (portEnvironment json installation) logGuard post (f ()) w)
    (hnot : ¬p → post (.error error) w) :
    Safe (portEnvironment json installation) logGuard post (unlessFail p error >>= f) w := by
  unfold unlessFail
  by_cases h : p
  · rw [if_pos h]
    exact hp h
  · rw [if_neg h]
    exact hnot h

/-- The removal of an identifier without an active record logs a start and a completion behind a
stored tombstone, or a failure.  Without an old identifier nothing is logged, and with one the
start and the completion are, each of whose appends may fail. -/
theorem removeAbsent_logs {identity : InstallationIdentity} (hw : Silent w) :
    Safe (portEnvironment json installation) logGuard LogOutcome
      (removeAbsent request identity) w := by
  unfold removeAbsent
  cases request.target.absentId with
  | none => exact .inl ⟨hw, _, rfl⟩
  | some id =>
    refine ⟨trivial, fun found w₁ h₁ => ?_⟩
    have hsilent : Silent w₁ := hw.calm (Calm.step rfl h₁)
    rcases found with e | _ | tombstone
    · exact .inl ⟨hsilent, _, rfl⟩
    · exact .inl ⟨hsilent, _, rfl⟩
    · have hstored := deletionTombstone_stored h₁
      refine safe_unlessFail_bind (fun _ => ?_) fun _ => .inl ⟨hsilent, _, rfl⟩
      refine ⟨trivial, fun operationId w₂ h₂ => ?_⟩
      have hdb : w₂.db = w₁.db := h₂.2
      have hnone : ∀ w, Inspects none w := fun w _ h => by cases h
      refine (append_safe (hsilent.underway h₂) ⟨rfl, rfl⟩ ?_ (fun path w₃ h₃ hdb₃ _ => ?_)
        fun e => ⟨_, rfl⟩).mono fun _ _ hended => .inr ⟨operationId, id, hended⟩
      · have hfirst : [.started, .completed] ∈ logSequences := by decide
        have hstart : Underway operationId id [] w₂ := hsilent.underway h₂
        exact logGuard_removalRecord (hnone w₂) rfl
          (hstart.continues hfirst (by decide)) fun h => by cases h
      · have hstarted : Underway operationId id [.started] w₃ := h₃
        have hlast : [RemovalLogEvent.started] ++ [.completed] ∈ logSequences := by decide
        refine lastAppend_safe hstarted ⟨rfl, rfl⟩ ?_ hlast (fun path => .inr ⟨_, rfl, rfl⟩)
          fun e => ⟨_, rfl⟩
        refine logGuard_removalRecord (hnone w₃) rfl
          (hstarted.continues hlast (List.prefix_refl _)) fun _ => ?_
        rw [hdb₃, hdb]
        exact hstored

/-! ### The removal of an active record

Each branch of a removal of an active record ends the log in its own way.  The branches are
followed as the code nests them. -/

section Attempt

variable {processUse : Option ProcessUse} {active : WorkspaceRecord}

/-- The warning about an incomplete scan does not change the code of an error. -/
theorem code_withProcessScanWarning (e : UseCaseError) :
    (withProcessScanWarning e processUse).diagnostic.code = e.diagnostic.code := by
  unfold withProcessScanWarning
  split <;> rfl

/-- A failed preflight ends the log with its failure. -/
theorem preflightFailed_logs {failure : UseCaseError} (h : Underway operationId id [] w) :
    Safe (portEnvironment json installation) logGuard
      (fun outcome w' => Ended operationId id outcome w'.appends)
      (preflightFailed request operationId id failure) w := by
  have hlast : [] ++ [RemovalLogEvent.failed] ∈ logSequences := by decide
  have hnone : Inspects none w := fun _ h => by cases h
  refine lastAppend_safe h ⟨rfl, rfl⟩ ?_ hlast (fun path => .inl ⟨failure, rfl, nofun, rfl⟩)
    fun e => ⟨_, rfl⟩
  exact logGuard_removalRecord hnone rfl (h.continues hlast (List.prefix_refl _)) nofun

/-- A failure that is logged as the last record. -/
theorem failLogged_logs {failure : UseCaseError} (hinspects : Inspects inspection w)
    (h : Underway operationId active.reservation.workspaceId [.started] w) :
    Safe (portEnvironment json installation) logGuard
      (fun outcome w' => Ended operationId active.reservation.workspaceId outcome w'.appends)
      (failLogged request operationId inspection processUse active failure) w := by
  have hlast : [.started] ++ [RemovalLogEvent.failed] ∈ logSequences := by decide
  refine lastAppend_safe h ⟨rfl, rfl⟩ ?_ hlast (fun path => .inl ⟨failure, rfl, nofun, rfl⟩)
    fun e => ⟨_, rfl⟩
  exact logGuard_removalRecord hinspects rfl (h.continues hlast (List.prefix_refl _)) nofun

/-- A refusal ends the log with its one record. -/
theorem refuse_logs {reason : RemovalRefusal} (hinspects : Inspects inspection w)
    (h : Underway operationId active.reservation.workspaceId [] w) :
    Safe (portEnvironment json installation) logGuard
      (fun outcome w' => Ended operationId active.reservation.workspaceId outcome w'.appends)
      (refuse request operationId inspection processUse active reason) w := by
  have hlast : [] ++ [RemovalLogEvent.refused] ∈ logSequences := by decide
  refine lastAppend_safe h ⟨rfl, rfl⟩ ?_ hlast (fun path => .inl ⟨_, rfl, nofun, ?_⟩)
    fun e => ⟨_, rfl⟩
  · exact logGuard_removalRecord hinspects rfl (h.continues hlast (List.prefix_refl _)) nofun
  · rw [code_withProcessScanWarning]
    rfl

/-- A refusal for want of a complete inspection does so too. -/
theorem refuseIncomplete_logs (hinspects : Inspects inspection w)
    (h : Underway operationId active.reservation.workspaceId [] w) :
    Safe (portEnvironment json installation) logGuard
      (fun outcome w' => Ended operationId active.reservation.workspaceId outcome w'.appends)
      (refuseIncomplete request operationId inspection processUse active) w := by
  have hlast : [] ++ [RemovalLogEvent.failed] ∈ logSequences := by decide
  refine lastAppend_safe h ⟨rfl, rfl⟩ ?_ hlast (fun path => .inl ⟨_, rfl, nofun, ?_⟩)
    fun e => ⟨_, rfl⟩
  · exact logGuard_removalRecord hinspects rfl (h.continues hlast (List.prefix_refl _)) nofun
  · rw [code_withProcessScanWarning]
    rfl

/-- From the destruction on, the log ends in a failure or in a completion behind its tombstone.
The container is removed first and then the row, and only behind both is the completion logged; a
failure of either is logged as one. -/
theorem destroy_logs {identity : InstallationIdentity} {logPath : AbsolutePath}
    {warning : Option RemovalWarning} (hinspects : Inspects inspection w)
    (h : Underway operationId active.reservation.workspaceId [.started] w) :
    Safe (portEnvironment json installation) logGuard
      (fun outcome w' => Ended operationId active.reservation.workspaceId outcome w'.appends)
      (destroy request operationId inspection processUse active identity logPath warning) w := by
  refine Safe.bind (x := Program.attempt _) (quiet_part quiet_removeContainer).attempt
    (fun outcome w₁ h₁ => ?_) fun e w₁ h₁ => by obtain ⟨_, ⟨⟩, _⟩ := h₁
  obtain ⟨_, ⟨⟩, h₁⟩ := h₁
  cases outcome with
  | error failure =>
    refine ⟨trivial, fun r w₂ h₂ => ?_⟩
    have hcalm : Calm PortCall.logs w w₂ := h₁.trans (Calm.step rfl h₂)
    cases r with
    | ok recorded => exact failLogged_logs (hinspects.calm hcalm) (h.calm hcalm)
    | error e => exact failLogged_logs (hinspects.calm hcalm) (h.calm hcalm)
  | ok removed =>
    refine ⟨trivial, fun r w₂ h₂ => ?_⟩
    have hcalm : Calm PortCall.logs w w₂ := h₁.trans (Calm.step rfl h₂)
    cases r with
    | error e => exact failLogged_logs (hinspects.calm hcalm) (h.calm hcalm)
    | ok tombstone =>
      have hlast : [.started] ++ [RemovalLogEvent.completed] ∈ logSequences := by decide
      refine lastAppend_safe (h.calm hcalm) ⟨rfl, rfl⟩ ?_ hlast (fun path => .inr ⟨_, rfl, rfl⟩)
        fun e => ⟨_, rfl⟩
      refine logGuard_removalRecord (hinspects.calm hcalm) rfl
        ((h.calm hcalm).continues hlast (List.prefix_refl _)) fun _ => ?_
      obtain ⟨faults, c, hrun, hdb⟩ := StoreStep.ran h₂.2
      obtain ⟨_, htombstones, _⟩ := Metadata.completeDeletion_ok hrun
      refine ⟨Metadata.tombstoneRow active.reservation.workspaceId identity.instanceId request.now,
        ?_, rfl⟩
      rw [hdb, htombstones]
      exact List.mem_append_right _ (List.mem_singleton_self _)

/-- A removal that goes on logs its start before anything is destroyed, and then how it ended.  The
start is appended first, and where that fails nothing is begun. -/
theorem beginAndDestroy_logs {identity : InstallationIdentity} {warning : Option RemovalWarning}
    (hinspects : Inspects inspection w)
    (h : Underway operationId active.reservation.workspaceId [] w) :
    Safe (portEnvironment json installation) logGuard
      (fun outcome w' => Ended operationId active.reservation.workspaceId outcome w'.appends)
      (beginAndDestroy request operationId inspection processUse active identity warning) w := by
  have hfirst : [.started, .completed] ∈ logSequences := by decide
  refine append_safe h ⟨rfl, rfl⟩ (logGuard_removalRecord hinspects rfl
    (h.continues hfirst (by decide)) nofun) (fun logPath w₁ hstarted _ hkept => ?_)
    fun e => ⟨_, rfl⟩
  have hinspects₁ : Inspects inspection w₁ := fun result hresult =>
    (hinspects result hresult).imp fun path he => hkept _ he
  have hstarted₁ : Underway operationId active.reservation.workspaceId [.started] w₁ := hstarted
  refine ⟨trivial, fun r w₂ h₂ => ?_⟩
  have hcalm : Calm PortCall.logs w₁ w₂ := Calm.step rfl h₂
  cases r with
  | error e => exact failLogged_logs (hinspects₁.calm hcalm) (hstarted₁.calm hcalm)
  | ok deleting => exact destroy_logs (hinspects₁.calm hcalm) (hstarted₁.calm hcalm)

/-- The decision leads to a refusal or a removal, and either ends the log. -/
theorem decideAndRemove_logs {identity : InstallationIdentity} (hinspects : Inspects inspection w)
    (h : Underway operationId active.reservation.workspaceId [] w) :
    Safe (portEnvironment json installation) logGuard
      (fun outcome w' => Ended operationId active.reservation.workspaceId outcome w'.appends)
      (decideAndRemove request operationId inspection processUse active identity) w := by
  unfold decideAndRemove
  split
  · exact refuseIncomplete_logs hinspects h
  · split
    · exact refuse_logs hinspects h
    · exact beginAndDestroy_logs hinspects h

end Attempt

/-- What ends the log of some operation meets the protocol. -/
theorem safe_logOutcome (operationId : OperationId) (id : WorkspaceId)
    {x : UseCase RemoveOutcome}
    (h : Safe (portEnvironment json installation) logGuard
      (fun outcome w' => Ended operationId id outcome w'.appends) x w) :
    Safe (portEnvironment json installation) logGuard LogOutcome x w :=
  h.mono fun _ _ hended => .inr ⟨operationId, id, hended⟩

/-- The removal of an active record meets the protocol from a silent run on. -/
theorem removeActive_logs {identity : InstallationIdentity} {active : WorkspaceRecord}
    (hw : Silent w) :
    Safe (portEnvironment json installation) logGuard LogOutcome
      (removeActive request identity active) w := by
  refine ⟨trivial, fun operationId w₁ h₁ => ?_⟩
  have hstart : Underway operationId active.reservation.workspaceId [] w₁ := hw.underway h₁
  refine safe_logOutcome operationId active.reservation.workspaceId ?_
  refine Safe.bind (x := Program.attempt _) (preflight_quietly).attempt
    (fun outcome w₂ h₂ => ?_) fun e w₂ h₂ => by obtain ⟨_, ⟨⟩, _⟩ := h₂
  obtain ⟨_, ⟨⟩, hcalm, hinspects⟩ := h₂
  cases outcome with
  | error failure => exact preflightFailed_logs (hstart.calm hcalm)
  | ok facts => exact decideAndRemove_logs (hinspects facts rfl) (hstart.calm hcalm)

/-- **Every removal meets the protocol**, from a run that has logged nothing. -/
theorem remove_logs {db : Database} :
    Safe (portEnvironment json installation) logGuard LogOutcome (remove request) ⟨db, []⟩ := by
  have hnew : Silent ⟨db, []⟩ := fun _ he => absurd he List.not_mem_nil
  refine Safe.bind (x := readIdentity)
    (quiet_part (only_readIdentity.mono not_logs_of_opensStore))
    (fun identity w₁ h₁ => ?_) fun e w₁ h₁ => .inl ⟨hnew.calm h₁, e, rfl⟩
  refine Safe.bind (x := openMetadata _ _)
    (quiet_part (only_openMetadata.mono not_logs_of_opensStore))
    (fun _ w₂ h₂ => ?_) fun e w₂ h₂ => .inl ⟨hnew.calm (h₁.trans h₂), e, rfl⟩
  refine Safe.bind (x := selectActive _)
    (quiet_part (only_selectActive rfl (fun _ => rfl) fun _ => rfl)) (fun found w₃ h₃ => ?_)
    fun e w₃ h₃ => .inl ⟨hnew.calm ((h₁.trans h₂).trans h₃), e, rfl⟩
  have hsilent : Silent w₃ := hnew.calm ((h₁.trans h₂).trans h₃)
  cases found with
  | none => exact removeAbsent_logs hsilent
  | some active => exact removeActive_logs hsilent

/-! ### The protocol

The protocol for every run: either nothing was logged, or the log of one operation, whose
end fits the outcome. -/

/-- What the log of a complete run looks like, and what it says of the outcome. -/
structure Logged (outcome : Except UseCaseError RemoveOutcome) (w : World) : Prop where
  one_operation : ∀ a ∈ w.appends, ∀ b ∈ w.appends,
    a.1.operationId = b.1.operationId ∧ a.1.workspaceId = b.1.workspaceId
  complete : (∀ a ∈ w.appends, a.2 = true) → logEvents w.appends ∈ logSequences ∨ Silent w
  cut : (∃ a ∈ w.appends, a.2 = false) → ∃ sequence ∈ logSequences,
    logEvents (w.appends.filter (·.2)) <+: sequence ∧
      logEvents (w.appends.filter (·.2)) ≠ sequence
  ok_iff : (∀ a ∈ w.appends, a.2 = true) →
    ((∃ result, outcome = .ok result) ↔
      w.appends.getLast?.map (·.1.event) = some RemovalLogEvent.completed)
  error_code : (∀ a ∈ w.appends, a.2 = true) → ∀ e, outcome = .error e →
    ∀ a, w.appends.getLast? = some a → a.1.errorCode = some e.diagnostic.code

/-- A run that failed before it began an operation has logged nothing, as the protocol allows. -/
theorem Silent.logged {e : UseCaseError} (h : Silent w) : Logged (.error e) w := by
  have hempty := h.appends
  refine ⟨?_, fun _ => .inr h, ?_, fun _ => ?_, fun _ _ _ => ?_⟩ <;> rw [hempty]
  · exact fun _ ha => absurd ha List.not_mem_nil
  · rintro ⟨_, ha, _⟩
    exact absurd ha List.not_mem_nil
  · exact iff_of_false (fun ⟨_, hr⟩ => by cases hr) nofun
  · exact fun _ ha => by cases ha

/-- A log that has ended is one that the protocol allows.  The last append is the last element of
the log, so whether all of them returned is a question about it. -/
theorem Ended.logged {outcome : Except UseCaseError RemoveOutcome}
    (h : Ended operationId id outcome w.appends) : Logged outcome w := by
  obtain ⟨earlier, record, appended, happends, ⟨hearlier, sequence, hsequence, hstart⟩, hreturned,
    hfailed⟩ := h.last
  have hall : (∀ a ∈ w.appends, a.2 = true) → appended = true := fun hall =>
    hall (record, appended) (happends ▸ List.mem_append_right _ (List.mem_singleton_self _))
  have hlast : w.appends.getLast? = some (record, appended) := by
    rw [happends, List.getLast?_append]
    rfl
  refine ⟨fun a ha b hb => ?_, fun ht => .inl (hreturned (hall ht)).1, fun hf => ?_, fun ht => ?_,
    fun ht e he a ha => ?_⟩
  · obtain ⟨hop, hid⟩ := h.operation a ha
    obtain ⟨hop', hid'⟩ := h.operation b hb
    exact ⟨hop.trans hop'.symm, hid.trans hid'.symm⟩
  · -- Only the last append can have failed.
    have hno : appended = false := by
      obtain ⟨a, ha, hfalse⟩ := hf
      rw [happends] at ha
      rcases List.mem_append.mp ha with ha | ha
      · rw [hearlier a ha] at hfalse
        cases hfalse
      · rwa [List.mem_singleton.mp ha] at hfalse
    have hkept : w.appends.filter (·.2) = earlier := by
      rw [happends, List.filter_append, List.filter_eq_self.mpr hearlier, hno]
      exact List.append_nil _
    rw [hkept]
    refine ⟨sequence, hsequence, (List.prefix_append _ _).trans hstart, fun he => ?_⟩
    have hlength := hstart.length_le
    rw [he, List.length_append, List.length_singleton] at hlength
    omega
  · rw [hlast, (hreturned (hall ht)).2.1]
    exact ⟨fun he => congrArg some he, fun he => Option.some.inj he⟩
  · rw [hlast] at ha
    cases ha
    exact (hreturned (hall ht)).2.2 e he

/-- **The removal log protocol.**  In every run of `remove` on every database, for every
result the ports may give: each record passes the checks of the adapters (the one on
repository paths as far as the Git inspector's answers do), and a `Completed` record
finds its tombstone stored; a complete run leaves the log of one operation, which is
one of `logSequences`, or a proper prefix of one when an append failed; and when none
failed, the run returns exactly behind a `Completed` record and fails with the code of
its last record otherwise. -/
theorem removal_log_protocol (json : JsonLibrary) (installation : InstallationRecord)
    (request : RemoveRequest) (db : Database) :
    (∀ record w, Program.Issues (portEnvironment json installation) (remove request) ⟨db, []⟩
        (.appendRemovalLog record) w →
      (validEvent record = true ∧ ¬(record.gitCheckComplete = true ∧ record.gitState = .unknown)) ∧
      ((∀ path inspection, ⟨.gitInspect path, inspection⟩ ∈ w.history →
        RelativeRepositories inspection) → checkRemovalRecord record = .ok ()) ∧
      (record.event = .completed →
        ∃ t ∈ w.db.tombstones, t.workspaceId = record.workspaceId.toText)) ∧
    ∀ outcome w, Program.Returns (portEnvironment json installation) (remove request) ⟨db, []⟩
      outcome w → Logged outcome w := by
  refine ⟨fun record w run => ?_, fun outcome w run => ?_⟩
  · obtain ⟨hchecked, hvalid, -, hstored⟩ := remove_logs.of_issues run
    exact ⟨hvalid, hchecked, hstored⟩
  · rcases remove_logs.of_returns run with ⟨hsilent, e, rfl⟩ | ⟨_, _, hended⟩
    · exact hsilent.logged
    · exact hended.logged

end Application
end ThinWorkspace
